import PoolGauge.Metrics.Family
import PoolGauge.Snapshot

/-!
# Metrics about the exporter

They outlive every snapshot: whether the last collection succeeded, how many failed, and when and
how fast the latest snapshot was collected.
-/
namespace PoolGauge.Metrics

structure SelfMetrics where
  up : Float
  failures : UInt64
  collectedAt : Float
  duration : Float
deriving Repr

namespace SelfMetrics

def initial : SelfMetrics :=
  ⟨Number.nearest 0 1, 0, Number.nearest 0 1, Number.nearest 0 1⟩

def succeed (m : SelfMetrics) (snapshot : Snapshot) : SelfMetrics :=
  { m with
    up := Number.nearest 1 1
    collectedAt := snapshot.collectedAt.seconds
    duration := snapshot.duration.seconds }

def fail (m : SelfMetrics) : SelfMetrics :=
  { m with up := Number.nearest 0 1, failures := m.failures + 1 }

def families : List (Family SelfMetrics) :=
  [ ⟨"zfs_exporter_collection_duration_seconds", "Time taken to collect the latest snapshot", [],
      .gauge fun m => [⟨[], m.duration⟩]⟩,
    ⟨"zfs_exporter_collection_failures_total",
      "Collections that failed and left the previous snapshot in place", [],
      .counter fun m => [⟨[], m.failures⟩]⟩,
    ⟨"zfs_exporter_last_collection_timestamp_seconds",
      "Unix time the latest snapshot was collected", [],
      .gauge fun m => [⟨[], m.collectedAt⟩]⟩,
    ⟨"zfs_exporter_up", "Whether the last collection succeeded (1) or failed (0)", [],
      .gauge fun m => [⟨[], m.up⟩]⟩ ]

end SelfMetrics

end PoolGauge.Metrics
