import PoolGauge.Failure
import PoolGauge.Metrics.Self
import PoolGauge.Snapshot

/-!
# The snapshot cache

The latest successful snapshot and the record of the attempts to collect one. A failed attempt
leaves the snapshot in place.
-/
namespace PoolGauge

/-- A snapshot as it was published, with the number of publications before it. -/
structure Published where
  id : Nat
  snapshot : Snapshot
deriving Repr

/-- The latest snapshot and the record of attempts. The generation counts finished attempts,
wrapping at the end of its word. -/
structure Cache where
  current : Option Published
  healthy : Bool
  generation : UInt64
  publications : Nat
  metrics : Metrics.SelfMetrics
deriving Repr

namespace Cache

def empty : Cache :=
  ⟨none, false, 0, 0, .initial⟩

def finish (c : Cache) : Except Failure Snapshot → Cache
  | .ok snapshot =>
    { current := some ⟨c.publications, snapshot⟩
      healthy := true
      generation := c.generation + 1
      publications := c.publications + 1
      metrics := c.metrics.succeed snapshot }
  | .error _ =>
    { c with
      healthy := false
      generation := c.generation + 1
      metrics := c.metrics.fail }

/-- What the call whose attempt had an outcome is told. -/
def tell (c : Cache) (outcome : Except Failure Snapshot) : Except Failure Published :=
  outcome.map fun snapshot => ⟨c.publications, snapshot⟩

/-- What a call is told that shares the outcome of the attempt finished last. -/
def shared (c : Cache) : Except Failure Published :=
  match c.healthy, c.current with
  | true, some published => .ok published
  | _, _ => .error (.unavailable "concurrent collection failed")

/-- The snapshot that a scrape serves after a refresh: the one told, else the latest. -/
def served (c : Cache) : Except Failure Published → Option Published
  | .ok published => some published
  | .error _ => c.current

@[simp] theorem generation_finish (c : Cache) (outcome : Except Failure Snapshot) :
    (c.finish outcome).generation = c.generation + 1 := by
  cases outcome <;> rfl

end Cache

end PoolGauge
