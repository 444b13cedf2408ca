import PoolGauge.Failure
import PoolGauge.RefreshMode
import PoolGauge.Text.Blank

/-!
# Configuration

What the exporter is told at its start: where it listens, and how it collects.
-/
namespace PoolGauge

structure ServerConfig where
  addr : String := "127.0.0.1"
  port : UInt16 := 9901
deriving DecidableEq, Repr

structure CollectorConfig where
  refreshMode : RefreshMode := .onScrape
  refreshIntervalSeconds : UInt64 := 15
  collectionTimeoutSeconds : UInt64 := 30
  commandTimeoutSeconds : UInt64 := 10
  kstatRoot : String := "/proc/spl/kstat/zfs"
deriving DecidableEq, Repr

structure Config where
  server : ServerConfig := {}
  collector : CollectorConfig := {}
deriving DecidableEq, Repr

def atLeastOneSecond (seconds : UInt64) : Duration :=
  .ofParts (max seconds.toNat 1) 0

namespace CollectorConfig

def refreshInterval (c : CollectorConfig) : Duration :=
  atLeastOneSecond c.refreshIntervalSeconds

def collectionTimeout (c : CollectorConfig) : Duration :=
  atLeastOneSecond c.collectionTimeoutSeconds

def commandTimeout (c : CollectorConfig) : Duration :=
  atLeastOneSecond c.commandTimeoutSeconds

end CollectorConfig

namespace Config

def emptySetting (name : String) : Failure :=
  .config (name ++ " must not be empty")

/-- Refuses a configuration that an exporter cannot run with. -/
def validate (c : Config) : Except Failure Unit :=
  if Text.trimmed c.server.addr = "" then .error (emptySetting "server.addr")
  else if Text.trimmed c.collector.kstatRoot = "" then
    .error (emptySetting "collector.kstat_root")
  else .ok ()

def listenAddr (c : Config) : String :=
  c.server.addr ++ ":" ++ c.server.port.toNat.repr

def announcement (c : Config) : List String :=
  ["Configuration loaded successfully",
    "Refresh mode: " ++ c.collector.refreshMode.name,
    "Metrics endpoint: http://" ++ c.listenAddr ++ "/metrics"]

end Config

theorem one_le_wholeSeconds_atLeastOneSecond (seconds : UInt64) :
    1 ≤ (atLeastOneSecond seconds).wholeSeconds := by
  simp only [atLeastOneSecond, Duration.ofParts, Duration.wholeSeconds]
  omega

end PoolGauge
