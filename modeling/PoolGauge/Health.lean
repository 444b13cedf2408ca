import PoolGauge.Text.Blank

/-!
# States of pools and vdevs

Both enumerations are closed: a word that names no state means the unknown one. The lists `all`
are in the order in which states are exposed.
-/
namespace PoolGauge

/-- The state of an imported pool. -/
inductive PoolState where
  | active | degraded | faulted | offline | unavailable | removed | suspended | unknown
deriving DecidableEq, Repr

namespace PoolState

/-- Every state, in order of exposition. -/
def all : List PoolState :=
  [active, degraded, faulted, offline, unavailable, removed, suspended, unknown]

def word : PoolState → String
  | active => "ACTIVE"
  | degraded => "DEGRADED"
  | faulted => "FAULTED"
  | offline => "OFFLINE"
  | unavailable => "UNAVAIL"
  | removed => "REMOVED"
  | suspended => "SUSPENDED"
  | unknown => "UNKNOWN"

/-- The state that a health word reports; an imported pool that is online is in active use. -/
def ofHealth (health : String) : PoolState :=
  match Text.trimmed health with
  | "ONLINE" => active
  | "DEGRADED" => degraded
  | "FAULTED" => faulted
  | "OFFLINE" => offline
  | "UNAVAIL" => unavailable
  | "REMOVED" => removed
  | "SUSPENDED" => suspended
  | _ => unknown

theorem mem_all (s : PoolState) : s ∈ all := by
  cases s <;> decide

theorem nodup_all : all.Nodup := by
  decide

theorem word_injective {s t : PoolState} (h : s.word = t.word) : s = t := by
  revert h
  cases s <;> cases t <;> decide

end PoolState

/-- The health of a vdev. -/
inductive VdevState where
  | online | degraded | faulted | offline | unavailable | removed | unknown
deriving DecidableEq, Repr

namespace VdevState

def all : List VdevState :=
  [online, degraded, faulted, offline, unavailable, removed, unknown]

def word : VdevState → String
  | online => "ONLINE"
  | degraded => "DEGRADED"
  | faulted => "FAULTED"
  | offline => "OFFLINE"
  | unavailable => "UNAVAIL"
  | removed => "REMOVED"
  | unknown => "UNKNOWN"

/-- The state that a word reports; an available spare and one in use are usable devices. -/
def ofWord (text : String) : VdevState :=
  match Text.trimmed text with
  | "ONLINE" => online
  | "AVAIL" => online
  | "INUSE" => online
  | "DEGRADED" => degraded
  | "FAULTED" => faulted
  | "OFFLINE" => offline
  | "UNAVAIL" => unavailable
  | "REMOVED" => removed
  | _ => unknown

theorem mem_all (s : VdevState) : s ∈ all := by
  cases s <;> decide

theorem nodup_all : all.Nodup := by
  decide

theorem word_injective {s t : VdevState} (h : s.word = t.word) : s = t := by
  revert h
  cases s <;> cases t <;> decide

end VdevState

end PoolGauge
