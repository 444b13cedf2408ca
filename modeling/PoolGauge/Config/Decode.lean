import PoolGauge.Config.Basic
import PoolGauge.Number.Shortest
import PoolGauge.Settings.Basic

/-!
# Configurations from settings

How settings become a configuration: what is missing has its default, unknown names are ignored,
and numbers, flags and texts stand in for each other where that makes sense.
-/
namespace PoolGauge.Settings

namespace Setting

def wordOfText? (text : String) : Option UInt64 :=
  let small := text.map Char.toLower
  if small = "true" ∨ small = "on" ∨ small = "yes" then some 1
  else if small = "false" ∨ small = "off" ∨ small = "no" then some 0
  else Number.readWord text.toList

/-- The counter that a setting stands for. Doubles are rounded, a half away from zero, and stop at
the ends of the word. -/
def word? : Setting → Option UInt64
  | integer value =>
    if 0 ≤ value ∧ value < (UInt64.size : Nat) then some (UInt64.ofNat value.toNat) else none
  | number value => some value.round.toUInt64
  | flag value => some (if value then 1 else 0)
  | text value => wordOfText? value
  | _ => none

def port? (setting : Setting) : Option UInt16 :=
  setting.word?.bind fun n =>
    if n.toNat < UInt16.size then some n.toUInt16 else none

def text? : Setting → Option String
  | text value => some value
  | integer value => some value.repr
  | number value => some (String.ofList (Number.floatText value))
  | flag value => some (if value then "true" else "false")
  | _ => none

/-- The refresh mode that a setting stands for. A table with one entry stands for its key. -/
def mode? : Setting → Option RefreshMode
  | text value => RefreshMode.ofSetting? value
  | table [(key, _)] => RefreshMode.ofSetting? key
  | _ => none

/-- The way to the members of a group, which is a table with names or a list in the order of the
members. -/
def members? : Setting → Option (String → Nat → Option Setting)
  | table entries => some fun name _ => entries.lookup name
  | list items => some fun _ place => items[place]?
  | _ => none

def orDefault {α : Type} (decode : Setting → Option α) (default : α) :
    Option Setting → Option α
  | none => some default
  | some setting => decode setting

def server? (setting : Setting) : Option ServerConfig := do
  let member ← setting.members?
  let base : ServerConfig := {}
  let addr ← orDefault text? base.addr (member "addr" 0)
  let port ← orDefault port? base.port (member "port" 1)
  return ⟨addr, port⟩

def collector? (setting : Setting) : Option CollectorConfig := do
  let member ← setting.members?
  let base : CollectorConfig := {}
  let refreshMode ← orDefault mode? base.refreshMode (member "refresh_mode" 0)
  let refreshIntervalSeconds ←
    orDefault word? base.refreshIntervalSeconds (member "refresh_interval_seconds" 1)
  let collectionTimeoutSeconds ←
    orDefault word? base.collectionTimeoutSeconds (member "collection_timeout_seconds" 2)
  let commandTimeoutSeconds ←
    orDefault word? base.commandTimeoutSeconds (member "command_timeout_seconds" 3)
  let kstatRoot ← orDefault text? base.kstatRoot (member "kstat_root" 4)
  return ⟨refreshMode, refreshIntervalSeconds, collectionTimeoutSeconds, commandTimeoutSeconds,
    kstatRoot⟩

/-- The configuration of a tree of settings. -/
def config? (setting : Setting) : Option Config := do
  let member ← setting.members?
  let server ← orDefault server? {} (member "server" 0)
  let collector ← orDefault collector? {} (member "collector" 1)
  return ⟨server, collector⟩

end Setting

end PoolGauge.Settings
