import PoolGauge.Settings.Basic

/-!
# Environment variables

Variables with a common beginning in their names are settings: the rest of the name is the path,
with two underscores between its parts, and letters count as small ones.
-/
namespace PoolGauge.Settings

structure Environment where
  entries : List (String × String)
deriving DecidableEq, Repr

namespace Environment

def get? (e : Environment) (name : String) : Option String :=
  e.entries.lookup name

/-- The environment with a variable that keeps its value if it has one already. -/
def setDefault (e : Environment) (name value : String) : Environment :=
  if (e.get? name).isSome then e else ⟨e.entries ++ [(name, value)]⟩

/-- The small letter of a letter, as far as it is one of the alphabet's; the sign of the kelvin
has a small letter of the alphabet too. -/
def small (c : Char) : Char :=
  if c = '\u212A' then 'k' else c.toLower

def opening : List Char := "zfs_exporter__".toList

/-- A name with points for pairs of underscores. -/
def withPoints : List Char → List Char
  | '_' :: '_' :: rest => '.' :: withPoints rest
  | c :: rest => c :: withPoints rest
  | [] => []

def keyOf? (name : String) : Option String :=
  let letters := name.toList.map small
  if opening.isPrefixOf letters then
    some (String.ofList (withPoints (letters.drop opening.length)))
  else none

/-- The settings that the variables give, all of them texts. -/
def settings (e : Environment) : Entries :=
  e.entries.filterMap fun (name, value) => (keyOf? name).map fun key => (key, .text value)

theorem get?_setDefault (e : Environment) (name value : String) :
    (e.setDefault name value).get? name = some ((e.get? name).getD value) := by
  unfold setDefault
  split
  next h =>
    obtain ⟨v, hv⟩ := Option.isSome_iff_exists.mp h
    simp [hv]
  next h =>
    have hn : e.entries.lookup name = none := Option.not_isSome_iff_eq_none.mp h
    simp [get?, List.lookup_append, hn]

end Environment

end PoolGauge.Settings
