/-!
# Settings

The values that configuration sources give, and how one source is laid over another.
-/
namespace PoolGauge.Settings

inductive Setting where
  | nothing
  | flag (value : Bool)
  | integer (value : Int)
  | number (value : Float)
  | text (value : String)
  | list (items : List Setting)
  | table (entries : List (String × Setting))
deriving Repr, Inhabited

abbrev Entries : Type := List (String × Setting)

/-- Changes the entry with a key, which is nothing if it is missing. -/
def Entries.alter (key : String) (change : Setting → Setting) : Entries → Entries
  | [] => [(key, change .nothing)]
  | (k, setting) :: rest =>
    if k = key then (k, change setting) :: rest
    else (k, setting) :: Entries.alter key change rest

namespace Setting

/-- The entries of a table; other settings have none. -/
def entries : Setting → Entries
  | table entries => entries
  | _ => []

def items : Setting → List Setting
  | list items => items
  | _ => []

mutual

/-- The setting laid over another one. A table is merged into the other one's entries, and any
other setting replaces it. -/
def mergeOnto : Setting → Setting → Setting
  | table entries, old => table (entriesOnto entries old.entries)
  | nothing, _ => nothing
  | flag value, _ => flag value
  | integer value, _ => integer value
  | number value, _ => number value
  | text value, _ => text value
  | list items, _ => list items

def entriesOnto : Entries → Entries → Entries
  | [], old => old
  | entry :: rest, old => entriesOnto rest (entryOnto entry old)

def entryOnto : String × Setting → Entries → Entries
  | (key, setting), old => old.alter key setting.mergeOnto

end

end Setting

end PoolGauge.Settings
