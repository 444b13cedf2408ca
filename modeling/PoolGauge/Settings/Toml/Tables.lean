import PoolGauge.Settings.Basic

/-!
# Tables of TOML

A document fills a tree of tables step by step. A table can be opened by a header once, keys with
points only enter tables that such keys have made, and no key is given twice.
-/
namespace PoolGauge.Settings.Toml

/-- How a table has come about. -/
inductive Origin where
  /-- It is needed for a table below it. -/
  | implied
  /-- A header opens it. -/
  | header
  /-- A key with points leads through it. -/
  | dotted
deriving DecidableEq, Repr

/-- What a key of a document stands for: a value, a table, or a list of tables of which the last
one is open. -/
inductive Node where
  | value (setting : Setting)
  | table (origin : Origin) (entries : List (String × Node))
  | tables (closed : List (List (String × Node))) (last : List (String × Node))

abbrev Nodes : Type := List (String × Node)

namespace Nodes

/-- Changes what a key stands for, if the change is allowed. -/
def alter (key : String) (change : Option Node → Option Node) : Nodes → Option Nodes
  | [] => (change none).map fun node => [(key, node)]
  | (k, node) :: rest =>
    if k = key then (change (some node)).map fun node => (k, node) :: rest
    else (alter key change rest).map ((k, node) :: ·)

/-- Changes the entries of the table that a path leads to. Tables that are missing on the way are
implied, and of a list of tables the last one is entered. -/
def alterTable (change : Nodes → Option Nodes) : List String → Nodes → Option Nodes
  | [], entries => change entries
  | key :: rest, entries => entries.alter key fun
    | none => (alterTable change rest []).map (.table .implied)
    | some (.table origin below) => (alterTable change rest below).map (.table origin)
    | some (.tables closed last) => (alterTable change rest last).map (.tables closed)
    | some (.value _) => none

/-- Opens a table, which may be implied so far. -/
def openTable (parents : List String) (key : String) : Nodes → Option Nodes :=
  alterTable (alter key fun
    | none => some (.table .header [])
    | some (.table .implied below) => some (.table .header below)
    | some _ => none) parents

def openItem (parents : List String) (key : String) : Nodes → Option Nodes :=
  alterTable (alter key fun
    | none => some (.tables [] [])
    | some (.tables closed last) => some (.tables (closed ++ [last]) [])
    | some _ => none) parents

def insert (key : String) (setting : Setting) : Nodes → Option Nodes :=
  alter key fun
    | none => some (.value setting)
    | some _ => none

/-- Adds a value under a key with points inside a table of some origin. Tables on the way are made
or entered unless a header opened them, and the last one has to be made by such keys. -/
def insertBelow (setting : Setting) (key : String) :
    List String → Origin → Nodes → Option Nodes
  | [], origin, entries => if origin = .dotted then entries.insert key setting else none
  | parent :: rest, _, entries => entries.alter parent fun
    | none => (insertBelow setting key rest .dotted []).map (.table .dotted)
    | some (.table .header _) => none
    | some (.table origin below) =>
      (insertBelow setting key rest origin below).map (.table origin)
    | some _ => none

/-- Adds a value under a key, which has the names before its points as parents. -/
def assign (parents : List String) (key : String) (setting : Setting) (entries : Nodes) :
    Option Nodes :=
  match parents with
  | [] => entries.insert key setting
  | _ => insertBelow setting key parents .header entries

end Nodes

mutual

def Node.toSetting : Node → Setting
  | .value setting => setting
  | .table _ entries => .table (entriesToSettings entries)
  | .tables closed last => .list (tablesToSettings closed ++ [.table (entriesToSettings last)])

def entriesToSettings : List (String × Node) → Entries
  | [] => []
  | entry :: rest => entryToSetting entry :: entriesToSettings rest

def entryToSetting : String × Node → String × Setting
  | (key, node) => (key, node.toSetting)

def tablesToSettings : List (List (String × Node)) → List Setting
  | [] => []
  | entries :: rest => .table (entriesToSettings entries) :: tablesToSettings rest

end

end PoolGauge.Settings.Toml
