import PoolGauge.Failure
import PoolGauge.Text.Quoted
import PoolGauge.Text.Split
import PoolGauge.Vdev.Tree

/-!
# The status table of a pool

The table shows the vdev tree by indentation, a tab and two spaces for each level. Its first row
is the root; a later row on the root's level opens a section, a branch of its own below the root.
After the table a line may count the errors in the data.
-/
namespace PoolGauge

structure PoolStatus where
  vdevs : VdevTree
  errorCount : UInt64
deriving DecidableEq, Repr

/-- Why a status text cannot be understood. -/
inductive StatusFault where
  | missingTable
  | missingRoot
  | malformedRow (line : List Char)
  | wrongRoot (expected found : String)
  | unknownSection (label : String)
  | detachedRow (label : String)
deriving DecidableEq, Repr

private def shown (text : String) : String := String.ofList (Text.quoted text.toList)

def StatusFault.message : StatusFault → String
  | missingTable => "missing config table"
  | missingRoot => "config table has no root vdev"
  | malformedRow line => "malformed row " ++ String.ofList (Text.quoted line)
  | wrongRoot expected found => "expected root vdev " ++ shown expected ++ ", found " ++ shown found
  | unknownSection label => "unknown section " ++ shown label
  | detachedRow label => "vdev " ++ shown label ++ " is nested without a parent"

def StatusFault.failure (pool : String) (fault : StatusFault) : Failure :=
  .parse ("zpool status for " ++ pool) fault.message

/-- A row of the table. The root's level is zero; a missing or unreadable count is zero. -/
structure StatusRow where
  depth : Nat
  label : String
  state : Option String
  errors : VdevStats
deriving DecidableEq, Repr

namespace StatusRow

def count (cell : Option (List Char)) : UInt64 :=
  (cell.bind Number.readWord).getD 0

/-- Reads a row: a tab, the indentation in spaces, then a label and up to four more words. -/
def read? : List Char → Option StatusRow
  | '\t' :: rest =>
    match Text.words rest with
    | [] => none
    | label :: cells => some
      { depth := (rest.takeWhile (· == ' ')).length / 2
        label := String.ofList label
        state := cells[0]?.map String.ofList
        errors :=
          { readErrors := count cells[1]?
            writeErrors := count cells[2]?
            checksumErrors := count cells[3]? } }
  | _ => none

def read (line : List Char) : Except StatusFault StatusRow :=
  match read? line with
  | some row => .ok row
  | none => .error (.malformedRow line)

def health (row : StatusRow) : VdevState :=
  match row.state with
  | some word => .ofWord word
  | none => .unknown

end StatusRow

/-- The tree after some rows of the table, with the path to the newest vdev: at each level the
index of the newest vdev there. -/
structure StatusTable where
  tree : VdevTree
  path : List Nat
deriving DecidableEq, Repr

namespace StatusTable

def ofRoot (pool : String) (row : StatusRow) : Except StatusFault StatusTable :=
  if row.depth = 0 ∧ row.label = pool then
    .ok ⟨.single pool row.health row.errors, [0]⟩
  else .error (.wrongRoot pool row.label)

/-- The table with a vdev more, below the newest vdev one level above it. -/
def attach? (t : StatusTable) (depth parent : Nat) (label : String) (kind : VdevKind)
    (state : VdevState) (errors : VdevStats) : Option StatusTable :=
  (t.tree.push? parent label kind state errors).map fun tree =>
    ⟨tree, t.path.take depth ++ [t.tree.size]⟩

/-- The table with a section more; a section without a health word has the root's. -/
def addSection (t : StatusTable) (row : StatusRow) : Except StatusFault StatusTable :=
  match VdevKind.ofSection? row.label with
  | none => .error (.unknownSection row.label)
  | some kind =>
    let state := if row.state.isSome then row.health else t.tree.root.state
    match t.attach? 0 0 row.label kind state row.errors with
    | some table => .ok table
    | none => .error (.detachedRow row.label)

def addRow (t : StatusTable) (row : StatusRow) : Except StatusFault StatusTable :=
  match row.depth with
  | 0 => t.addSection row
  | above + 1 =>
    let attached := do
      let parent ← t.path[above]?
      t.attach? row.depth parent row.label (.ofLabel row.label) row.health row.errors
    match attached with
    | some table => .ok table
    | none => .error (.detachedRow row.label)

def addLine (t : StatusTable) (line : List Char) : Except StatusFault StatusTable :=
  StatusRow.read line >>= t.addRow

end StatusTable

namespace PoolStatus

def isTitle (line : List Char) : Bool :=
  match Text.words line with
  | first :: second :: _ => String.ofList first == "NAME" && String.ofList second == "STATE"
  | _ => false

def isBlankLine (line : List Char) : Bool :=
  line.all Text.isBlank

/-- The text after the word that announces the error count, on a line that starts with it. -/
def errorSummary? (line : List Char) : Option (List Char) :=
  let text := Text.trim line
  let word := ['e', 'r', 'r', 'o', 'r', 's', ':']
  if word.isPrefixOf text then some (text.drop word.length) else none

/-- The number of errors in a summary; one that does not start with a number reports none. -/
def readErrorCount (summary : List Char) : UInt64 :=
  ((Text.words summary).head?.bind Number.readWord).getD 0

/-- The error count on the first of the lines that has one. -/
def errorCountOf (lines : List (List Char)) : UInt64 :=
  ((lines.findSome? errorSummary?).map readErrorCount).getD 0

/-- The lines after the first one that has the titles of the table. -/
def afterTitle? (lines : List (List Char)) : Option (List (List Char)) :=
  match lines.dropWhile (!isTitle ·) with
  | [] => none
  | _ :: rest => some rest

/-- Reads the lines below the titles: blank ones, the rows up to the next blank line, and what
follows it. -/
def ofLines (pool : String) (lines : List (List Char)) : Except StatusFault PoolStatus :=
  match lines.dropWhile isBlankLine with
  | [] => .error .missingRoot
  | first :: rest => do
    let root ← StatusRow.read first >>= StatusTable.ofRoot pool
    let table ← (rest.takeWhile (!isBlankLine ·)).foldlM StatusTable.addLine root
    return ⟨table.tree, errorCountOf ((rest.dropWhile (!isBlankLine ·)).drop 1)⟩

def parse (pool output : String) : Except StatusFault PoolStatus :=
  match afterTitle? (Text.lines output.toList) with
  | none => .error .missingTable
  | some lines => ofLines pool lines

def read (pool output : String) : Except Failure PoolStatus :=
  (parse pool output).mapError (StatusFault.failure pool)

end PoolStatus

end PoolGauge
