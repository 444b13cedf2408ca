import PoolGauge.Settings.Toml.Scalar
import PoolGauge.Settings.Toml.Tables

/-!
# TOML

Reads a TOML text: a line opens a table, gives a key its value, or does nothing.
-/
namespace PoolGauge.Settings.Toml

open Text

/-- A key: the names before its points and the last one. -/
structure Key where
  parents : List String
  last : String
deriving DecidableEq, Repr

inductive Statement where
  | openTable (key : Key)
  | openItem (key : Key)
  | assign (key : Key) (setting : Setting)

def name : Reader String := do
  let row ← Reader.takeWhile1 (fun c => c.isAlphanum || c == '_' || c == '-') <|>
    escapedText <|> literalText
  return String.ofList row

def key : Reader Key := do
  let first ← name <* spaces
  let others ← Reader.many (Reader.exactly ['.'] *> spaces *> name <* spaces)
  match (first :: others).reverse with
  | last :: parents => return ⟨parents.reverse, last⟩
  | [] => failure

def assignmentOf (value : Reader Setting) : Reader (Key × Setting) := do
  let key ← key
  Reader.exactly ['='] <* spaces
  return (key, ← value)

/-- Takes a list of values, which may go over several lines and end in a comma. -/
def listOf (value : Reader Setting) : Reader Setting := do
  let comma : Reader Unit := filler *> Reader.exactly [','] <* filler
  Reader.exactly ['['] <* filler
  let items ← Reader.separated value comma
  if !items.isEmpty then
    let _ ← Reader.optional comma
  filler
  Reader.exactly [']']
  return .list items

/-- Takes a table inside a value, which may go over several lines and end in a comma. -/
def tableOf (value : Reader Setting) : Reader Setting := do
  let comma : Reader Unit := filler *> Reader.exactly [','] <* filler
  Reader.exactly ['\x7b'] <* filler
  let assignments ← Reader.separated (assignmentOf value) comma
  if !assignments.isEmpty then
    let _ ← Reader.optional comma
  filler
  Reader.exactly ['\x7d']
  match assignments.foldlM (fun entries (key, setting) =>
      Nodes.assign key.parents key.last setting entries) [] with
  | some entries => return .table (entriesToSettings entries)
  | none => failure

def maxDepth : Nat := 80

/-- Takes a value with lists and tables inside each other up to a depth. -/
def value : Nat → Reader Setting
  | 0 => scalar
  | depth + 1 => scalar <|> listOf (value depth) <|> tableOf (value depth)

def statement : Reader Statement :=
  (do Reader.exactly ['[', '['] <* spaces
      let key ← key
      Reader.exactly [']', ']']
      return .openItem key) <|>
    (do Reader.exactly ['['] <* spaces
        let key ← key
        Reader.exactly [']']
        return .openTable key) <|>
    (do let (key, setting) ← assignmentOf (value maxDepth)
        return .assign key setting)

def line : Reader (Option Statement) := do
  spaces
  let found ← Reader.optional statement
  restOfLine
  return found

def lines : Reader (List Statement) := do
  let first ← line
  let others ← Reader.many (newline *> line)
  return (first :: others).filterMap id

structure Document where
  entries : Nodes
  path : List String

def Document.step (d : Document) : Statement → Option Document
  | .openTable key =>
    (d.entries.openTable key.parents key.last).map fun entries =>
      ⟨entries, key.parents ++ [key.last]⟩
  | .openItem key =>
    (d.entries.openItem key.parents key.last).map fun entries =>
      ⟨entries, key.parents ++ [key.last]⟩
  | .assign key setting =>
    (d.entries.alterTable (Nodes.assign key.parents key.last setting) d.path).map fun entries =>
      { d with entries }

def read (text : List Char) : Option Setting := do
  let statements ← Reader.whole? lines text
  let document ← statements.foldlM Document.step ⟨[], []⟩
  return .table (entriesToSettings document.entries)

end PoolGauge.Settings.Toml
