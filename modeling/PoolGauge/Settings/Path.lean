import PoolGauge.Number.Whole
import PoolGauge.Settings.Basic
import PoolGauge.Text.Reader

/-!
# Paths

The key of an entry at the root of a source may be a path into the tree: names with points between
them, and positions in brackets. A key that is no path names an entry as it stands.
-/
namespace PoolGauge.Settings

open Text

/-- A step into a table or into a list. A negative position counts from the end. -/
inductive Step where
  | key (name : String)
  | position (index : Int)
deriving DecidableEq, Repr

def isNameChar (c : Char) : Bool :=
  c.isAlphanum || c == '_' || c == '-'

namespace Step

def maxPosition : Nat := Number.signedBound - 1

def readName : Reader Step := do
  return .key (String.ofList (← Reader.takeWhile1 isNameChar))

def readPosition : Reader Step := do
  let blank (c : Char) : Bool := c == ' ' || c == '\t'
  Reader.skipWhile blank
  let sign ← Reader.optional (Reader.exactly ['-'])
  let digits ← Reader.takeWhile1 Char.isDigit
  Reader.skipWhile blank
  match Number.readNat digits with
  | some n =>
    if sign.isNone && n ≤ maxPosition then return .position n
    else if sign.isSome && n ≤ maxPosition + 1 then return .position (-n)
    else failure
  | none => failure

def readNext : Reader Step :=
  (Reader.exactly ['.'] *> readName) <|>
    (Reader.exactly ['['] *> readPosition <* Reader.exactly [']'])

def readPath : Reader (List Step) := do
  let first ← readName
  let others ← Reader.many readNext
  return first :: others

/-- The path that a key at the root stands for. -/
def pathOf (key : String) : List Step :=
  (Reader.whole? readPath key.toList).getD [.key key]

end Step

/-- Changes the item at a position; the list is filled up with nothing so far. -/
def alterItem (index : Int) (change : Setting → Setting) (items : List Setting) :
    List Setting :=
  let fromStart := if 0 ≤ index then index else items.length + index
  let missing := (-fromStart).toNat
  let place := fromStart.toNat
  let filled := List.replicate missing .nothing ++ items ++
    List.replicate (place + 1 - items.length - missing) .nothing
  filled.modify place change

/-- Changes the setting at the end of a path. What stands in the way gives place to the table or
list that the path needs. -/
def Setting.alter (change : Setting → Setting) : List Step → Setting → Setting
  | [], setting => change setting
  | .key name :: rest, setting => .table (setting.entries.alter name (Setting.alter change rest))
  | .position index :: rest, setting =>
    .list (alterItem index (Setting.alter change rest) setting.items)

/-- The tree of settings with a source laid over it. -/
def Setting.layer (tree : Setting) (source : Entries) : Setting :=
  source.foldl (fun tree (key, setting) => tree.alter setting.mergeOnto (Step.pathOf key)) tree

end PoolGauge.Settings
