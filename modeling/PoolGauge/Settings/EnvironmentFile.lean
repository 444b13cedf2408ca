import PoolGauge.Settings.Environment
import PoolGauge.Text.Alphanumeric
import PoolGauge.Text.Blank
import PoolGauge.Text.Reader

/-!
# Environment files

Assignments to variables, one on a line; a value in quotes may go over several lines. Variables
that have a value keep it, and the first malformed line ends the file.
-/
namespace PoolGauge.Settings.EnvironmentFile

open Text

/-! ## Lines -/

/-- Where a line may end: outside quotes, unless the last character was a lone blank or a
backslash. -/
inductive LineMode where
  | plain
  | blank
  | escape
  | single
  | singleEscape
  | double
  | doubleEscape
deriving DecidableEq, Repr

namespace LineMode

/-- The mode at a character that means nothing by itself. -/
def outside (c : Char) : LineMode :=
  match c with
  | '\\' => .escape
  | '"' => .double
  | '\'' => .single
  | _ => .plain

/-- The mode after a character. A number sign after a lone blank begins a comment, which has no
mode. -/
def next? (mode : LineMode) (c : Char) : Option LineMode :=
  match mode with
  | .plain =>
    some (if isBlank c && c != '\n' && c != '\r' then .blank else outside c)
  | .blank => if c = '#' then none else some (outside c)
  | .escape => some .plain
  | .single => some (if c = '\\' then .singleEscape else if c = '\'' then .plain else .single)
  | .singleEscape => some .single
  | .double => some (if c = '\\' then .doubleEscape else if c = '"' then .plain else .double)
  | .doubleEscape => some .double

/-- The characters before a comment, and the mode at the end if there is no comment. -/
def scan : LineMode → List Char → List Char × Option LineMode
  | mode, [] => ([], some mode)
  | mode, c :: rest =>
    match mode.next? c with
    | none => ([], none)
    | some mode =>
      let (before, last) := mode.scan rest
      (c :: before, last)

end LineMode

/-- The pieces of a text that end with a newline, and what follows the last newline. -/
def rows (text : List Char) : List (List Char) :=
  text.foldr (fun c rows =>
    if c = '\n' then ['\n'] :: rows
    else match rows with
      | [] => [[c]]
      | row :: rest => (c :: row) :: rest) []

def withoutEnding (row : List Char) : List Char :=
  match row.reverse with
  | '\n' :: '\r' :: rest => rest.reverse
  | '\n' :: rest => rest.reverse
  | _ => row

/-- The lines that rows make, with what rows before them left open. A line is nothing if the text
ends inside it. -/
def linesFrom : List Char → LineMode → List (List Char) → List (Option (List Char))
  | _, mode, [] => if mode = .plain then [] else [none]
  | pending, mode, row :: rest =>
    if (trimStart (pending ++ row)).head? = some '#' then some [] :: linesFrom [] .plain rest
    else
      match mode.scan row with
      | (before, none) => some (pending ++ before) :: linesFrom [] .plain rest
      | (_, some .plain) => some (withoutEnding (pending ++ row)) :: linesFrom [] .plain rest
      | (_, some unfinished) => linesFrom (pending ++ row) unfinished rest

def lines (text : List Char) : List (Option (List Char)) :=
  linesFrom [] .plain (rows text)

/-! ## Values -/

/-- Where a character of a value stands: outside or inside double quotes, after a backslash there,
inside single quotes, in the name of a variable, in such a name between braces, or after the
value. -/
inductive ValueMode where
  | bare (quoted : Bool)
  | escape (quoted : Bool)
  | single
  | name (quoted : Bool) (read : List Char)
  | braced (quoted : Bool) (read : List Char)
  | ended
  | comment
deriving DecidableEq, Repr

def valueOf (e : Environment) (name : List Char) : List Char :=
  ((e.get? (String.ofList name)).getD "").toList

def openStep (quoted : Bool) (written : List Char) (c : Char) : ValueMode × List Char :=
  if c = '$' then (.name quoted [], written)
  else if c = '\\' then (.escape quoted, written)
  else if c = '"' then (.bare (!quoted), written)
  else if quoted then (.bare true, written ++ [c])
  else if c = '\'' then (.single, written)
  else if c = ' ' ∨ c = '\t' then (.ended, written)
  else (.bare false, written ++ [c])

/-- The character that stands for itself or for a newline after a backslash. -/
def escaped? (c : Char) : Option Char :=
  if c = 'n' then some '\n'
  else if c = '\\' ∨ c = '\'' ∨ c = '"' ∨ c = '$' ∨ c = ' ' then some c
  else none

/-- A character of a value. A name ends at the first character that is no letter or digit, and
that character is written as it is, even a quote, unless it begins another name. -/
def valueStep (e : Environment) (state : ValueMode × List Char) (c : Char) :
    Option (ValueMode × List Char) :=
  let (mode, written) := state
  match mode with
  | .bare quoted => some (openStep quoted written c)
  | .escape quoted => (escaped? c).map fun c => (.bare quoted, written ++ [c])
  | .single => some (if c = '\'' then (.bare false, written) else (.single, written ++ [c]))
  | .name quoted read =>
    if isAlphanumeric c then some (.name quoted (read ++ [c]), written)
    else if c = '\x7b' ∧ read = [] then some (.braced quoted [], written)
    else
      let written := written ++ valueOf e read
      some (if c = '$' then (.name quoted [], written) else (.bare quoted, written ++ [c]))
  | .braced quoted read =>
    some (if c = '\x7d' then (.bare quoted, written ++ valueOf e read)
      else (.braced quoted (read ++ [c]), written))
  | .ended =>
    if c = ' ' ∨ c = '\t' then some (.ended, written)
    else if c = '#' then some (.comment, written)
    else none
  | .comment => some (.comment, written)

/-- The value of a text, unless quotes or braces are left open. -/
def readValue (e : Environment) (text : List Char) : Option (List Char) := do
  let (mode, written) ← text.foldlM (valueStep e) (.bare false, [])
  match mode with
  | .bare false | .escape false | .ended | .comment => some written
  | .name false read => some (written ++ valueOf e read)
  | _ => none

/-! ## Assignments -/

def key : Reader (List Char) := do
  let first ← Reader.satisfy fun c => c.isAlpha || c == '_'
  let others ← Reader.takeWhile fun c => c.isAlphanum || c == '_' || c == '.'
  return first :: others

/-- Takes a name and the equality sign after it. A word for export may stand before the name,
unless it is the name itself. -/
def target : Reader String := do
  let blanks := Reader.skipWhile isBlank
  let first ← key <* blanks
  if first = "export".toList then
    match ← Reader.optional (Reader.exactly ['=']) with
    | some _ => return "export"
    | none =>
      let name ← key <* blanks
      Reader.exactly ['=']
      return String.ofList name
  else
    Reader.exactly ['=']
    return String.ofList first

/-- What a line does: nothing, or giving a variable a value. A malformed line has no meaning. -/
def readLine (e : Environment) (line : List Char) : Option (Option (String × String)) := do
  let line := trim line
  if line.isEmpty || line.head? = some '#' then some none
  else
    let (name, rest) ← target line
    let text := trimStart rest
    if text.isEmpty || text.head? = some '#' then some (some (name, ""))
    else
      let value ← readValue e text
      some (some (name, String.ofList value))

/-- The environment after lines, up to the first malformed one. No environment can hold a value
with a null character. -/
def applyLines : Environment → List (Option (List Char)) → Option Environment
  | e, [] => some e
  | e, none :: _ => some e
  | e, some line :: rest =>
    match readLine e line with
    | none => some e
    | some none => applyLines e rest
    | some (some (name, value)) =>
      if (e.get? name).isNone && value.contains '\x00' then none
      else applyLines (e.setDefault name value) rest

def apply (e : Environment) (text : List Char) : Option Environment :=
  applyLines e (lines text)

end PoolGauge.Settings.EnvironmentFile
