/-!
# Readers

A reader takes a value from the front of a text and leaves the rest, or refuses the text.
-/
namespace PoolGauge.Text

abbrev Reader (α : Type) : Type := StateT (List Char) Option α

namespace Reader

variable {α β : Type}

def next : Reader Char := fun text =>
  match text with
  | [] => none
  | c :: rest => some (c, rest)

def satisfy (accepts : Char → Bool) : Reader Char := fun text =>
  match text with
  | [] => none
  | c :: rest => if accepts c then some (c, rest) else none

def exactly (expected : List Char) : Reader Unit := fun text =>
  if expected.isPrefixOf text then some ((), text.drop expected.length) else none

/-- Takes the characters up to the first that is not in the class. -/
def takeWhile (accepts : Char → Bool) : Reader (List Char) := fun text =>
  some (text.takeWhile accepts, text.dropWhile accepts)

def takeWhile1 (accepts : Char → Bool) : Reader (List Char) := do
  let first ← satisfy accepts
  let others ← takeWhile accepts
  return first :: others

def skipWhile (accepts : Char → Bool) : Reader Unit := fun text =>
  some ((), text.dropWhile accepts)

def count (accepts : Char → Bool) : Nat → Reader (List Char)
  | 0 => return []
  | n + 1 => do
    let first ← satisfy accepts
    let others ← count accepts n
    return first :: others

def optional (reader : Reader α) : Reader (Option α) := fun text =>
  match reader text with
  | none => some (none, text)
  | some (a, rest) => some (some a, rest)

/-- Takes values as long as there are some and each takes at least a character. -/
def manyFrom (reader : Reader α) (text : List Char) : List α × List Char :=
  match reader text with
  | none => ([], text)
  | some (a, rest) =>
    if rest.length < text.length then
      let (others, rest) := manyFrom reader rest
      (a :: others, rest)
    else ([], text)
termination_by text.length

def many (reader : Reader α) : Reader (List α) := fun text =>
  some (manyFrom reader text)

/-- Takes values with something between them, maybe none. -/
def separated (reader : Reader α) (separator : Reader β) : Reader (List α) := do
  match ← optional reader with
  | none => return []
  | some first =>
    let others ← many (separator *> reader)
    return first :: others

/-- The value that a reader takes from a whole text. -/
def whole? (reader : Reader α) (text : List Char) : Option α :=
  match reader text with
  | some (a, []) => some a
  | _ => none

end Reader

end PoolGauge.Text
