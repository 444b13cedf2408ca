import PoolGauge.Number.Binary64
import PoolGauge.Number.Radix
import PoolGauge.Settings.Basic
import PoolGauge.Text.Reader

/-!
# JSON

Reads a JSON text. Whole numbers that fit a word stay whole, all others become doubles. Of two
members with one name the later counts.
-/
namespace PoolGauge.Settings.Json

open Text

/-- The blanks between tokens. -/
def isSpace (c : Char) : Bool :=
  c == ' ' || c == '\t' || c == '\n' || c == '\r'

def spaces : Reader Unit :=
  Reader.skipWhile isSpace

/-- Takes a token and the blanks after it. -/
def token (c : Char) : Reader Unit :=
  Reader.exactly [c] <* spaces

/-! ## Numbers -/

/-- The digits of a number as far as they fit a word, and the power of ten to scale them by. -/
structure Mantissa where
  significand : Nat
  exponent : Int

namespace Mantissa

/-- Adds a digit, which stands after the point or before it. A digit that does not fit is lost;
if it stands before the point it still scales the number. -/
def addDigit (afterPoint : Bool) (m : Mantissa) (digit : Nat) : Mantissa :=
  let grown := m.significand * 10 + digit
  if grown < UInt64.size then ⟨grown, if afterPoint then m.exponent - 1 else m.exponent⟩
  else ⟨m.significand, if afterPoint then m.exponent else m.exponent + 1⟩

/-- Adds digits up to the first that does not fit; the digits after it are lost as well. -/
def addDigits (afterPoint : Bool) : Mantissa → List Nat → Mantissa
  | m, [] => m
  | m, digit :: rest =>
    if m.significand * 10 + digit < UInt64.size then
      addDigits afterPoint (m.addDigit afterPoint digit) rest
    else if afterPoint then m
    else ⟨m.significand, m.exponent + (rest.length + 1)⟩

/-- The greatest power of ten that is a double. -/
def maxPower : Nat := 308

/-- The greatest power of ten in one step. -/
def greatPower : Float := Number.nearest (Nat.pow 10 maxPower) 1

/-- Divides by the greatest power of ten until the rest of the exponent is in reach; a number that
becomes zero stays zero. -/
def shrink : Nat → Float → Int → Float × Int
  | 0, x, exponent => (x, exponent)
  | steps + 1, x, exponent =>
    if -(maxPower : Int) ≤ exponent then (x, exponent)
    else if x == Number.nearest 0 1 then (x, 0)
    else shrink steps (x / greatPower) (exponent + maxPower)

/-- The double that the number stands for: the significand is rounded, then its product with or
quotient by a power of ten. There is none beyond the greatest double. -/
def toFloat? (m : Mantissa) : Option Float :=
  let (x, exponent) := shrink 4 (Number.nearest m.significand 1) m.exponent
  if exponent < -(maxPower : Int) then some (Number.nearest 0 1)
  else if exponent < 0 then some (x / Number.nearest (Nat.pow 10 (-exponent).toNat) 1)
  else if x == Number.nearest 0 1 ∧ maxPower < exponent.toNat then some x
  else if maxPower < exponent.toNat then none
  else
    let product := x * Number.nearest (Nat.pow 10 exponent.toNat) 1
    if product.isFinite then some product else none

end Mantissa

def digits : Reader (List Char) :=
  Reader.takeWhile1 Char.isDigit

/-- Takes the digits before the point, which start with a zero only if there is no other. -/
def wholeDigits : Reader (List Char) := do
  let row ← digits
  if row.length ≠ 1 ∧ row.head? = some '0' then failure else return row

def fractionDigits? : Reader (Option (List Char)) :=
  Reader.optional (Reader.exactly ['.'] *> digits)

def exponent? : Reader (Option Int) :=
  Reader.optional do
    let _ ← Reader.satisfy fun c => c == 'e' || c == 'E'
    let sign ← Reader.optional (Reader.satisfy fun c => c == '+' || c == '-')
    let size := (Number.readNat (← digits)).getD 0
    return if sign = some '-' then -(size : Int) else size

/-- The number with a sign and digits, whole if it has neither fraction nor exponent and fits a
word. A negative zero is a double. -/
def numberOf? (negative : Bool) (whole : List Char) (fraction : Option (List Char))
    (exponent : Option Int) : Option Setting :=
  let n := (Number.readNat whole).getD 0
  if fraction.isNone ∧ exponent.isNone ∧ !negative ∧ n < UInt64.size then some (.integer n)
  else if fraction.isNone ∧ exponent.isNone ∧ negative ∧ 0 < n ∧ n ≤ Number.signedBound then
    some (.integer (-n))
  else
    let before := Mantissa.addDigits false ⟨0, 0⟩ (whole.filterMap Number.digit?)
    let all := before.addDigits true ((fraction.getD []).filterMap Number.digit?)
    let scaled : Mantissa := { all with exponent := all.exponent + exponent.getD 0 }
    scaled.toFloat?.map fun x => .number (if negative then -x else x)

def number : Reader Setting := do
  let sign ← Reader.optional (Reader.exactly ['-'])
  let whole ← wholeDigits
  let fraction ← fractionDigits?
  let exponent ← exponent?
  match numberOf? sign.isSome whole fraction exponent with
  | some setting => return setting
  | none => failure

/-! ## Texts -/

/-- Takes the character of an escape by number: one code unit, or two of a surrogate pair. -/
def numberedCharacter : Reader Char := do
  let unit ← Number.takeHex 4
  if 0xD800 ≤ unit ∧ unit < 0xDC00 then
    Reader.exactly ['\\', 'u']
    let low ← Number.takeHex 4
    if 0xDC00 ≤ low ∧ low < 0xE000 then
      return Char.ofNat (0x10000 + (unit - 0xD800) * 0x400 + (low - 0xDC00))
    else failure
  else if 0xDC00 ≤ unit ∧ unit < 0xE000 then failure
  else return Char.ofNat unit

def escaped : Reader Char := do
  match ← Reader.next with
  | '"' => return '"'
  | '\\' => return '\\'
  | '/' => return '/'
  | 'b' => return '\x08'
  | 'f' => return '\x0c'
  | 'n' => return '\n'
  | 'r' => return '\r'
  | 't' => return '\t'
  | 'u' => numberedCharacter
  | _ => failure

/-- Takes a character of a text. Control characters have to be escaped. -/
def character : Reader Char := do
  match ← Reader.next with
  | '\\' => escaped
  | c => if c == '"' || c.toNat < 0x20 then failure else return c

def quoted : Reader String := do
  Reader.exactly ['"']
  let content ← Reader.many character
  Reader.exactly ['"']
  return String.ofList content

/-! ## Values -/

def word : Reader Setting :=
  (do Reader.exactly ['n', 'u', 'l', 'l']; return .nothing) <|>
    (do Reader.exactly ['t', 'r', 'u', 'e']; return .flag true) <|>
    (do Reader.exactly ['f', 'a', 'l', 's', 'e']; return .flag false)

def scalar : Reader Setting :=
  word <|> number <|> (do return .text (← quoted))

def listOf (value : Reader Setting) : Reader Setting := do
  token '['
  let items ← Reader.separated (value <* spaces) (token ',')
  Reader.exactly [']']
  return .list items

def memberOf (value : Reader Setting) : Reader (String × Setting) := do
  let name ← quoted <* spaces
  token ':'
  let setting ← value <* spaces
  return (name, setting)

def objectOf (value : Reader Setting) : Reader Setting := do
  token '\x7b'
  let members ← Reader.separated (memberOf value) (token ',')
  Reader.exactly ['\x7d']
  return .table (members.foldl (fun entries (name, setting) =>
    Entries.alter name (fun _ => setting) entries) [])

def maxDepth : Nat := 127

/-- Takes a value with lists and objects inside each other up to a depth. -/
def value : Nat → Reader Setting
  | 0 => scalar
  | depth + 1 => scalar <|> listOf (value depth) <|> objectOf (value depth)

def read (text : List Char) : Option Setting :=
  Reader.whole? (spaces *> value maxDepth <* spaces) text

end PoolGauge.Settings.Json
