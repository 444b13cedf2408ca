import PoolGauge.Number.Whole
import PoolGauge.Number.Binary64

/-!
# Reading doubles

A decimal number with an optional sign, fraction and exponent, or one of the words for infinity
and for an undefined value in any case.
-/
namespace PoolGauge.Number

/-- An exact decimal number `significand * 10 ^ exponent`. -/
structure Scientific where
  significand : Nat
  exponent : Int
deriving DecidableEq, Repr

namespace Scientific

/-- The double nearest to the number. Numbers whose size is out of every double's reach are
settled by their magnitude, so that no huge power is formed. -/
def toFloat (x : Scientific) : Float :=
  let magnitude : Int := ((decimal x.significand).length : Int) + x.exponent
  if x.significand = 0 ∨ magnitude < -400 then nearest 0 1
  else if 400 < magnitude then Float.ofBits infinityBits.toUInt64
  else if 0 ≤ x.exponent then nearest (x.significand * Nat.pow 10 x.exponent.toNat) 1
  else nearest x.significand (Nat.pow 10 (-x.exponent).toNat)

end Scientific

private def isDecimalDigit (c : Char) : Bool := (digit? c).isSome

/-- Reads the exponent that follows the letter: an optional sign and at least one digit. -/
def readExponent (text : List Char) : Option Int :=
  match text with
  | '-' :: rest => (readNat rest).map fun n => -(n : Int)
  | '+' :: rest => (readNat rest).map fun n => (n : Int)
  | _ => (readNat text).map fun n => (n : Int)

/-- Reads a number without sign: digits with an optional point, at least one digit in all, then
an optional exponent. -/
def readScientific (text : List Char) : Option Scientific := do
  let whole := text.takeWhile isDecimalDigit
  let afterWhole := text.dropWhile isDecimalDigit
  let (fraction, afterFraction) := match afterWhole with
    | '.' :: rest => (rest.takeWhile isDecimalDigit, rest.dropWhile isDecimalDigit)
    | _ => ([], afterWhole)
  let significand ← readNat (whole ++ fraction)
  let exponent ← match afterFraction with
    | [] => some 0
    | c :: rest => if c = 'e' ∨ c = 'E' then readExponent rest else none
  some ⟨significand, exponent - fraction.length⟩

def readUnsignedFloat (text : List Char) : Option Float :=
  let word := text.map Char.toLower
  if word = ['i', 'n', 'f'] ∨ word = ['i', 'n', 'f', 'i', 'n', 'i', 't', 'y'] then
    some (Float.ofBits infinityBits.toUInt64)
  else if word = ['n', 'a', 'n'] then some (Float.ofBits 0x7FF8000000000000)
  else (readScientific text).map Scientific.toFloat

def readFloat (text : List Char) : Option Float :=
  match text with
  | '-' :: rest => (readUnsignedFloat rest).map Float.neg
  | '+' :: rest => readUnsignedFloat rest
  | _ => readUnsignedFloat text

end PoolGauge.Number
