import PoolGauge.Number.Binary64
import PoolGauge.Number.Whole

/-!
# Shortest decimal text of a double

The fewest decimal digits that read back to the same double, the nearest of those, always in
positional notation.
-/
namespace PoolGauge.Number

/-- A finite positive double in exact form: its value and the ends of the interval of reals that
round to it, all over the same denominator, and whether the ends belong to the interval. -/
structure Interval where
  low : Nat
  value : Nat
  high : Nat
  den : Nat
  closed : Bool

/-- The exact form of the finite positive double with these bits. -/
def Interval.ofBits (bits : Nat) : Interval :=
  let fraction : Nat := bits % fractionBound
  let biased : Nat := bits / fractionBound
  let significand : Nat := if biased = 0 then fraction else fraction + fractionBound
  let exponent : Int := if biased = 0 then -1074 else (biased : Int) - 1075
  let narrow := fraction = 0 ∧ 1 < biased
  let up := Nat.pow 2 exponent.toNat
  { low := (4 * significand - if narrow then 1 else 2) * up
    value := 4 * significand * up
    high := (4 * significand + 2) * up
    den := 4 * Nat.pow 2 (-exponent).toNat
    closed := significand % 2 = 0 }

/-- Whether `point * 10 ^ exponent` rounds to the double. -/
def Interval.contains (x : Interval) (point : Nat) (exponent : Int) : Bool :=
  let scaled := point * Nat.pow 10 exponent.toNat * x.den
  let unit := Nat.pow 10 (-exponent).toNat
  if x.closed then x.low * unit ≤ scaled && scaled ≤ x.high * unit
  else x.low * unit < scaled && scaled < x.high * unit

/-- An exponent whose power of ten is above the value, by less than six decimal places. -/
def Interval.ceiling (x : Interval) : Int :=
  ((Nat.log2 x.value : Int) - (Nat.log2 x.den : Int)) * 1233 / 4096 + 3

/-- A row of digits in front of a power of ten. -/
structure Digits where
  number : Nat
  exponent : Int
deriving DecidableEq, Repr

/-- Of the two neighbours of the value on the grid of `10 ^ exponent`, one that rounds to the
double: the nearer if both do, the upper one on a tie. -/
def Interval.onGrid? (x : Interval) (exponent : Int) : Option Digits :=
  let num := x.value * Nat.pow 10 (-exponent).toNat
  let den := x.den * Nat.pow 10 exponent.toNat
  let below := num / den
  let lowerFits := x.contains below exponent
  let upperFits := x.contains (below + 1) exponent
  if lowerFits && (!upperFits || 2 * (num % den) < den) then some ⟨below, exponent⟩
  else if upperFits then some ⟨below + 1, exponent⟩
  else none

/-- The first grid, from coarse to fine, with a point that rounds to the double. -/
def Interval.firstHit (x : Interval) : Nat → Int → Digits
  | 0, exponent => ⟨x.value * Nat.pow 10 (-exponent).toNat / x.den, exponent⟩
  | fuel + 1, exponent => (x.onGrid? exponent).getD (x.firstHit fuel (exponent - 1))

/-- The shortest digits of the finite positive double with these bits. Seventeen digits always
suffice, and the search starts less than six places above them. -/
def shortestDigits (bits : Nat) : Digits :=
  let x := Interval.ofBits bits
  x.firstHit 23 x.ceiling

/-- Writes digits in positional notation, without a fraction if there is none. -/
def Digits.positional (d : Digits) : List Char :=
  let row := decimal d.number
  if 0 ≤ d.exponent then row ++ List.replicate d.exponent.toNat '0'
  else
    let places := (-d.exponent).toNat
    let padded := List.replicate (places + 1 - row.length) '0' ++ row
    padded.take (padded.length - places) ++ '.' :: padded.drop (padded.length - places)

def floatText (x : Float) : List Char :=
  let bits := x.toBits.toNat
  let magnitude := bits % signedBound
  let sign := if bits = magnitude then [] else ['-']
  if magnitude = 0 then sign ++ ['0']
  else if magnitude < infinityBits then sign ++ (shortestDigits magnitude).positional
  else if magnitude = infinityBits then sign ++ ['i', 'n', 'f']
  else ['N', 'a', 'N']

end PoolGauge.Number
