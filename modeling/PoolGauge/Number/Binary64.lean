/-!
# Rounding to double precision

The double nearest to a quotient of natural numbers, a tie going to the even neighbour. The
rounding is done on exact quotients; only the last step packs bits.
-/
namespace PoolGauge.Number

/-- The quotient rounded to the nearest whole number, a tie to the even one. -/
def divNearestEven (num den : Nat) : Nat :=
  let q := num / den
  let twice := 2 * (num % den)
  if twice < den then q
  else if den < twice then q + 1
  else q + q % 2

/-- Whether `2 ^ e` is at most `num / den`. -/
def powerLe (e : Int) (num den : Nat) : Bool :=
  if 0 ≤ e then Nat.pow 2 e.toNat * den ≤ num else den ≤ num * Nat.pow 2 (-e).toNat

/-- The exponent of the greatest power of two that is at most `num / den`. -/
def floorLog2 (num den : Nat) : Int :=
  let guess : Int := (Nat.log2 num : Int) - (Nat.log2 den : Int)
  if powerLe guess num den then guess else guess - 1

/-- What every fraction of 52 bits is below; the bit above it is set in every normal significand. -/
def fractionBound : Nat := 0x10000000000000

def infinityBits : Nat := 0x7FF0000000000000

/-- The bits of the double nearest to `num / den`. The significand keeps 53 bits, fewer below the
smallest normal number, and carries into the exponent by itself. -/
def nearestBits (num den : Nat) : Nat :=
  if num = 0 then 0
  else
    let e : Int := max (floorLog2 num den - 52) (-1074)
    let significand :=
      if 0 ≤ e then divNearestEven num (den * Nat.pow 2 e.toNat)
      else divNearestEven (num * Nat.pow 2 (-e).toNat) den
    min ((e + 1074).toNat * fractionBound + significand) infinityBits

def nearest (num den : Nat) : Float :=
  Float.ofBits (nearestBits num den).toUInt64

def ofWord (n : UInt64) : Float :=
  nearest n.toNat 1

end PoolGauge.Number
