import PoolGauge.Number.Whole
import PoolGauge.Number.Binary64

/-!
# Durations and points in time

Both are exact to the nanosecond. A duration is written in the largest unit that it fills, with
as many decimals as it needs.
-/
namespace PoolGauge

structure Duration where
  nanoseconds : Nat
deriving DecidableEq, Repr

namespace Duration

def ofParts (seconds nanoseconds : Nat) : Duration :=
  ⟨seconds * 1000000000 + nanoseconds⟩

def ofMilliseconds (n : Nat) : Duration :=
  ⟨n * 1000000⟩

def wholeSeconds (d : Duration) : Nat :=
  d.nanoseconds / 1000000000

/-- The seconds as a double: the whole ones and the fraction are rounded first, then their sum. -/
def seconds (d : Duration) : Float :=
  Number.nearest d.wholeSeconds 1 + Number.nearest (d.nanoseconds % 1000000000) 1000000000

/-- Writes a count of a unit with the decimals it needs; `scale` is the number of nanoseconds in
the unit, a power of ten with `places` zeros. -/
def inUnit (nanoseconds scale places : Nat) (unit : String) : List Char :=
  let whole := Number.decimal (nanoseconds / scale)
  let fraction := Number.decimal (nanoseconds % scale)
  let padded := List.replicate (places - fraction.length) '0' ++ fraction
  let shown := (padded.reverse.dropWhile (· == '0')).reverse
  let decimals := if shown.isEmpty then [] else '.' :: shown
  whole ++ decimals ++ unit.toList

def text (d : Duration) : String :=
  let n := d.nanoseconds
  String.ofList <|
    if 1000000000 ≤ n then inUnit n 1000000000 9 "s"
    else if 1000000 ≤ n then inUnit n 1000000 6 "ms"
    else if 1000 ≤ n then inUnit n 1000 3 "µs"
    else Number.decimal n ++ ['n', 's']

end Duration

/-- A point in time, in nanoseconds since the epoch; it may lie before the epoch. -/
structure Timestamp where
  nanoseconds : Int
deriving DecidableEq, Repr

/-- The seconds since the epoch as a double, zero for a time before it. -/
def Timestamp.seconds (t : Timestamp) : Float :=
  (Duration.mk t.nanoseconds.toNat).seconds

end PoolGauge
