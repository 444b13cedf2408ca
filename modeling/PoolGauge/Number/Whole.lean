/-!
# Whole numbers in decimal

Reading counters, which are unsigned 64-bit words, and writing numbers in decimal and in
hexadecimal.
-/
namespace PoolGauge.Number

/-- What every signed 64-bit word is below, and none is below its negative. -/
def signedBound : Nat := 0x8000000000000000

def digit? (c : Char) : Option Nat :=
  if '0' ≤ c ∧ c ≤ '9' then some (c.toNat - '0'.toNat) else none

/-- Reads a row of decimal digits after the number that the digits before it have. -/
def readDigits (before : Nat) (text : List Char) : Option Nat :=
  text.foldlM (fun n c => (digit? c).map (10 * n + ·)) before

def readNat (text : List Char) : Option Nat :=
  if text.isEmpty then none else readDigits 0 text

/-- Reads a counter: an optional plus sign, then decimal digits whose value fits the word. -/
def readWord (text : List Char) : Option UInt64 := do
  let digits := match text with
    | '+' :: rest => rest
    | _ => text
  let n ← readNat digits
  if h : n < UInt64.size then some (UInt64.ofNatLT n h) else none

def decimal (n : Nat) : List Char :=
  Nat.toDigits 10 n

def hexadecimal (n : Nat) : List Char :=
  Nat.toDigits 16 n

@[simp] theorem readNat_nil : readNat [] = none := rfl

@[simp] theorem readWord_nil : readWord [] = none := rfl

theorem readDigits_append (before : Nat) (left right : List Char) :
    readDigits before (left ++ right) =
      (readDigits before left).bind (readDigits · right) := by
  simp [readDigits, List.foldlM_append]

end PoolGauge.Number
