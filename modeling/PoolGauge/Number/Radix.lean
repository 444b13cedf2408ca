import PoolGauge.Number.Whole
import PoolGauge.Text.Reader

/-!
# Numbers in a radix

Rows of digits in radix two to sixteen, with letters in any case as digits above nine.
-/
namespace PoolGauge.Number

open Text

def hexDigit? (c : Char) : Option Nat :=
  if 'a' ≤ c ∧ c ≤ 'f' then some (c.toNat - 'a'.toNat + 10)
  else if 'A' ≤ c ∧ c ≤ 'F' then some (c.toNat - 'A'.toNat + 10)
  else digit? c

def digitIn? (radix : Nat) (c : Char) : Option Nat :=
  (hexDigit? c).filter (· < radix)

/-- Reads a number of at least one digit in a radix. -/
def readIn (radix : Nat) (text : List Char) : Option Nat :=
  if text.isEmpty then none
  else text.foldlM (fun n c => (digitIn? radix c).map (radix * n + ·)) 0

/-- Takes a number of a few hexadecimal digits. -/
def takeHex (length : Nat) : Reader Nat := do
  let row ← Reader.count (fun c => (hexDigit? c).isSome) length
  match readIn 16 row with
  | some n => return n
  | none => failure

end PoolGauge.Number
