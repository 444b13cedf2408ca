import PoolGauge.Number.Whole

/-!
# Counters in decimal

A counter that is written in decimal reads back.
-/
namespace PoolGauge.Number

theorem digit?_digitChar {d : Nat} (h : d < 10) : digit? d.digitChar = some d := by
  have hall : ∀ d < 10, digit? (Nat.digitChar d) = some d := by decide
  exact hall d h

theorem readDigits_decimal (n : Nat) : readDigits 0 (decimal n) = some n := by
  induction n using Nat.strongRecOn with
  | _ n ih =>
    rcases Nat.lt_or_ge n 10 with hn | hn
    · rw [decimal, Nat.toDigits_of_lt_base hn]
      simp [readDigits, digit?_digitChar hn]
    · have hlast : n % 10 < 10 := Nat.mod_lt n (by decide)
      have hrest := ih (n / 10) (Nat.div_lt_self (by omega) (by decide))
      rw [decimal] at hrest ⊢
      rw [Nat.toDigits_of_base_le (by decide) hn, readDigits_append, hrest]
      simp [readDigits, digit?_digitChar hlast, Nat.div_add_mod]

theorem digit_of_mem_decimal {n : Nat} {c : Char} (h : c ∈ decimal n) : c.isDigit = true :=
  Nat.isDigit_of_mem_toDigits (by decide) (by decide) h

theorem readNat_decimal (n : Nat) : readNat (decimal n) = some n := by
  rw [readNat, if_neg (by simp [decimal])]
  exact readDigits_decimal n

theorem readWord_decimal (n : UInt64) : readWord (decimal n.toNat) = some n := by
  rw [readWord]
  case x_1 =>
    intro rest hplus
    have hdigit : '+'.isDigit = true := digit_of_mem_decimal (n := n.toNat) (by simp [hplus])
    exact absurd hdigit (by decide)
  rw [readNat_decimal, Option.bind_eq_bind, Option.bind_some, dif_pos n.toNat_lt]
  simp

end PoolGauge.Number
