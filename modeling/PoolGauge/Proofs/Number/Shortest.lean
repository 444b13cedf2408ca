import Mathlib.Algebra.Order.Field.Power
import Mathlib.Data.List.TakeWhile
import Mathlib.Data.Nat.Cast.Order.Field
import Mathlib.Tactic.FieldSimp
import Mathlib.Tactic.Linarith
import Mathlib.Tactic.Ring
import PoolGauge.Number.Shortest
import PoolGauge.Proofs.Number.Decimal

/-!
# The shortest text tells the double

Every finite double has an interval of reals that round to it, and no two of these intervals meet.
The shortest digits of a double are in its interval, so no other double has the same text.
-/
namespace PoolGauge.Number

section Values

def exactValue (text : List Char) : ℚ :=
  ((readDigits 0 (text.filter (· != '.'))).getD 0 : ℚ) /
    10 ^ ((text.dropWhile (· != '.')).drop 1).length

/-- What a row of digits in front of a power of ten comes to. -/
def Digits.value (d : Digits) : ℚ :=
  d.number * (10 : ℚ) ^ d.exponent

theorem zpow_eq_div (base : ℚ) (e : ℤ) : base ^ e = base ^ e.toNat / base ^ (-e).toNat := by
  obtain ⟨n, rfl | rfl⟩ := e.eq_nat_or_neg <;> simp

theorem readDigits_zeros (before count : Nat) :
    readDigits before (List.replicate count '0') = some (before * 10 ^ count) := by
  induction count generalizing before with
  | zero => simp [readDigits]
  | succ count ih =>
    have hzero : readDigits before ['0'] = some (10 * before) := by
      simp [readDigits, digit?]
    rw [List.replicate_succ, ← List.singleton_append, readDigits_append, hzero, Option.bind_some,
      ih]
    congr 1
    ring

theorem ne_point_of_isDigit {c : Char} (h : c.isDigit = true) : (c != '.') = true := by
  rw [bne_iff_ne]
  rintro rfl
  exact absurd h (by decide)

/-- The value of a text without a point, and of one with a point in it. -/
theorem exactValue_of_digits {row : List Char} (h : ∀ c ∈ row, c.isDigit = true) :
    exactValue row = (readDigits 0 row).getD 0 := by
  have hall : ∀ c ∈ row, (c != '.') = true := fun c hc => ne_point_of_isDigit (h c hc)
  rw [exactValue, List.filter_eq_self.mpr hall, List.dropWhile_eq_nil_iff.mpr hall]
  simp

theorem exactValue_point {whole places : List Char} (hwhole : ∀ c ∈ whole, c.isDigit = true)
    (hplaces : ∀ c ∈ places, c.isDigit = true) :
    exactValue (whole ++ '.' :: places) =
      ((readDigits 0 (whole ++ places)).getD 0 : ℚ) / 10 ^ places.length := by
  have hleft : ∀ c ∈ whole, (c != '.') = true := fun c hc => ne_point_of_isDigit (hwhole c hc)
  have hright : ∀ c ∈ places, (c != '.') = true := fun c hc => ne_point_of_isDigit (hplaces c hc)
  rw [exactValue, List.filter_append, List.filter_cons_of_neg (by decide),
    List.filter_eq_self.mpr hleft, List.filter_eq_self.mpr hright,
    List.dropWhile_append_of_pos hleft, List.dropWhile_cons_of_neg (by decide)]
  rfl

/-- A text in positional notation has the value of its digits. -/
theorem exactValue_positional (d : Digits) : exactValue d.positional = d.value := by
  have hrow : ∀ c ∈ decimal d.number, c.isDigit = true := fun c hc => digit_of_mem_decimal hc
  rw [Digits.positional, Digits.value, zpow_eq_div]
  by_cases h : 0 ≤ d.exponent
  · rw [if_pos h, exactValue_of_digits, readDigits_append, readDigits_decimal, Option.bind_some,
      readDigits_zeros, Int.toNat_eq_zero.mpr (by omega : -d.exponent ≤ 0)]
    · simp
    · intro c hc
      rcases List.mem_append.mp hc with hmem | hmem
      · exact hrow c hmem
      · rw [List.eq_of_mem_replicate hmem]
        decide
  · rw [if_neg h, Int.toNat_eq_zero.mpr (by omega : d.exponent ≤ 0)]
    have hpadded : ∀ c ∈ List.replicate ((-d.exponent).toNat + 1 - (decimal d.number).length) '0' ++
        decimal d.number, c.isDigit = true := by
      intro c hc
      rcases List.mem_append.mp hc with hmem | hmem
      · rw [List.eq_of_mem_replicate hmem]
        decide
      · exact hrow c hmem
    simp only
    rw [exactValue_point (fun c hc => hpadded c (List.mem_of_mem_take hc))
      (fun c hc => hpadded c (List.mem_of_mem_drop hc)), List.take_append_drop, readDigits_append,
      readDigits_zeros, Option.bind_some, Nat.zero_mul, readDigits_decimal, List.length_drop,
      List.length_append, List.length_replicate]
    have hplaces : ∀ p n : ℕ, p + 1 - n + n - (p + 1 - n + n - p) = p := by omega
    rw [hplaces]
    simp [div_eq_mul_inv]

end Values

section Intervals

/-- The point is in the interval of the double. -/
def Interval.Holds (x : Interval) (point : ℚ) : Prop :=
  if x.closed then (x.low : ℚ) / x.den ≤ point ∧ point ≤ (x.high : ℚ) / x.den
  else (x.low : ℚ) / x.den < point ∧ point < (x.high : ℚ) / x.den

theorem Interval.contains_iff {x : Interval} (hden : 0 < x.den) {point : ℕ} {exponent : ℤ} :
    x.contains point exponent = true ↔ x.Holds (point * (10 : ℚ) ^ exponent) := by
  have hdenQ : (0 : ℚ) < x.den := by exact_mod_cast hden
  have hunit : (0 : ℚ) < 10 ^ (-exponent).toNat := by positivity
  rw [Holds, zpow_eq_div, ← mul_div_assoc, contains]
  by_cases hclosed : x.closed = true
  · rw [if_pos hclosed, if_pos hclosed, div_le_div_iff₀ hdenQ hunit, div_le_div_iff₀ hunit hdenQ,
      Bool.and_eq_true, decide_eq_true_eq, decide_eq_true_eq]
    norm_cast
  · rw [if_neg hclosed, if_neg hclosed, div_lt_div_iff₀ hdenQ hunit, div_lt_div_iff₀ hunit hdenQ,
      Bool.and_eq_true, decide_eq_true_eq, decide_eq_true_eq]
    norm_cast

theorem Interval.Holds.bounds {x : Interval} {point : ℚ} (h : x.Holds point) :
    (x.low : ℚ) / x.den ≤ point ∧ point ≤ (x.high : ℚ) / x.den ∧
      (x.closed = false → (x.low : ℚ) / x.den < point ∧ point < (x.high : ℚ) / x.den) := by
  rw [Holds] at h
  by_cases hclosed : x.closed = true
  · rw [if_pos hclosed] at h
    exact ⟨h.1, h.2, fun hopen => absurd hopen (by simp [hclosed])⟩
  · rw [if_neg hclosed] at h
    exact ⟨h.1.le, h.2.le, fun _ => h⟩

theorem Interval.holds_of_lt {x : Interval} {point : ℚ} (hlow : (x.low : ℚ) / x.den < point)
    (hhigh : point < (x.high : ℚ) / x.den) : x.Holds point := by
  rw [Holds]
  split
  · exact ⟨hlow.le, hhigh.le⟩
  · exact ⟨hlow, hhigh⟩

/-- The whole number by whose multiples of a power of two a double is counted. -/
def significand (bits : ℕ) : ℕ :=
  if bits / fractionBound = 0 then bits % fractionBound else bits % fractionBound + fractionBound

/-- The exponent of that power of two. -/
def scale (bits : ℕ) : ℤ :=
  if bits / fractionBound = 0 then -1074 else (bits / fractionBound : ℕ) - 1075

/-- The lower end is nearer where the power of two is the first of a greater size. -/
def lowGap (bits : ℕ) : ℚ :=
  if bits % fractionBound = 0 ∧ 1 < bits / fractionBound then 1 / 4 else 1 / 2

variable {bits : ℕ}

theorem fractionBound_eq : fractionBound = 4503599627370496 := rfl

theorem significand_pos (h : 0 < bits) : 0 < significand bits := by
  rw [significand, fractionBound_eq]
  split <;> omega

theorem significand_lt (bits : ℕ) : significand bits < 9007199254740992 := by
  rw [significand, fractionBound_eq]
  split <;> omega

theorem significand_mod_two (bits : ℕ) : significand bits % 2 = bits % 2 := by
  rw [significand, fractionBound_eq]
  split <;> omega

theorem div_ends (m : ℕ) (e : ℤ) : ((m * 2 ^ e.toNat : ℕ) : ℚ) / (4 * 2 ^ (-e).toNat : ℕ) =
    m / 4 * (2 : ℚ) ^ e := by
  rw [zpow_eq_div]
  push_cast
  ring

theorem high_ofBits (bits : ℕ) : ((Interval.ofBits bits).high : ℚ) / (Interval.ofBits bits).den =
    (significand bits + 1 / 2) * (2 : ℚ) ^ scale bits := by
  refine (div_ends (4 * significand bits + 2) (scale bits)).trans ?_
  push_cast
  ring

theorem low_ofBits (h : 0 < bits) :
    ((Interval.ofBits bits).low : ℚ) / (Interval.ofBits bits).den =
      (significand bits - lowGap bits) * (2 : ℚ) ^ scale bits := by
  have hpos := significand_pos h
  refine (div_ends (4 * significand bits -
    if bits % fractionBound = 0 ∧ 1 < bits / fractionBound then 1 else 2) (scale bits)).trans ?_
  rw [lowGap]
  split
  · rw [Nat.cast_sub (by omega)]
    push_cast
    ring
  · rw [Nat.cast_sub (by omega)]
    push_cast
    ring

theorem value_ofBits (bits : ℕ) :
    ((Interval.ofBits bits).value : ℚ) / (Interval.ofBits bits).den =
      significand bits * (2 : ℚ) ^ scale bits := by
  refine (div_ends (4 * significand bits) (scale bits)).trans ?_
  push_cast
  ring

/-- The interval of a double ends where that of the next one begins. -/
theorem high_eq_low_succ (bits : ℕ) :
    (significand bits + 1 / 2 : ℚ) * (2 : ℚ) ^ scale bits =
      (significand (bits + 1) - lowGap (bits + 1)) * (2 : ℚ) ^ scale (bits + 1) := by
  by_cases hlast : bits % fractionBound + 1 < fractionBound
  · have hdiv : (bits + 1) / fractionBound = bits / fractionBound := by
      rw [fractionBound_eq] at hlast ⊢
      omega
    have hmod : (bits + 1) % fractionBound = bits % fractionBound + 1 := by
      rw [fractionBound_eq] at hlast ⊢
      omega
    simp only [significand, scale, lowGap, hdiv, hmod]
    rw [if_neg (c := _ ∧ _) (by omega)]
    congr 1
    split <;> push_cast <;> ring
  · -- the significand starts anew, with the next power of two unless both are of the least size
    have hdiv : (bits + 1) / fractionBound = bits / fractionBound + 1 := by
      rw [fractionBound_eq] at hlast ⊢
      omega
    have hmod : (bits + 1) % fractionBound = 0 := by
      rw [fractionBound_eq] at hlast ⊢
      omega
    have hfull : ((bits % fractionBound : ℕ) : ℚ) = fractionBound - 1 := by
      have hsum : bits % fractionBound + 1 = fractionBound := by
        rw [fractionBound_eq] at hlast ⊢
        omega
      have hcast := congrArg (fun n : ℕ => (n : ℚ)) hsum
      push_cast at hcast
      linarith
    simp only [significand, scale, lowGap, hdiv, hmod]
    rw [if_neg (Nat.succ_ne_zero _), if_neg (Nat.succ_ne_zero _)]
    by_cases hfirst : bits / fractionBound = 0
    · have hscale : ((0 + 1 : ℕ) : ℤ) - 1075 = -1074 := by norm_num
      rw [if_pos hfirst, if_pos hfirst, hfirst, if_neg (c := _ ∧ _) (by omega), hfull, hscale]
      congr 1
      push_cast
      ring
    · have hpos := Nat.pos_of_ne_zero hfirst
      rw [if_neg hfirst, if_neg hfirst, if_pos (c := _ ∧ _) ⟨trivial, by omega⟩]
      have hscale : ((bits / fractionBound + 1 : ℕ) : ℤ) - 1075 =
          ((bits / fractionBound : ℕ) : ℤ) - 1075 + 1 := by
        push_cast
        ring
      rw [hscale, zpow_add_one₀ (by norm_num), Nat.cast_add, hfull]
      push_cast
      ring

theorem low_lt_high (bits : ℕ) : (significand bits - lowGap bits : ℚ) * (2 : ℚ) ^ scale bits <
    (significand bits + 1 / 2) * (2 : ℚ) ^ scale bits := by
  have hpower : (0 : ℚ) < (2 : ℚ) ^ scale bits := by positivity
  refine mul_lt_mul_of_pos_right ?_ hpower
  rw [lowGap]
  split <;> linarith

/-- Intervals lie in the order of their doubles, and only neighbours touch. -/
theorem high_le_low {a b : ℕ} (h : a < b) : (significand a + 1 / 2 : ℚ) * (2 : ℚ) ^ scale a ≤
      (significand b - lowGap b) * (2 : ℚ) ^ scale b ∧
    (a + 1 ≠ b → (significand a + 1 / 2 : ℚ) * (2 : ℚ) ^ scale a <
      (significand b - lowGap b) * (2 : ℚ) ^ scale b) := by
  induction b, h using Nat.le_induction with
  | base => exact ⟨(high_eq_low_succ a).le, fun hne => absurd rfl hne⟩
  | succ b hb ih =>
    have hlt := ih.1.trans_lt (low_lt_high b)
    rw [high_eq_low_succ b] at hlt
    exact ⟨hlt.le, fun _ => hlt⟩

theorem not_holds_of_lt {a b : ℕ} (ha : 0 < a) (hab : a < b) {point : ℚ}
    (hpoint : (Interval.ofBits a).Holds point) : ¬ (Interval.ofBits b).Holds point := by
  intro hother
  obtain ⟨-, hhigh, hopen⟩ := hpoint.bounds
  obtain ⟨hlow, -, hopen'⟩ := hother.bounds
  rw [high_ofBits] at hhigh hopen
  rw [low_ofBits (ha.trans hab)] at hlow hopen'
  obtain ⟨hle, hlt⟩ := high_le_low hab
  by_cases hnext : a + 1 = b
  · -- the common end is in neither interval, for one of the significands is odd
    have hparity : significand a % 2 ≠ 0 ∨ significand b % 2 ≠ 0 := by
      rw [significand_mod_two, significand_mod_two]
      omega
    rcases hparity with hodd | hodd
    · have := (hopen (decide_eq_false hodd)).2
      linarith
    · have := (hopen' (decide_eq_false hodd)).1
      linarith
  · have := hlt hnext
    linarith

/-- No point is in the intervals of two doubles. -/
theorem eq_of_holds {a b : ℕ} (ha : 0 < a) (hb : 0 < b) {point : ℚ}
    (hpoint : (Interval.ofBits a).Holds point) (hother : (Interval.ofBits b).Holds point) :
    a = b := by
  rcases lt_trichotomy a b with hlt | heq | hgt
  · exact absurd hother (not_holds_of_lt ha hlt hpoint)
  · exact heq
  · exact absurd hpoint (not_holds_of_lt hb hgt hother)

end Intervals

section Search

variable {x : Interval} {bits : ℕ}

theorem contains_of_onGrid? {exponent : ℤ} {d : Digits} (h : x.onGrid? exponent = some d) :
    x.contains d.number d.exponent = true := by
  simp only [Interval.onGrid?] at h
  split at h
  · rename_i hlower
    obtain rfl := Option.some.inj h
    exact (Bool.and_eq_true_iff.mp hlower).1
  · split at h
    · obtain rfl := Option.some.inj h
      assumption
    · contradiction

/-- A search that comes to a grid with a point in the interval finds such a point. -/
theorem contains_firstHit {fuel steps : ℕ} (hsteps : steps < fuel) {exponent : ℤ}
    (h : (x.onGrid? (exponent - steps)).isSome = true) :
    x.contains (x.firstHit fuel exponent).number (x.firstHit fuel exponent).exponent = true := by
  induction fuel generalizing steps exponent with
  | zero => contradiction
  | succ fuel ih =>
    rw [Interval.firstHit]
    cases hgrid : x.onGrid? exponent with
    | some d => exact contains_of_onGrid? hgrid
    | none =>
      cases steps with
      | zero =>
        rw [Nat.cast_zero, sub_zero, hgrid] at h
        contradiction
      | succ steps =>
        refine ih (Nat.lt_of_succ_lt_succ hsteps) ?_
        rwa [sub_sub, add_comm (1 : ℤ), ← Nat.cast_succ]

theorem log2_mul_two_pow {n : ℕ} (hn : n ≠ 0) (k : ℕ) : (n * 2 ^ k).log2 = n.log2 + k := by
  induction k with
  | zero => simp
  | succ k ih =>
    rw [pow_succ, ← mul_assoc, mul_comm _ 2, Nat.log2_two_mul (by positivity), ih]
    rfl

theorem ceiling_ofBits_le (h : 0 < bits) :
    (Interval.ofBits bits).ceiling ≤ (scale bits + 52) * 1233 / 4096 + 3 := by
  have hpos := significand_pos h
  have hvalue : (Interval.ofBits bits).value.log2 = (significand bits).log2 + 2 +
      (scale bits).toNat := by
    change (4 * significand bits * 2 ^ (scale bits).toNat).log2 = _
    rw [log2_mul_two_pow (by omega), mul_comm, ← log2_mul_two_pow (by omega) 2]
    rfl
  have hden : (Interval.ofBits bits).den.log2 = 2 + (-scale bits).toNat := by
    change (4 * 2 ^ (-scale bits).toNat).log2 = _
    rw [log2_mul_two_pow (by decide)]
    rfl
  have hlog : (significand bits).log2 < 53 := (Nat.log2_lt (by omega)).mpr (significand_lt bits)
  rw [Interval.ceiling, hvalue, hden]
  omega

/-- The finest grid that is tried is finer than a quarter of the distance between doubles. -/
theorem ten_pow_le {e : ℤ} (hlow : -1074 ≤ e) (hhigh : e ≤ 971) :
    (10 : ℚ) ^ ((e + 52) * 1233 / 4096 - 19) ≤ 1 / 4 * (2 : ℚ) ^ e := by
  have hall : ∀ i : ℕ, i < 2046 →
      4 * 10 ^ (((i : ℤ) - 1022) * 1233 / 4096 - 19).toNat * 2 ^ (1074 - (i : ℤ)).toNat ≤
        2 ^ ((i : ℤ) - 1074).toNat * 10 ^ (-(((i : ℤ) - 1022) * 1233 / 4096 - 19)).toNat := by
    decide +kernel
  obtain ⟨i, hi⟩ := Int.eq_ofNat_of_zero_le (by omega : 0 ≤ e + 1074)
  have hbound := hall i (by omega)
  obtain rfl : e = i - 1074 := by omega
  have hcast : (4 * 10 ^ (((i : ℤ) - 1022) * 1233 / 4096 - 19).toNat *
      2 ^ (1074 - (i : ℤ)).toNat : ℚ) ≤ 2 ^ ((i : ℤ) - 1074).toNat *
        10 ^ (-(((i : ℤ) - 1022) * 1233 / 4096 - 19)).toNat := by
    exact_mod_cast hbound
  have hshift : (i : ℤ) - 1074 + 52 = i - 1022 := by ring
  have hneg : -((i : ℤ) - 1074) = 1074 - i := by ring
  rw [hshift, zpow_eq_div, zpow_eq_div 2, hneg, ← mul_div_assoc,
    div_le_div_iff₀ (by positivity) (by positivity)]
  linarith

/-- The greatest multiple of a power that is at most a value is less than the power below it. -/
theorem floor_near {num den : ℕ} (hden : 0 < den) {power value : ℚ} (hpower : 0 < power)
    (hvalue : (num : ℚ) / den * power = value) :
    ((num / den : ℕ) : ℚ) * power ≤ value ∧ value - power < ((num / den : ℕ) : ℚ) * power := by
  have hdenQ : (0 : ℚ) < den := by exact_mod_cast hden
  have hle : ((num / den : ℕ) : ℚ) ≤ num / den := Nat.cast_div_le
  have hlt : (num : ℚ) / den < (num / den : ℕ) + 1 := by
    rw [div_lt_iff₀ hdenQ, mul_comm]
    exact_mod_cast Nat.lt_mul_div_succ num hden
  have hbelow := mul_le_mul_of_nonneg_right hle hpower.le
  have habove := mul_lt_mul_of_pos_right hlt hpower
  rw [hvalue] at hbelow habove
  exact ⟨hbelow, by linarith⟩

/-- A grid that is fine enough has a point in the interval. -/
theorem isSome_onGrid? (hpos : 0 < bits) {exponent : ℤ}
    (hfine : (10 : ℚ) ^ exponent ≤ 1 / 4 * (2 : ℚ) ^ scale bits) :
    ((Interval.ofBits bits).onGrid? exponent).isSome = true := by
  have hden : 0 < (Interval.ofBits bits).den :=
    Nat.mul_pos (by decide : 0 < 4) (Nat.pow_pos (by decide : 0 < 2))
  have hdenQ : (0 : ℚ) < (Interval.ofBits bits).den := by exact_mod_cast hden
  have hscale : (0 : ℚ) < (2 : ℚ) ^ scale bits := by positivity
  -- in units of the power the value is the quotient whose floor is tried
  have hvalue : (((Interval.ofBits bits).value * Nat.pow 10 (-exponent).toNat : ℕ) : ℚ) /
      ((Interval.ofBits bits).den * Nat.pow 10 exponent.toNat : ℕ) * (10 : ℚ) ^ exponent =
        significand bits * (2 : ℚ) ^ scale bits := by
    rw [← value_ofBits, zpow_eq_div 10, Nat.pow_eq, Nat.pow_eq]
    push_cast
    field_simp
  have hgrid : 0 < (Interval.ofBits bits).den * Nat.pow 10 exponent.toNat :=
    Nat.mul_pos hden (Nat.pow_pos (by decide : 0 < 10))
  obtain ⟨hbelow, hnear⟩ := floor_near hgrid (by positivity) hvalue
  have hlower : (Interval.ofBits bits).contains
      ((Interval.ofBits bits).value * Nat.pow 10 (-exponent).toNat /
        ((Interval.ofBits bits).den * Nat.pow 10 exponent.toNat)) exponent = true := by
    rw [Interval.contains_iff hden]
    refine Interval.holds_of_lt ?_ ?_
    · have hgap : 1 / 4 ≤ lowGap bits := by
        rw [lowGap]
        split <;> norm_num
      have hmul := mul_le_mul_of_nonneg_right hgap hscale.le
      rw [low_ofBits hpos, sub_mul]
      linarith
    · rw [high_ofBits, add_mul]
      linarith
  simp only [Interval.onGrid?, hlower, Bool.true_and]
  split
  · rfl
  · split
    · rfl
    · simp_all

/-- The shortest digits of a finite positive double are in its interval. -/
theorem holds_shortestDigits (hpos : 0 < bits) (hfinite : bits < infinityBits) :
    (Interval.ofBits bits).Holds (shortestDigits bits).value := by
  have hden : 0 < (Interval.ofBits bits).den :=
    Nat.mul_pos (by decide : 0 < 4) (Nat.pow_pos (by decide : 0 < 2))
  have hscale : -1074 ≤ scale bits ∧ scale bits ≤ 971 := by
    rw [infinityBits] at hfinite
    rw [scale, fractionBound_eq]
    split <;> omega
  have hceiling := ceiling_ofBits_le hpos
  have hfine : (10 : ℚ) ^ ((Interval.ofBits bits).ceiling - (22 : ℕ)) ≤
      1 / 4 * (2 : ℚ) ^ scale bits := by
    refine (zpow_le_zpow_right₀ (by norm_num) ?_).trans (ten_pow_le hscale.1 hscale.2)
    push_cast
    omega
  exact (Interval.contains_iff hden).mp
    (contains_firstHit (by decide : 22 < 23) (isSome_onGrid? hpos hfine))

end Search

section Texts

def magnitudeText (magnitude : ℕ) : List Char :=
  if magnitude = 0 then ['0']
  else if magnitude < infinityBits then (shortestDigits magnitude).positional
  else ['i', 'n', 'f']

theorem mem_positional {d : Digits} {c : Char} (h : c ∈ d.positional) :
    c.isDigit = true ∨ c = '.' := by
  have hrow : ∀ c ∈ decimal d.number, c.isDigit = true := fun c hc => digit_of_mem_decimal hc
  have hzeros : ∀ count, ∀ c ∈ List.replicate count '0', c.isDigit = true := by
    intro count c hc
    rw [List.eq_of_mem_replicate hc]
    decide
  rw [Digits.positional] at h
  split at h
  · rcases List.mem_append.mp h with hmem | hmem
    · exact .inl (hrow c hmem)
    · exact .inl (hzeros _ c hmem)
  · have hpadded : ∀ count, ∀ c ∈ List.replicate count '0' ++ decimal d.number,
        c.isDigit = true := by
      intro count c hc
      exact (List.mem_append.mp hc).elim (hzeros count c) (hrow c)
    rcases List.mem_append.mp h with hmem | hmem
    · exact .inl (hpadded _ c (List.mem_of_mem_take hmem))
    · rcases List.mem_cons.mp hmem with rfl | hplaces
      · exact .inr rfl
      · exact .inl (hpadded _ c (List.mem_of_mem_drop hplaces))

theorem mem_magnitudeText {magnitude : ℕ} {c : Char} (h : c ∈ magnitudeText magnitude) :
    c.isDigit = true ∨ c = '.' ∨ (infinityBits ≤ magnitude ∧ c ∈ ['i', 'n', 'f']) := by
  rw [magnitudeText] at h
  split at h
  · obtain rfl := List.mem_singleton.mp h
    exact .inl (by decide)
  · split at h
    · exact (mem_positional h).imp_right .inl
    · exact .inr (.inr ⟨not_lt.mp ‹_›, h⟩)

/-- The text of a finite double has a value in the interval of this double, or it is zero. -/
theorem exactValue_magnitudeText {magnitude : ℕ} (h : magnitude < infinityBits) :
    (magnitude = 0 ∧ exactValue (magnitudeText magnitude) = 0) ∨
      (0 < magnitude ∧ 0 < exactValue (magnitudeText magnitude) ∧
        (Interval.ofBits magnitude).Holds (exactValue (magnitudeText magnitude))) := by
  rcases Nat.eq_zero_or_pos magnitude with rfl | hpos
  · exact .inl ⟨rfl, by decide +kernel⟩
  · have hholds := holds_shortestDigits hpos h
    have hlow := hholds.bounds.1
    have hsignificand : (1 : ℚ) ≤ significand magnitude := by
      exact_mod_cast significand_pos hpos
    have hgap : lowGap magnitude ≤ 1 / 2 := by
      rw [lowGap]
      split <;> norm_num
    have hscale : (0 : ℚ) < (2 : ℚ) ^ scale magnitude := by positivity
    rw [low_ofBits hpos] at hlow
    rw [magnitudeText, if_neg (Nat.ne_of_gt hpos), if_pos h, exactValue_positional]
    exact .inr ⟨hpos, (mul_pos (by linarith) hscale).trans_le hlow, hholds⟩

theorem magnitudeText_inj {a b : ℕ} (ha : a ≤ infinityBits) (hb : b ≤ infinityBits)
    (h : magnitudeText a = magnitudeText b) : a = b := by
  have hfinite : ∀ m ≤ infinityBits, m < infinityBits ↔ 'i' ∉ magnitudeText m := by
    intro m hm
    constructor
    · intro hlt hmem
      rcases mem_magnitudeText hmem with hdigit | hpoint | ⟨hge, -⟩
      · exact absurd hdigit (by decide)
      · exact absurd hpoint (by decide)
      · omega
    · intro hnot
      by_contra hge
      obtain rfl : m = infinityBits := by omega
      exact hnot (by decide)
  by_cases hlt : a < infinityBits
  · have hlt' : b < infinityBits := by
      rwa [hfinite b hb, ← h, ← hfinite a ha]
    rcases exactValue_magnitudeText hlt with ⟨rfl, hzero⟩ | ⟨hpos, hvalue, hholds⟩
    · rcases exactValue_magnitudeText hlt' with ⟨rfl, -⟩ | ⟨-, hvalue, -⟩
      · rfl
      · rw [← h, hzero] at hvalue
        exact absurd hvalue (lt_irrefl _)
    · rcases exactValue_magnitudeText hlt' with ⟨rfl, hzero⟩ | ⟨hpos', -, hholds'⟩
      · rw [h, hzero] at hvalue
        exact absurd hvalue (lt_irrefl _)
      · rw [← h] at hholds'
        exact eq_of_holds hpos hpos' hholds hholds'
  · have hge : ¬ b < infinityBits := by
      rwa [hfinite b hb, ← h, ← hfinite a ha]
    omega

theorem floatText_eq (x : Float) : floatText x =
    if infinityBits < x.toBits.toNat % signedBound then ['N', 'a', 'N']
    else (if x.toBits.toNat = x.toBits.toNat % signedBound then [] else ['-']) ++
      magnitudeText (x.toBits.toNat % signedBound) := by
  simp only [floatText, magnitudeText]
  by_cases hzero : x.toBits.toNat % signedBound = 0
  · rw [if_pos hzero, if_pos hzero, hzero, if_neg (c := infinityBits < 0) (by decide)]
  · rw [if_neg hzero, if_neg hzero]
    by_cases hlt : x.toBits.toNat % signedBound < infinityBits
    · rw [if_pos hlt, if_pos hlt, if_neg (c := infinityBits < _) (by omega)]
    · rw [if_neg hlt, if_neg hlt]
      by_cases heq : x.toBits.toNat % signedBound = infinityBits
      · rw [if_pos heq, if_neg (c := infinityBits < _) (by omega)]
      · rw [if_neg heq, if_pos (by omega)]

open Float.Model Float.Model.UnpackedFloat in
/-- There is one double that is not a number. -/
theorem eq_packedNaN {b : BitVec 64} (hvalid : Format.binary64.Valid b)
    (h : infinityBits < b.toNat % signedBound) : b = packedNaN .binary64 := by
  rw [infinityBits, signedBound] at h
  refine hvalid.eq_packedNaN ?_ fun hmantissa => ?_
  · apply BitVec.eq_of_toNat_eq
    simp [unpackExponent, BitVec.extractLsb, Nat.shiftRight_eq_div_pow]
    omega
  · have hzero := congrArg BitVec.toNat hmantissa
    simp [unpackMantissa, BitVec.extractLsb, Nat.shiftRight_eq_div_pow] at hzero
    omega

theorem eq_of_toBits {x y : Float} (h : x.toBits.toBitVec = y.toBits.toBitVec) : x = y := by
  obtain ⟨⟨bits, _⟩⟩ := x
  obtain ⟨⟨other, _⟩⟩ := y
  obtain rfl : bits = other := UInt64.toBitVec_inj.mp h
  rfl

theorem notMem_magnitudeText {magnitude : ℕ} {c : Char} (hdigit : c.isDigit = false)
    (hother : c ∉ ['.', 'i', 'n', 'f']) : c ∉ magnitudeText magnitude := by
  intro h
  rcases mem_magnitudeText h with hmem | rfl | ⟨-, hmem⟩
  · simp [hmem] at hdigit
  · simp at hother
  · exact hother (List.mem_cons_of_mem '.' hmem)

theorem mem_floatText_iff (x : Float) :
    ('N' ∈ floatText x ↔ infinityBits < x.toBits.toNat % signedBound) ∧
      (x.toBits.toNat % signedBound ≤ infinityBits →
        ('-' ∈ floatText x ↔ x.toBits.toNat ≠ x.toBits.toNat % signedBound)) := by
  have hletter : 'N' ∉ magnitudeText (x.toBits.toNat % signedBound) :=
    notMem_magnitudeText (by decide) (by decide)
  have hminus : '-' ∉ magnitudeText (x.toBits.toNat % signedBound) :=
    notMem_magnitudeText (by decide) (by decide)
  rw [floatText_eq]
  by_cases hnan : infinityBits < x.toBits.toNat % signedBound
  · rw [if_pos hnan]
    exact ⟨by simp [hnan], fun hle => absurd hnan (not_lt.mpr hle)⟩
  · rw [if_neg hnan]
    by_cases hsign : x.toBits.toNat = x.toBits.toNat % signedBound
    · rw [if_pos hsign, List.nil_append]
      exact ⟨by simp [hnan, hletter], fun _ => iff_of_false hminus (not_not.mpr hsign)⟩
    · rw [if_neg hsign]
      exact ⟨by simp [hnan, hletter], fun _ => by simp [hsign]⟩

/-- Doubles with the same text are the same. -/
theorem floatText_injective : Function.Injective floatText := by
  intro x y h
  obtain ⟨hnan, hsign⟩ := mem_floatText_iff x
  obtain ⟨hnan', hsign'⟩ := mem_floatText_iff y
  rw [h] at hnan hsign
  by_cases hx : infinityBits < x.toBits.toNat % signedBound
  · have hy := hnan'.mp (hnan.mpr hx)
    exact eq_of_toBits ((eq_packedNaN x.toModel.valid hx).trans
      (eq_packedNaN y.toModel.valid hy).symm)
  · have hy : ¬ infinityBits < y.toBits.toNat % signedBound := fun hy => hx (hnan.mp (hnan'.mpr hy))
    have hsame : x.toBits.toNat = x.toBits.toNat % signedBound ↔
        y.toBits.toNat = y.toBits.toNat % signedBound :=
      not_iff_not.mp ((hsign (not_lt.mp hx)).symm.trans (hsign' (not_lt.mp hy)))
    rw [floatText_eq, floatText_eq, if_neg hx, if_neg hy] at h
    simp only [hsame] at h
    have hmagnitude := magnitudeText_inj (not_lt.mp hx) (not_lt.mp hy) (List.append_cancel_left h)
    have hxlt := x.toBits.toNat_lt
    have hylt := y.toBits.toNat_lt
    rw [signedBound] at hsame hmagnitude
    have hbits : x.toBits.toNat = y.toBits.toNat := by omega
    exact eq_of_toBits (BitVec.eq_of_toNat_eq hbits)

theorem newline_notMem_floatText (x : Float) : '\n' ∉ floatText x := by
  rw [floatText_eq]
  split
  · decide
  · intro h
    rcases List.mem_append.mp h with hsign | hmagnitude
    · split at hsign
      · contradiction
      · exact absurd hsign (by decide)
    · exact notMem_magnitudeText (by decide) (by decide) hmagnitude

end Texts

end PoolGauge.Number
