import Mathlib.Data.List.Basic
import PoolGauge.Proofs.Text.Cuts
import PoolGauge.Proofs.Text.Fields

/-!
# The beginning of a text

A text that was not written to its end has the lines that a newline had ended, and perhaps a
fragment of the next one. A fragment may tell another value than its line, but it tells none that
its line does not tell some value for.
-/
namespace PoolGauge.Text

/-- The lines of a text that its beginning does not have to their end. -/
def lostLines (whole beginning : List Char) : List (List Char) :=
  (lines whole).drop (beginning.count '\n')

variable {cut : Char → Bool} {a b line whole beginning : List Char} {name property : String}

section Pieces

/-- There is one piece more than cuts. -/
theorem length_splitWhere (cut : Char → Bool) (text : List Char) :
    (splitWhere cut text).length = text.countP cut + 1 := by
  induction text with
  | nil => rfl
  | cons c text ih =>
    cases hc : cut c with
    | true => rw [splitWhere_cons_of_cut hc, List.length_cons, ih, List.countP_cons_of_pos hc]
    | false =>
      obtain ⟨piece, rest, hpieces⟩ := List.exists_cons_of_ne_nil (splitWhere_ne_nil cut text)
      rw [splitWhere_cons_of_not_cut hc hpieces, List.length_cons,
        List.countP_cons_of_neg (by simp [hc]), ← ih, hpieces, List.length_cons]

/-- A text has no cuts, or a last one. -/
theorem exists_last_cut (cut : Char → Bool) (text : List Char) :
    (∀ c ∈ text, cut c = false) ∨ ∃ before c after, text = before ++ c :: after ∧ cut c = true ∧
      ∀ d ∈ after, cut d = false := by
  induction text with
  | nil => exact .inl nofun
  | cons c text ih =>
    rcases ih with hnone | ⟨before, d, after, rfl, hd, hafter⟩
    · cases hc : cut c with
      | true => exact .inr ⟨[], c, text, rfl, hc, hnone⟩
      | false => exact .inl (List.forall_mem_cons.mpr ⟨hc, hnone⟩)
    · exact .inr ⟨c :: before, d, after, rfl, hd, hafter⟩

/-- More text changes none of the pieces but the last. -/
theorem dropLast_splitWhere_prefix (cut : Char → Bool) (a b : List Char) :
    (splitWhere cut a).dropLast <+: splitWhere cut (a ++ b) := by
  rcases exists_last_cut cut a with hnone | ⟨before, c, after, rfl, hc, hafter⟩
  · rw [splitWhere_eq_singleton hnone]
    exact List.nil_prefix
  · rw [List.append_assoc, List.cons_append, splitWhere_append_cons hc, splitWhere_append_cons hc,
      splitWhere_eq_singleton hafter, List.dropLast_concat]
    exact List.prefix_append _ _

end Pieces

section Told

/-- A line tells a value just if it has three fields, with the name and the property first. -/
theorem toldValue?_isSome_iff : (toldValue? name property line).isSome ↔
    3 ≤ (fields line).length ∧ field? line 0 = some name.toList ∧
      field? line 1 = some property.toList := by
  rw [toldValue?]
  split
  · rename_i h
    rw [field?_isSome_iff]
    exact ⟨fun hlength => ⟨hlength, h⟩, fun h => h.1⟩
  · rename_i h
    exact iff_of_false nofun fun h' => h h'.2

theorem length_fields_append (a b : List Char) :
    (fields (a ++ b)).length = (fields a).length + b.countP (· == '\t') := by
  rw [fields, fields, length_splitWhere, length_splitWhere, List.countP_append]
  omega

/-- More text changes none of the fields but the last. -/
theorem field?_append (b : List Char) {i : Nat} (h : i + 1 < (fields a).length) :
    field? (a ++ b) i = field? a i := by
  obtain ⟨rest, hrest⟩ : (fields a).dropLast <+: fields (a ++ b) :=
    dropLast_splitWhere_prefix _ a b
  have hi : i < (fields a).dropLast.length := by
    rw [List.length_dropLast]
    omega
  rw [field?, field?, ← hrest, List.getElem?_append_left hi, List.getElem?_dropLast,
    if_pos (by omega)]

/-- More text on a line that tells a value leaves it to tell one. -/
theorem toldValue?_isSome_append (b : List Char) (h : (toldValue? name property a).isSome) :
    (toldValue? name property (a ++ b)).isSome := by
  rw [toldValue?_isSome_iff] at h ⊢
  obtain ⟨hlength, hfields⟩ := h
  rw [length_fields_append, field?_append b (by omega), field?_append b (by omega)]
  exact ⟨by omega, hfields⟩

/-- A line that tells a value does so without a carriage return at its end. -/
theorem toldValue?_isSome_of_append_return
    (h : (toldValue? name property (a ++ ['\r'])).isSome) :
    (toldValue? name property a).isSome := by
  rw [toldValue?_isSome_iff, length_fields_append] at h
  obtain ⟨hlength, hfields⟩ := h
  change 3 ≤ (fields a).length at hlength
  rw [field?_append _ (by omega), field?_append _ (by omega)] at hfields
  exact toldValue?_isSome_iff.mpr ⟨hlength, hfields⟩

end Told

section Lines

/-- A text without newlines is one line, unless it is empty. -/
theorem lines_of_notMem (h : '\n' ∉ a) (hne : a ≠ []) : lines a = [a] := by
  have hpieces : splitWhere (· == '\n') a = [a] :=
    splitWhere_eq_singleton fun c hc => by
      rw [beq_eq_false_iff_ne]
      exact ne_of_mem_of_not_mem hc h
  rw [lines, hpieces, closeLines, if_neg (by simpa using hne)]

/-- A text that ends with a newline has a line for each. -/
theorem length_lines_of_ended (h : ∀ c ∈ a.getLast?, c = '\n') :
    (lines a).length = a.count '\n' := by
  rcases List.eq_nil_or_concat a with rfl | ⟨a, c, rfl⟩
  · rfl
  · obtain rfl : c = '\n' := h c (by simp)
    rw [List.concat_eq_append, lines, splitWhere_append_cons (by rfl),
      closeLines_append _ (splitWhere_ne_nil _ _), List.length_append, List.length_map,
      length_splitWhere, List.count_append]
    rfl

/-- What begins a text without newlines begins its first line, but for a carriage return before
the newline that follows. -/
theorem exists_first_line (hne : a ≠ []) (h : '\n' ∉ a) (text : List Char) :
    ∃ first rest, lines (a ++ text) = first :: rest ∧ (a <+: first ∨ a = first ++ ['\r']) := by
  obtain ⟨piece, pieces, hpieces⟩ :=
    List.exists_cons_of_ne_nil (splitWhere_ne_nil (· == '\n') text)
  have hcut : splitWhere (· == '\n') (a ++ text) = (a ++ piece) :: pieces :=
    splitWhere_append (fun c hc => by
      rw [beq_eq_false_iff_ne]
      exact ne_of_mem_of_not_mem hc h) hpieces
  rw [lines, hcut]
  cases pieces with
  | nil => exact ⟨a ++ piece, [], by simp [closeLines, hne], .inl (List.prefix_append _ _)⟩
  | cons next pieces =>
    refine ⟨_, _, closeLines_append [a ++ piece] (List.cons_ne_nil next pieces), ?_⟩
    rw [dropCarriageReturn]
    split
    · rename_i hlast
      rcases List.eq_nil_or_concat piece with rfl | ⟨piece, c, rfl⟩
      · rw [List.append_nil] at hlast ⊢
        exact .inr (List.dropLast_append_getLast? '\r' hlast).symm
      · rw [List.concat_eq_append, ← List.append_assoc, List.dropLast_concat]
        exact .inl (List.prefix_append _ _)
    · exact .inl (List.prefix_append _ _)

/-- The lines of the beginning of a text are some lines of the text and perhaps a fragment of the
line after them; it tells values of nothing that this line does not tell a value of. -/
theorem exists_lines_of_prefix (h : beginning <+: whole) : ∃ ended fragment,
    lines beginning = ended ++ fragment ∧ lines whole = ended ++ lostLines whole beginning ∧
      ∀ line ∈ fragment, ∃ lost ∈ lostLines whole beginning, ∀ name property,
        (toldValue? name property line).isSome → (toldValue? name property lost).isSome := by
  obtain ⟨text, rfl⟩ := h
  obtain ⟨a, b, rfl, hended, hb⟩ : ∃ a b, beginning = a ++ b ∧ (∀ c ∈ a.getLast?, c = '\n') ∧
      '\n' ∉ b := by
    rcases exists_last_cut (· == '\n') beginning with hnone | ⟨before, c, after, rfl, hc, hafter⟩
    · exact ⟨[], beginning, rfl, nofun, fun hmem => by simpa using hnone _ hmem⟩
    · refine ⟨before ++ [c], after, by simp, by simpa using hc, fun hmem => ?_⟩
      simpa using hafter _ hmem
  have hwhole : lines (a ++ b ++ text) = lines a ++ lines (b ++ text) := by
    rw [List.append_assoc, lines_append_of_ended hended]
  have hlost : lostLines (a ++ b ++ text) (a ++ b) = lines (b ++ text) := by
    rw [lostLines, hwhole, List.count_append, List.count_eq_zero.mpr hb,
      ← length_lines_of_ended hended]
    exact List.drop_left
  refine ⟨lines a, lines b, lines_append_of_ended hended b, by rw [hlost, hwhole], ?_⟩
  rw [hlost]
  intro line hline
  by_cases hempty : b = []
  · rw [hempty] at hline
    contradiction
  · obtain rfl : line = b := by simpa [lines_of_notMem hb hempty] using hline
    obtain ⟨first, rest, hfirst, hbegins⟩ := exists_first_line hempty hb text
    refine ⟨first, by simp [hfirst], fun name property htold => ?_⟩
    rcases hbegins with ⟨more, rfl⟩ | heq
    · exact toldValue?_isSome_append more htold
    · rw [heq] at htold
      exact toldValue?_isSome_of_append_return htold

end Lines

end PoolGauge.Text
