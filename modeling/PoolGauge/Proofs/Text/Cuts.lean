import Mathlib.Data.List.TakeWhile
import PoolGauge.Text.Split

/-!
# Texts that are put together

A text is cut piece by piece: a newline or a blank between two texts separates their lines or
words, and a piece without cuts stays whole.
-/
namespace PoolGauge.Text

section Runs

variable {α : Type} {p : α → Bool} {before after : List α}

theorem takeWhile_append_of_cut (hbefore : ∀ b ∈ before, p b = true)
    (hafter : ∀ b ∈ after.head?, p b = false) : (before ++ after).takeWhile p = before := by
  rw [List.takeWhile_append_of_pos hbefore]
  cases after with
  | nil => exact List.append_nil before
  | cons b rest => rw [List.takeWhile_cons_of_neg (by simp [hafter b rfl]), List.append_nil]

theorem dropWhile_append_of_cut (hbefore : ∀ b ∈ before, p b = true)
    (hafter : ∀ b ∈ after.head?, p b = false) : (before ++ after).dropWhile p = after := by
  rw [List.dropWhile_append_of_pos hbefore]
  cases after with
  | nil => rfl
  | cons b rest => rw [List.dropWhile_cons_of_neg (by simp [hafter b rfl])]

end Runs

variable {cut : Char → Bool} {c : Char} {a b piece text : List Char} {rest : List (List Char)}

theorem splitWhere_cons_of_not_cut (h : cut c = false)
    (htext : splitWhere cut text = piece :: rest) :
    splitWhere cut (c :: text) = (c :: piece) :: rest := by
  rw [splitWhere] at htext
  rw [splitWhere, List.foldr_cons, htext, if_neg (by simp [h])]

/-- A piece of text without cuts becomes the beginning of the first piece of what follows. -/
theorem splitWhere_append (h : ∀ c ∈ a, cut c = false)
    (htext : splitWhere cut text = piece :: rest) :
    splitWhere cut (a ++ text) = (a ++ piece) :: rest := by
  induction a with
  | nil => exact htext
  | cons c a ih =>
    exact splitWhere_cons_of_not_cut (h c (by simp)) (ih fun d hd => h d (by simp [hd]))

theorem splitWhere_eq_singleton (h : ∀ c ∈ a, cut c = false) : splitWhere cut a = [a] := by
  simpa using splitWhere_append h (splitWhere_nil cut)

/-- A cut between two texts separates their pieces. -/
theorem splitWhere_append_cons (h : cut c = true) (a b : List Char) :
    splitWhere cut (a ++ c :: b) = splitWhere cut a ++ splitWhere cut b := by
  induction a with
  | nil => exact splitWhere_cons_of_cut h b
  | cons d a ih =>
    cases hd : cut d with
    | true => simp [splitWhere_cons_of_cut hd, ih]
    | false =>
      obtain ⟨piece, rest, hpieces⟩ := List.exists_cons_of_ne_nil (splitWhere_ne_nil cut a)
      rw [splitWhere_cons_of_not_cut hd hpieces, List.cons_append,
        splitWhere_cons_of_not_cut hd (ih.trans (congrArg (· ++ splitWhere cut b) hpieces))]
      rfl

/-- Texts that are ended by cuts each are the pieces before an empty one. -/
theorem splitWhere_flatMap_append {pieces : List (List Char)} (hc : cut c = true)
    (h : ∀ piece ∈ pieces, ∀ d ∈ piece, cut d = false) :
    splitWhere cut (pieces.flatMap (· ++ [c])) = pieces ++ [[]] := by
  induction pieces with
  | nil => rfl
  | cons piece pieces ih =>
    obtain ⟨hpiece, hpieces⟩ := List.forall_mem_cons.mp h
    rw [List.flatMap_cons, List.append_assoc, List.singleton_append, splitWhere_append_cons hc,
      splitWhere_eq_singleton hpiece, ih hpieces]
    rfl

/-- A piece has characters of the text, and none where it is cut. -/
theorem mem_of_mem_splitWhere (hpiece : piece ∈ splitWhere cut text) (hc : c ∈ piece) :
    c ∈ text ∧ cut c = false := by
  induction text generalizing piece with
  | nil =>
    obtain rfl : piece = [] := by simpa using hpiece
    contradiction
  | cons d text ih =>
    obtain ⟨first, rest, hpieces⟩ := List.exists_cons_of_ne_nil (splitWhere_ne_nil cut text)
    cases hd : cut d with
    | true =>
      rw [splitWhere_cons_of_cut hd] at hpiece
      rcases List.mem_cons.mp hpiece with rfl | hmem
      · contradiction
      · exact (ih hmem hc).imp_left (List.mem_cons_of_mem d)
    | false =>
      rw [splitWhere_cons_of_not_cut hd hpieces] at hpiece
      rcases List.mem_cons.mp hpiece with rfl | hmem
      · rcases List.mem_cons.mp hc with rfl | hfirst
        · exact ⟨List.mem_cons_self .., hd⟩
        · exact (ih (hpieces ▸ List.mem_cons_self ..) hfirst).imp_left (List.mem_cons_of_mem d)
      · exact (ih (hpieces ▸ List.mem_cons_of_mem first hmem) hc).imp_left (List.mem_cons_of_mem d)

/-- What is not cut away is in a piece. -/
theorem exists_mem_splitWhere (hc : c ∈ text) (h : cut c = false) :
    ∃ piece ∈ splitWhere cut text, c ∈ piece := by
  obtain ⟨before, after, rfl⟩ := List.append_of_mem hc
  induction before with
  | nil =>
    obtain ⟨first, rest, hpieces⟩ := List.exists_cons_of_ne_nil (splitWhere_ne_nil cut after)
    rw [List.nil_append, splitWhere_cons_of_not_cut h hpieces]
    exact ⟨c :: first, List.mem_cons_self .., List.mem_cons_self ..⟩
  | cons d before ih =>
    obtain ⟨piece, hpiece, hmem⟩ := ih (by simp)
    cases hd : cut d with
    | true =>
      rw [List.cons_append, splitWhere_cons_of_cut hd]
      exact ⟨piece, List.mem_cons_of_mem _ hpiece, hmem⟩
    | false =>
      obtain ⟨first, rest, hpieces⟩ :=
        List.exists_cons_of_ne_nil (splitWhere_ne_nil cut (before ++ c :: after))
      rw [List.cons_append, splitWhere_cons_of_not_cut hd hpieces]
      rw [hpieces] at hpiece
      rcases List.mem_cons.mp hpiece with rfl | hrest
      · exact ⟨d :: piece, List.mem_cons_self .., List.mem_cons_of_mem d hmem⟩
      · exact ⟨piece, List.mem_cons_of_mem _ hrest, hmem⟩

section Words

/-- A word is not empty and has no blanks. -/
theorem solid_of_mem_words {word : List Char} (h : word ∈ words text) :
    word ≠ [] ∧ ∀ c ∈ word, isBlank c = false := by
  obtain ⟨hpiece, hne⟩ := List.mem_filter.mp h
  exact ⟨by simpa using hne, fun c hc => (mem_of_mem_splitWhere hpiece hc).2⟩

theorem words_append_cons (h : isBlank c = true) (a b : List Char) :
    words (a ++ c :: b) = words a ++ words b := by
  rw [words, splitWhere_append_cons h, List.filter_append]
  rfl

theorem words_cons_of_isBlank (h : isBlank c = true) (text : List Char) :
    words (c :: text) = words text :=
  words_append_cons h [] text

theorem words_blanks_append (h : ∀ c ∈ a, isBlank c = true) (text : List Char) :
    words (a ++ text) = words text := by
  induction a with
  | nil => rfl
  | cons c a ih =>
    rw [List.cons_append, words_cons_of_isBlank (h c (by simp))]
    exact ih fun d hd => h d (by simp [hd])

/-- A text without words has no characters but blanks. -/
theorem words_eq_nil_iff : words text = [] ↔ ∀ c ∈ text, isBlank c = true := by
  constructor
  · intro h c hc
    by_contra hblank
    obtain ⟨piece, hpiece, hmem⟩ := exists_mem_splitWhere hc (Bool.eq_false_iff.mpr hblank)
    have hempty : piece = [] := by simpa using List.filter_eq_nil_iff.mp h piece hpiece
    simp [hempty] at hmem
  · intro h
    simpa using words_blanks_append h []

theorem words_eq_singleton (hne : a ≠ []) (h : ∀ c ∈ a, isBlank c = false) : words a = [a] := by
  rw [words, splitWhere_eq_singleton h]
  simp [hne]

theorem words_append_blanks (text : List Char) (h : ∀ c ∈ b, isBlank c = true) :
    words (text ++ b) = words text := by
  cases b with
  | nil => rw [List.append_nil]
  | cons c b =>
    have hnone := words_blanks_append (a := b) (fun d hd => h d (by simp [hd])) []
    rw [List.append_nil] at hnone
    rw [words_append_cons (h c (by simp)), hnone, words_nil, List.append_nil]

end Words

section Trim

theorem trimStart_cons_of_not_isBlank (h : isBlank c = false) (text : List Char) :
    trimStart (c :: text) = c :: text := by
  rw [trimStart, List.dropWhile_cons_of_neg (by simp [h])]

/-- Trimming the end keeps everything up to a character that is not blank. -/
theorem trimEnd_append_cons (h : isBlank c = false) (a b : List Char) :
    trimEnd (a ++ c :: b) = a ++ c :: trimEnd b := by
  have hreverse : (a ++ c :: b).reverse = b.reverse ++ c :: a.reverse := by simp
  rw [trimEnd, trimEnd, hreverse, List.dropWhile_append]
  cases hb : b.reverse.dropWhile isBlank with
  | nil => simp [h]
  | cons d rest => simp

/-- What trimming takes off the end is blank. -/
theorem exists_trimEnd_append (text : List Char) :
    ∃ blanks, (∀ c ∈ blanks, isBlank c = true) ∧ text = trimEnd text ++ blanks := by
  refine ⟨(text.reverse.takeWhile isBlank).reverse, fun c hc => ?_, ?_⟩
  · exact List.all_eq_true.mp List.all_takeWhile c (List.mem_reverse.mp hc)
  · rw [trimEnd, ← List.reverse_append, List.takeWhile_append_dropWhile, List.reverse_reverse]

theorem words_trimEnd (text : List Char) : words (trimEnd text) = words text := by
  obtain ⟨blanks, hblanks, htext⟩ := exists_trimEnd_append text
  calc words (trimEnd text) = words (trimEnd text ++ blanks) :=
        (words_append_blanks _ hblanks).symm
    _ = words text := by rw [← htext]

theorem trimEnd_trimEnd (text : List Char) : trimEnd (trimEnd text) = trimEnd text := by
  rw [trimEnd, trimEnd, List.reverse_reverse,
    List.dropWhile_eq_self_iff.mpr (List.dropWhile_get_zero_not isBlank _)]

theorem trim_trim (text : List Char) : trim (trim text) = trim text := by
  obtain ⟨blanks, -, htext⟩ := exists_trimEnd_append (trimStart text)
  have hstart : trimStart (trim text) = trim text := by
    cases htrim : trim text with
    | nil => rfl
    | cons c rest =>
      rw [← trim, htrim] at htext
      have hc := List.head?_dropWhile_not isBlank text
      rw [← trimStart, htext] at hc
      exact trimStart_cons_of_not_isBlank (by simpa using hc) rest
  rw [trim, hstart, trim, trimEnd_trimEnd]

theorem trim_eq_self (h : ∀ c ∈ text, isBlank c = false) : trim text = text := by
  have hdrop : ∀ other : List Char, (∀ c ∈ other, isBlank c = false) →
      other.dropWhile isBlank = other := by
    intro other hother
    exact List.dropWhile_eq_self_iff.mpr fun hl => by simp [hother _ (List.getElem_mem hl)]
  rw [trim, trimStart, hdrop text h, trimEnd,
    hdrop text.reverse fun c hc => h c (List.mem_reverse.mp hc), List.reverse_reverse]

theorem mem_of_mem_trimEnd (h : c ∈ trimEnd text) : c ∈ text :=
  List.mem_reverse.mp ((List.dropWhile_sublist _).mem (List.mem_reverse.mp h))

theorem mem_of_mem_trim (h : c ∈ trim text) : c ∈ text :=
  (List.dropWhile_sublist _).mem (mem_of_mem_trimEnd h)

end Trim

section Lines

theorem dropCarriageReturn_of_notMem (h : '\r' ∉ a) : dropCarriageReturn a = a := by
  rw [dropCarriageReturn]
  split
  · rename_i hlast
    exact absurd (List.mem_of_getLast? hlast) h
  · rfl

theorem exists_dropCarriageReturn_append (h : '\r' ∉ a) (b : List Char) :
    ∃ rest, dropCarriageReturn (a ++ b) = a ++ rest := by
  rw [dropCarriageReturn]
  split
  · rename_i hlast
    by_cases hb : b = []
    · rw [hb, List.append_nil] at hlast
      exact absurd (List.mem_of_getLast? hlast) h
    · exact ⟨b.dropLast, List.dropLast_append_of_ne_nil hb⟩
  · exact ⟨b, rfl⟩

/-- A newline ends a line, which loses one carriage return at its end. -/
theorem lines_append_newline (h : '\n' ∉ a) (text : List Char) :
    lines (a ++ '\n' :: text) = dropCarriageReturn a :: lines text := by
  have hline : splitWhere (· == '\n') a = [a] :=
    splitWhere_eq_singleton fun c hc => by
      rw [beq_eq_false_iff_ne]
      exact ne_of_mem_of_not_mem hc h
  rw [lines, splitWhere_append_cons (by rfl), hline, List.singleton_append]
  obtain ⟨piece, rest, hpieces⟩ := List.exists_cons_of_ne_nil (splitWhere_ne_nil (· == '\n') text)
  rw [lines, hpieces]
  rfl

/-- Texts that are ended by newlines each are the lines before what follows. -/
theorem lines_flatMap_newline {ls : List (List Char)} (h : ∀ line ∈ ls, '\n' ∉ line ∧ '\r' ∉ line)
    (text : List Char) : lines (ls.flatMap (· ++ ['\n']) ++ text) = ls ++ lines text := by
  induction ls with
  | nil => rfl
  | cons line ls ih =>
    obtain ⟨hnewline, hreturn⟩ := h line (by simp)
    rw [List.flatMap_cons, List.append_assoc, List.append_assoc, List.singleton_append,
      lines_append_newline hnewline, dropCarriageReturn_of_notMem hreturn,
      ih fun other hother => h other (by simp [hother]), List.cons_append]

theorem mem_of_mem_dropCarriageReturn (h : c ∈ dropCarriageReturn a) : c ∈ a := by
  unfold dropCarriageReturn at h
  split at h
  · exact List.dropLast_subset a h
  · exact h

/-- The lines have no newlines. -/
theorem notMem_of_mem_lines (h : a ∈ lines text) : '\n' ∉ a := by
  have hpiece : ∀ pieces : List (List Char), (∀ piece ∈ pieces, '\n' ∉ piece) →
      ∀ line ∈ closeLines pieces, '\n' ∉ line := by
    intro pieces hpieces
    fun_induction closeLines pieces with
    | case1 => nofun
    | case2 last _ => nofun
    | case3 last _ => exact hpieces
    | case4 line rest _ ih =>
      rw [List.forall_mem_cons] at hpieces ⊢
      exact ⟨fun hmem => hpieces.1 (mem_of_mem_dropCarriageReturn hmem), ih hpieces.2⟩
  refine hpiece _ (fun piece hmem hnewline => ?_) a h
  simpa using (mem_of_mem_splitWhere hmem hnewline).2

theorem closeLines_append (closed : List (List Char)) {more : List (List Char)}
    (h : more ≠ []) :
    closeLines (closed ++ more) = closed.map dropCarriageReturn ++ closeLines more := by
  induction closed with
  | nil => rfl
  | cons line closed ih =>
    have hrest : closed ++ more ≠ [] := by simp [h]
    rw [List.cons_append, closeLines, ih]
    · rfl
    · exact hrest

/-- A text that is empty or ends with a newline has no part in the lines of what follows. -/
theorem lines_append_of_ended (h : ∀ c ∈ a.getLast?, c = '\n') (b : List Char) :
    lines (a ++ b) = lines a ++ lines b := by
  rcases List.eq_nil_or_concat a with rfl | ⟨a, c, rfl⟩
  · rfl
  · obtain rfl : c = '\n' := h c (by simp)
    have hended : lines (a ++ ['\n']) = (splitWhere (· == '\n') a).map dropCarriageReturn := by
      rw [lines, splitWhere_append_cons (by rfl), closeLines_append _ (splitWhere_ne_nil _ _)]
      exact List.append_nil _
    rw [List.concat_eq_append, hended, List.append_assoc, List.singleton_append, lines,
      splitWhere_append_cons (by rfl), closeLines_append _ (splitWhere_ne_nil _ _), lines]

/-- What stands before the first newline begins the first line. -/
theorem exists_lines_append (hne : a ≠ []) (hnewline : '\n' ∉ a) (hreturn : '\r' ∉ a)
    (text : List Char) : ∃ rest others, lines (a ++ text) = (a ++ rest) :: others := by
  obtain ⟨piece, pieces, hpieces⟩ :=
    List.exists_cons_of_ne_nil (splitWhere_ne_nil (· == '\n') text)
  have hcut : splitWhere (· == '\n') (a ++ text) = (a ++ piece) :: pieces :=
    splitWhere_append (fun c hc => by
      rw [beq_eq_false_iff_ne]
      exact ne_of_mem_of_not_mem hc hnewline) hpieces
  rw [lines, hcut]
  cases pieces with
  | nil => exact ⟨piece, [], by simp [closeLines, hne]⟩
  | cons next pieces =>
    obtain ⟨rest, hrest⟩ := exists_dropCarriageReturn_append hreturn piece
    exact ⟨rest, _, by rw [closeLines, hrest]; nofun⟩

end Lines

end PoolGauge.Text
