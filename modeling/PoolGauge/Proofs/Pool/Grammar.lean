import PoolGauge.Proofs.Pool.Printed
import PoolGauge.Proofs.Pool.Rows

/-!
# The grammar of a status text

A status text has a header, which ends with the titles and blank lines, the row of the root, and
rows each of which may stand below the one before it, up to a blank line. What follows that line can
only report a number of errors. A text that is not of this form is refused for the first thing in it
that is wrong.
-/
namespace PoolGauge

namespace PoolStatus

/-- The first two cells of the line are the titles of the table. -/
def HasTitles (line : List Char) : Prop :=
  ∃ cells, Text.words line = "NAME".toList :: "STATE".toList :: cells

def Blank (line : List Char) : Prop :=
  ∀ c ∈ line, Text.isBlank c = true

def firstCell? (line : List Char) : Option (List Char) :=
  (Text.words line).head?

/-- The line is the row of the root: a tab, less than two spaces, and the name of the pool. -/
structure RootLine (pool : String) (line : List Char) : Prop where
  tab : line.head? = some '\t'
  shallow : ((line.drop 1).takeWhile (· == ' ')).length < 2
  name : firstCell? line = some pool.toList

/-- A row may stand below another one: it opens a section on the root's level, or it is to the
right of that level and at most one level further right than the other row. -/
structure MayFollow (above line : List Char) : Prop where
  tab : line.head? = some '\t'
  place : (indentation line = 0 ∧ ∃ name : SectionName, firstCell? line = some name.word.chars) ∨
    (1 ≤ indentation line ∧ indentation line ≤ indentation above + 1)

/-- The lines begin with a header: some without the titles, the titles, and blank ones. What
follows it is the body. -/
inductive Headed (body : List (List Char)) : List (List Char) → Prop
  | intro {preface gap : List (List Char)} {titles : List Char}
      (plain : ∀ line ∈ preface, ¬ HasTitles line) (titled : HasTitles titles)
      (blank : ∀ line ∈ gap, Blank line) : Headed body (preface ++ titles :: (gap ++ body))

/-- The lines show a table with some rows below the root's, which nothing or a blank line ends. -/
structure Tabled (pool : String) (lines : List (List Char)) (root : List Char)
    (rows rest : List (List Char)) : Prop where
  headed : Headed (root :: (rows ++ rest)) lines
  first : RootLine pool root
  chain : (root :: rows).IsChain MayFollow
  written : ∀ line ∈ rows, ¬ Blank line
  ended : ∀ line ∈ rest.head?, Blank line

def Announces (line : List Char) : Prop :=
  "errors:".toList <+: Text.trim line

/-- The number that the first report of errors begins with, zero if it begins with none or there is
no report. -/
inductive Reports : List (List Char) → UInt64 → Prop
  | unannounced {lines : List (List Char)} (silent : ∀ line ∈ lines, ¬ Announces line) :
      Reports lines 0
  | counted {before after : List (List Char)} {line summary word : List Char} {n : UInt64}
      (silent : ∀ other ∈ before, ¬ Announces other)
      (announced : Text.trim line = "errors:".toList ++ summary)
      (first : (Text.words summary).head? = some word) (count : Number.readWord word = some n) :
      Reports (before ++ line :: after) n
  | uncounted {before after : List (List Char)} {line summary : List Char}
      (silent : ∀ other ∈ before, ¬ Announces other)
      (announced : Text.trim line = "errors:".toList ++ summary)
      (noCount : ∀ word ∈ (Text.words summary).head?, Number.readWord word = none) :
      Reports (before ++ line :: after) 0

section Faults

/-- What is wrong with a line that should be the root's row. -/
inductive RootFault (pool : String) (line : List Char) : StatusFault → Prop
  | untabbed (tab : line.head? ≠ some '\t') : RootFault pool line (.malformedRow line)
  | other {label : List Char} (tab : line.head? = some '\t')
      (first : firstCell? line = some label) (wrong : ¬ RootLine pool line) :
      RootFault pool line (.wrongRoot pool (String.ofList label))

/-- What is wrong with a line that should be a row below another one. -/
inductive RowFault (above line : List Char) : StatusFault → Prop
  | untabbed (tab : line.head? ≠ some '\t') : RowFault above line (.malformedRow line)
  | unknown {label : List Char} (tab : line.head? = some '\t')
      (first : firstCell? line = some label) (level : indentation line = 0)
      (word : ∀ name : SectionName, label ≠ name.word.chars) :
      RowFault above line (.unknownSection (String.ofList label))
  | detached {label : List Char} (tab : line.head? = some '\t')
      (first : firstCell? line = some label)
      (level : indentation above + 1 < indentation line) :
      RowFault above line (.detachedRow (String.ofList label))

/-- The first thing that is wrong with the lines of a status text. -/
inductive Refused (pool : String) : List (List Char) → StatusFault → Prop
  | missingTable {lines : List (List Char)} (plain : ∀ line ∈ lines, ¬ HasTitles line) :
      Refused pool lines .missingTable
  | missingRoot {lines : List (List Char)} (headed : Headed [] lines) :
      Refused pool lines .missingRoot
  | root {lines rest : List (List Char)} {line : List Char} {fault : StatusFault}
      (headed : Headed (line :: rest) lines) (written : ¬ Blank line)
      (wrong : RootFault pool line fault) : Refused pool lines fault
  | row {lines rows rest : List (List Char)} {root above line : List Char} {fault : StatusFault}
      (headed : Headed (root :: (rows ++ line :: rest)) lines) (first : RootLine pool root)
      (chain : (root :: rows).IsChain MayFollow)
      (written : ∀ other ∈ rows ++ [line], ¬ Blank other)
      (last : (root :: rows).getLast? = some above) (wrong : RowFault above line fault) :
      Refused pool lines fault

end Faults

section Lines

theorem isTitle_iff {line : List Char} : isTitle line = true ↔ HasTitles line := by
  rw [isTitle, HasTitles]
  split
  · rename_i first second cells hwords
    rw [hwords, Bool.and_eq_true, beq_iff_eq, beq_iff_eq, ← String.toList_inj,
      ← String.toList_inj, String.toList_ofList, String.toList_ofList]
    simp
  · rename_i hwords
    simp only [Bool.false_eq_true, false_iff, not_exists]
    exact fun cells hcells => hwords _ _ _ hcells

theorem isBlankLine_iff {line : List Char} : isBlankLine line = true ↔ Blank line :=
  List.all_eq_true

theorem isBlankLine_eq_false_iff {line : List Char} : isBlankLine line = false ↔ ¬ Blank line := by
  rw [← isBlankLine_iff, Bool.not_eq_true]

/-- A line with a tab is a row just if it is not blank. -/
theorem exists_read? {line : List Char} (htab : line.head? = some '\t') (hwritten : ¬ Blank line) :
    ∃ row, StatusRow.read? line = some row ∧ row.depth = indentation line ∧
      firstCell? line = some row.label.toList := by
  obtain ⟨rest, rfl⟩ : ∃ rest, line = '\t' :: rest := by
    cases line with
    | nil => contradiction
    | cons c rest => exact ⟨rest, by rw [Option.some.inj htab]⟩
  have hcells : Text.words ('\t' :: rest) = Text.words rest :=
    Text.words_cons_of_isBlank (by rfl) rest
  cases hwords : Text.words rest with
  | nil =>
    have hblank : Blank ('\t' :: rest) := Text.words_eq_nil_iff.mp (hcells.trans hwords)
    exact absurd hblank hwritten
  | cons label cells =>
    have hread : ∃ row, StatusRow.read? ('\t' :: rest) = some row ∧ row.label.toList = label := by
      rw [StatusRow.read?, hwords]
      exact ⟨_, rfl, String.toList_ofList⟩
    obtain ⟨row, hrow, hlabel⟩ := hread
    exact ⟨row, hrow, depth_of_read? hrow, by rw [firstCell?, hcells, hwords, hlabel]; rfl⟩

/-- The word of a section is one of the five names. -/
theorem exists_sectionName {label : String} {kind : VdevKind}
    (h : VdevKind.ofSection? label = some kind) :
    ∃ name : SectionName, label.toList = name.word.chars := by
  unfold VdevKind.ofSection? at h
  split at h
  · exact ⟨.logs, rfl⟩
  · exact ⟨.cache, rfl⟩
  · exact ⟨.spares, rfl⟩
  · exact ⟨.special, rfl⟩
  · exact ⟨.dedup, rfl⟩
  · contradiction

theorem ofSection?_of_chars {label : String} {name : SectionName}
    (h : label.toList = name.word.chars) : VdevKind.ofSection? label = some name.kind := by
  rw [← name.ofSection?_word, Word.text, ← h, String.ofList_toList]

end Lines

end PoolStatus

namespace StatusTable

open PoolStatus

variable {t u : StatusTable} {row : StatusRow} {pool : String} {level : Nat}
  {above line : List Char} {rows : List (List Char)} {fault : StatusFault}

/-- The path goes from the root's level to a level, through vdevs of the tree. -/
structure Standing (t : StatusTable) (level : Nat) : Prop where
  length : t.path.length = level + 1
  inside : ∀ p ∈ t.path, p < t.tree.size

def ofLines (pool : String) (root : List Char) (rows : List (List Char)) :
    Except StatusFault StatusTable := do
  let first ← StatusRow.read root >>= ofRoot pool
  rows.foldlM addLine first

theorem standing_ofRoot (h : ofRoot pool row = .ok t) : t.Standing 0 := by
  obtain ⟨-, -, rfl⟩ := ofRoot_eq_ok h
  exact ⟨rfl, by simp⟩

theorem Standing.addRow (s : t.Standing level) (h : t.addRow row = .ok u) :
    u.Standing row.depth := by
  have hsize := size_addRow h
  refine ⟨(depth_le_of_addRow h).2, fun p hp => ?_⟩
  rw [(addRow_eq_ok h).1, List.mem_append, List.mem_singleton] at hp
  rcases hp with hold | rfl
  · have := s.inside p (List.mem_of_mem_take hold)
    omega
  · omega

theorem exists_addRow_of_section {kind : VdevKind} (hdepth : row.depth = 0)
    (hkind : VdevKind.ofSection? row.label = some kind) : ∃ u, t.addRow row = .ok u := by
  obtain ⟨tree, hpush⟩ := exists_push? (t := t) t.tree.nonempty row.label kind
    (if row.state.isSome then row.health else t.tree.root.state) row.errors
  exact ⟨_, addRow_of_section hdepth hkind hpush⟩

theorem addRow_of_unknown (hdepth : row.depth = 0)
    (hkind : VdevKind.ofSection? row.label = none) :
    t.addRow row = .error (.unknownSection row.label) := by
  simp [StatusTable.addRow, hdepth, addSection, hkind]

theorem Standing.exists_addRow (s : t.Standing level) (hpos : 1 ≤ row.depth)
    (hdepth : row.depth ≤ level + 1) : ∃ u, t.addRow row = .ok u := by
  obtain ⟨upper, hupper⟩ : ∃ upper, row.depth = upper + 1 := ⟨row.depth - 1, by omega⟩
  have hlength : upper < t.path.length := by
    rw [s.length]
    omega
  have hparent : t.path[upper] < t.tree.size := s.inside _ (List.getElem_mem hlength)
  obtain ⟨tree, hpush⟩ :=
    exists_push? hparent row.label (.ofLabel row.label) row.health row.errors
  exact ⟨_, addRow_of_path hupper (List.getElem?_eq_getElem hlength) hpush⟩

theorem Standing.addRow_of_deep (s : t.Standing level) (hdepth : level + 1 < row.depth) :
    t.addRow row = .error (.detachedRow row.label) := by
  obtain ⟨upper, hupper⟩ : ∃ upper, row.depth = upper + 1 := ⟨row.depth - 1, by omega⟩
  have hnone : t.path[upper]? = none := by
    rw [List.getElem?_eq_none_iff, s.length]
    omega
  simp [StatusTable.addRow, hupper, hnone]

theorem addLine_of_read? (h : StatusRow.read? line = some row) : t.addLine line = t.addRow row := by
  rw [addLine, StatusRow.read, h]
  rfl

theorem read?_of_untabbed (h : line.head? ≠ some '\t') : StatusRow.read? line = none := by
  cases line with
  | nil => rfl
  | cons c rest =>
    have hc : c ≠ '\t' := fun heq => h (congrArg some heq)
    simp [StatusRow.read?, hc]

/-- A row that may follow the last one is taken, and is the last one then. -/
theorem Standing.exists_addLine (s : t.Standing (indentation above)) (h : MayFollow above line)
    (hwritten : ¬ Blank line) :
    ∃ u, t.addLine line = .ok u ∧ u.Standing (indentation line) := by
  obtain ⟨row, hread, hdepth, hfirst⟩ := exists_read? h.tab hwritten
  rw [addLine_of_read? hread, ← hdepth]
  have htaken : ∃ u, t.addRow row = .ok u := by
    obtain ⟨hzero, name, hname⟩ | ⟨hpos, hle⟩ := h.place
    · have hword : row.label.toList = name.word.chars :=
        Option.some.inj (hfirst.symm.trans hname)
      exact exists_addRow_of_section (hdepth.trans hzero) (ofSection?_of_chars hword)
    · exact s.exists_addRow (hdepth ▸ hpos) (hdepth ▸ hle)
  obtain ⟨u, hu⟩ := htaken
  exact ⟨u, hu, s.addRow hu⟩

theorem Standing.addLine_of_rowFault (s : t.Standing (indentation above))
    (hwritten : ¬ Blank line) (h : RowFault above line fault) : t.addLine line = .error fault := by
  cases h with
  | untabbed tab =>
    rw [addLine, StatusRow.read, read?_of_untabbed tab]
    rfl
  | @unknown label tab first hzero word =>
    obtain ⟨row, hread, hdepth, hfirst⟩ := exists_read? tab hwritten
    obtain rfl : row.label.toList = label := Option.some.inj (hfirst.symm.trans first)
    rw [addLine_of_read? hread, String.ofList_toList]
    refine addRow_of_unknown (hdepth.trans hzero) ?_
    rw [Option.eq_none_iff_forall_ne_some]
    intro kind hkind
    obtain ⟨name, hname⟩ := exists_sectionName hkind
    exact word name hname
  | @detached label tab first hdeep =>
    obtain ⟨row, hread, hdepth, hfirst⟩ := exists_read? tab hwritten
    obtain rfl : row.label.toList = label := Option.some.inj (hfirst.symm.trans first)
    rw [addLine_of_read? hread, String.ofList_toList]
    exact s.addRow_of_deep (hdepth ▸ hdeep)

/-- Rows each of which may follow the one before are all taken. -/
theorem Standing.exists_foldlM (s : t.Standing (indentation above))
    (chain : (above :: rows).IsChain MayFollow) (written : ∀ line ∈ rows, ¬ Blank line) :
    ∃ u, rows.foldlM addLine t = .ok u ∧
      ∀ last ∈ (above :: rows).getLast?, u.Standing (indentation last) := by
  induction rows generalizing t above with
  | nil => exact ⟨t, rfl, by simpa using s⟩
  | cons line rest ih =>
    obtain ⟨hfollow, hchain⟩ := List.isChain_cons_cons.mp chain
    obtain ⟨hline, hrest⟩ := List.forall_mem_cons.mp written
    obtain ⟨middle, hmiddle, hstanding⟩ := s.exists_addLine hfollow hline
    obtain ⟨u, hu, hlast⟩ := ih hstanding hchain hrest
    refine ⟨u, ?_, by rwa [List.getLast?_cons_cons]⟩
    rw [List.foldlM_cons, hmiddle]
    exact hu

end StatusTable

namespace PoolStatus

variable {pool : String} {lines body rows rest : List (List Char)} {root above line : List Char}
  {fault : StatusFault}

section Decision

/-- A line can stand below another one in the table, or something is wrong with it. -/
theorem mayFollow_or_rowFault (above : List Char) (hwritten : ¬ Blank line) :
    MayFollow above line ∨ ∃ fault, RowFault above line fault := by
  by_cases htab : line.head? = some '\t'
  · obtain ⟨row, -, -, hfirst⟩ := exists_read? htab hwritten
    rcases Nat.eq_zero_or_pos (indentation line) with hzero | hpos
    · by_cases hname : ∃ name : SectionName, row.label.toList = name.word.chars
      · obtain ⟨name, hname⟩ := hname
        exact .inl ⟨htab, .inl ⟨hzero, name, by rw [hfirst, hname]⟩⟩
      · exact .inr ⟨_, .unknown htab hfirst hzero fun name h => hname ⟨name, h⟩⟩
    · rcases Nat.lt_or_ge (indentation above + 1) (indentation line) with hdeep | hle
      · exact .inr ⟨_, .detached htab hfirst hdeep⟩
      · exact .inl ⟨htab, .inr ⟨hpos, hle⟩⟩
  · exact .inr ⟨_, .untabbed htab⟩

theorem rootLine_or_rootFault (pool : String) (hwritten : ¬ Blank line) :
    RootLine pool line ∨ ∃ fault, RootFault pool line fault := by
  by_cases hroot : RootLine pool line
  · exact .inl hroot
  · by_cases htab : line.head? = some '\t'
    · obtain ⟨row, -, -, hfirst⟩ := exists_read? htab hwritten
      exact .inr ⟨_, .other htab hfirst hroot⟩
    · exact .inr ⟨_, .untabbed htab⟩

/-- Of some rows each may follow the one before, or there is a first that may not. -/
theorem isChain_or_exists_rowFault (above : List Char) (written : ∀ line ∈ rows, ¬ Blank line) :
    (above :: rows).IsChain MayFollow ∨ ∃ good line more last fault, rows = good ++ line :: more ∧
      (above :: good).IsChain MayFollow ∧ (above :: good).getLast? = some last ∧
      RowFault last line fault := by
  induction rows generalizing above with
  | nil => exact .inl (List.IsChain.singleton above)
  | cons line rest ih =>
    obtain ⟨hline, hrest⟩ := List.forall_mem_cons.mp written
    rcases mayFollow_or_rowFault above hline with hfollow | ⟨fault, hfault⟩
    · rcases ih line hrest with hchain | ⟨good, bad, more, last, fault, rfl, hchain, hlast, hfault⟩
      · exact .inl (List.isChain_cons_cons.mpr ⟨hfollow, hchain⟩)
      · exact .inr ⟨line :: good, bad, more, last, fault, rfl,
          List.isChain_cons_cons.mpr ⟨hfollow, hchain⟩, by rwa [List.getLast?_cons_cons], hfault⟩
    · exact .inr ⟨[], line, rest, above, fault, rfl, List.IsChain.singleton above, rfl, hfault⟩

/-- Some lines are all of a kind up to a first that is not. -/
theorem exists_first_not (p : List Char → Prop) (lines : List (List Char)) :
    ∃ before rest, lines = before ++ rest ∧ (∀ line ∈ before, p line) ∧
      ∀ line ∈ rest.head?, ¬ p line := by
  classical
  refine ⟨lines.takeWhile (p ·), lines.dropWhile (p ·), List.takeWhile_append_dropWhile.symm,
    fun line hline => by simpa using List.mem_takeWhile_imp hline, fun line hline => ?_⟩
  have hhead := List.head?_dropWhile_not (fun line => decide (p line)) lines
  rw [Option.mem_def.mp hline] at hhead
  simpa using hhead

/-- Some lines show the table of a pool, or something is wrong with them. -/
theorem tabled_or_refused (pool : String) (lines : List (List Char)) :
    (∃ root rows rest, Tabled pool lines root rows rest) ∨ ∃ fault, Refused pool lines fault := by
  obtain ⟨preface, titled, rfl, hplain, htitled⟩ := exists_first_not (¬ HasTitles ·) lines
  cases titled with
  | nil => exact .inr ⟨_, .missingTable (by simpa using hplain)⟩
  | cons titles rest =>
    obtain ⟨gap, body, rfl, hgap, hbody⟩ := exists_first_not Blank rest
    have headed : Headed body (preface ++ titles :: (gap ++ body)) :=
      .intro hplain (not_not.mp (htitled titles rfl)) hgap
    cases body with
    | nil => exact .inr ⟨_, .missingRoot headed⟩
    | cons root body =>
      have hroot : ¬ Blank root := hbody root rfl
      rcases rootLine_or_rootFault pool hroot with hline | ⟨fault, hfault⟩
      · obtain ⟨rows, rest, rfl, hwritten, hended⟩ := exists_first_not (¬ Blank ·) body
        rcases isChain_or_exists_rowFault root hwritten with
          hchain | ⟨good, bad, more, last, fault, rfl, hchain, hlast, hfault⟩
        · exact .inl ⟨root, rows, rest, headed, hline, hchain, hwritten,
            fun line hmem => not_not.mp (hended line hmem)⟩
        · refine .inr ⟨fault, ?_⟩
          rw [List.append_assoc, List.cons_append] at headed ⊢
          refine .row headed hline hchain (fun other hother => hwritten other ?_) hlast hfault
          rw [List.mem_append, List.mem_singleton] at hother
          rw [List.mem_append, List.mem_cons]
          exact hother.imp_right .inl
      · exact .inr ⟨fault, .root headed hroot hfault⟩

end Decision

section Reading

variable {output : String}

/-- A text with a header is read from what follows it. -/
theorem parse_of_headed (h : Headed body (Text.lines output.toList)) :
    parse pool output = ofLines pool body := by
  generalize hlines : Text.lines output.toList = lines at h
  cases h with
  | @intro preface gap titles plain titled blank =>
    have hplain : ∀ line ∈ preface, isTitle line = false := fun line hline =>
      Bool.eq_false_iff.mpr fun htitle => plain line hline (isTitle_iff.mp htitle)
    rw [parse, hlines, afterTitle?_append hplain (isTitle_iff.mpr titled)]
    change ofLines pool (gap ++ body) = _
    rw [ofLines, ofLines,
      List.dropWhile_append_of_pos fun line hline => isBlankLine_iff.mpr (blank line hline)]

theorem RootLine.not_blank (h : RootLine pool root) : ¬ Blank root := by
  intro hblank
  have hname := h.name
  rw [firstCell?, Text.words_eq_nil_iff.mpr hblank] at hname
  contradiction

theorem RootLine.indentation_eq (h : RootLine pool root) : indentation root = 0 :=
  Nat.div_eq_of_lt h.shallow

theorem RootLine.exists_ofRoot (h : RootLine pool root) :
    ∃ t, StatusRow.read root >>= StatusTable.ofRoot pool = .ok t ∧
      t.Standing (indentation root) := by
  obtain ⟨row, hread, hdepth, hfirst⟩ := exists_read? h.tab h.not_blank
  have hlabel : row.label = pool :=
    String.toList_inj.mp (Option.some.inj (hfirst.symm.trans h.name))
  have hroot : StatusTable.ofRoot pool row = .ok ⟨.single pool row.health row.errors, [0]⟩ :=
    if_pos ⟨hdepth.trans h.indentation_eq, hlabel⟩
  rw [StatusRow.read, hread, h.indentation_eq]
  exact ⟨_, hroot, StatusTable.standing_ofRoot hroot⟩

theorem RootFault.ofRoot_eq (h : RootFault pool root fault) (hwritten : ¬ Blank root) :
    StatusRow.read root >>= StatusTable.ofRoot pool = .error fault := by
  cases h with
  | untabbed tab =>
    rw [StatusRow.read, StatusTable.read?_of_untabbed tab]
    rfl
  | @other label tab first wrong =>
    obtain ⟨row, hread, hdepth, hfirst⟩ := exists_read? tab hwritten
    obtain rfl : row.label.toList = label := Option.some.inj (hfirst.symm.trans first)
    rw [StatusRow.read, hread, String.ofList_toList]
    refine if_neg fun hroot => wrong ⟨tab, ?_, by rw [hfirst, hroot.2]⟩
    have hzero : indentation root = 0 := hdepth ▸ hroot.1
    rw [indentation] at hzero
    omega

/-- A table is read row by row, and what follows it for the number of errors. -/
theorem parse_of_headed_table (headed : Headed (root :: (rows ++ rest)) (Text.lines output.toList))
    (hroot : ¬ Blank root) (written : ∀ line ∈ rows, ¬ Blank line)
    (ended : ∀ line ∈ rest.head?, Blank line) : parse pool output =
      (StatusTable.ofLines pool root rows).map fun table =>
        ⟨table.tree, errorCountOf (rest.drop 1)⟩ := by
  rw [parse_of_headed headed, ofLines_table (isBlankLine_eq_false_iff.mpr hroot)
    (fun line hline => isBlankLine_eq_false_iff.mpr (written line hline))
    (fun line hline => isBlankLine_iff.mpr (ended line hline)), StatusTable.ofLines]
  cases StatusRow.read root >>= StatusTable.ofRoot pool with
  | error fault => rfl
  | ok first =>
    change (rows.foldlM StatusTable.addLine first >>= _) = Except.map _ (rows.foldlM _ first)
    cases rows.foldlM StatusTable.addLine first <;> rfl

/-- A table is accepted, with the tree that its rows build. -/
theorem Tabled.exists_parse (h : Tabled pool (Text.lines output.toList) root rows rest) :
    ∃ table, StatusTable.ofLines pool root rows = .ok table ∧
      parse pool output = .ok ⟨table.tree, errorCountOf (rest.drop 1)⟩ := by
  obtain ⟨first, hfirst, hstanding⟩ := h.first.exists_ofRoot
  obtain ⟨table, htable, -⟩ := hstanding.exists_foldlM h.chain h.written
  have hlines : StatusTable.ofLines pool root rows = .ok table := by
    rw [StatusTable.ofLines, hfirst]
    exact htable
  exact ⟨table, hlines,
    by rw [parse_of_headed_table h.headed h.first.not_blank h.written h.ended, hlines]; rfl⟩

/-- A text is refused for the first thing that is wrong with it. -/
theorem Refused.parse_eq (h : Refused pool (Text.lines output.toList) fault) :
    parse pool output = .error fault := by
  cases h with
  | missingTable plain =>
    have hafter : afterTitle? (Text.lines output.toList) = none := by
      rw [afterTitle?, List.dropWhile_eq_nil_iff.mpr]
      intro line hline
      rw [Bool.not_eq_true', Bool.eq_false_iff]
      exact fun htitle => plain line hline (isTitle_iff.mp htitle)
    rw [parse, hafter]
  | missingRoot headed => rw [parse_of_headed headed, ofLines, List.dropWhile_nil]
  | @root rest line _ headed written wrong =>
    obtain ⟨rows, rest, rfl, hwritten, hended⟩ := exists_first_not (¬ Blank ·) rest
    rw [parse_of_headed_table headed written hwritten fun l hl => not_not.mp (hended l hl),
      StatusTable.ofLines, wrong.ofRoot_eq written]
    rfl
  | @row rows rest root above line _ headed first chain written last wrong =>
    obtain ⟨more, rest, rfl, hmore, hended⟩ := exists_first_not (¬ Blank ·) rest
    have hrows : ∀ other ∈ rows, ¬ Blank other := fun other hother =>
      written other (List.mem_append_left _ hother)
    have hline : ¬ Blank line := written line (by simp)
    have hall : ∀ other ∈ rows ++ line :: more, ¬ Blank other := by
      intro other hother
      rcases List.mem_append.mp hother with hbefore | hafter
      · exact hrows other hbefore
      · rcases List.mem_cons.mp hafter with rfl | hmem
        · exact hline
        · exact hmore other hmem
    have hsplit : rows ++ line :: (more ++ rest) = rows ++ line :: more ++ rest := by
      rw [List.append_assoc, List.cons_append]
    rw [hsplit] at headed
    obtain ⟨t, ht, hstanding⟩ := first.exists_ofRoot
    obtain ⟨u, hu, hlast⟩ := hstanding.exists_foldlM chain hrows
    have hlines : StatusTable.ofLines pool root (rows ++ line :: more) = .error fault := by
      rw [StatusTable.ofLines, ht]
      change (rows ++ line :: more).foldlM StatusTable.addLine t = _
      rw [List.foldlM_append, hu]
      change (line :: more).foldlM StatusTable.addLine u = _
      rw [List.foldlM_cons, (hlast above last).addLine_of_rowFault hline wrong]
      rfl
    rw [parse_of_headed_table headed first.not_blank hall fun l hl => not_not.mp (hended l hl),
      hlines]
    rfl

theorem parse_eq_error_iff :
    parse pool output = .error fault ↔ Refused pool (Text.lines output.toList) fault := by
  refine ⟨fun h => ?_, Refused.parse_eq⟩
  rcases tabled_or_refused pool (Text.lines output.toList) with
    ⟨root, rows, rest, htabled⟩ | ⟨other, hrefused⟩
  · obtain ⟨table, -, hparse⟩ := htabled.exists_parse
    rw [hparse] at h
    contradiction
  · obtain rfl := Except.error.inj (h.symm.trans hrefused.parse_eq)
    exact hrefused

theorem read_eq_ok_iff {status : PoolStatus} :
    read pool output = .ok status ↔ parse pool output = .ok status := by
  refine ⟨parse_of_read, fun h => ?_⟩
  rw [read, h]
  rfl

theorem read_eq_error_iff {failure : Failure} : read pool output = .error failure ↔
    ∃ fault, parse pool output = .error fault ∧ failure = fault.failure pool := by
  rw [read]
  cases parse pool output <;> simp [Except.mapError, eq_comm]

end Reading

section Errors

theorem announces_iff : Announces line ↔ ∃ summary, errorSummary? line = some summary := by
  rw [Announces, errorSummary?, ← List.isPrefixOf_iff_prefix]
  change _ ↔ ∃ summary, (if "errors:".toList.isPrefixOf (Text.trim line) = true then _ else _) = _
  split <;> simp_all

theorem errorSummary?_eq_some {summary : List Char} (h : errorSummary? line = some summary) :
    Text.trim line = "errors:".toList ++ summary := by
  change (if "errors:".toList.isPrefixOf (Text.trim line) = true then
    some ((Text.trim line).drop "errors:".toList.length) else none) = _ at h
  split at h
  · rename_i hprefix
    obtain ⟨found, hfound⟩ := List.isPrefixOf_iff_prefix.mp hprefix
    rw [← hfound, List.drop_left] at h
    rw [← hfound, Option.some.inj h]
  · contradiction

/-- The first report of errors counts them. -/
theorem reports_errorCountOf (lines : List (List Char)) : Reports lines (errorCountOf lines) := by
  rw [errorCountOf]
  cases hsummary : lines.findSome? errorSummary? with
  | none =>
    refine .unannounced fun line hline hannounces => ?_
    obtain ⟨summary, hsome⟩ := announces_iff.mp hannounces
    rw [List.findSome?_eq_none_iff.mp hsummary line hline] at hsome
    contradiction
  | some summary =>
    obtain ⟨before, line, after, rfl, hsome, hbefore⟩ := List.findSome?_eq_some_iff.mp hsummary
    have silent : ∀ other ∈ before, ¬ Announces other := by
      intro other hother hannounces
      obtain ⟨found, hfound⟩ := announces_iff.mp hannounces
      rw [hbefore other hother] at hfound
      contradiction
    have announced := errorSummary?_eq_some hsome
    rw [Option.map_some, Option.getD_some, readErrorCount]
    cases hfirst : (Text.words summary).head? with
    | none => exact .uncounted silent announced (by simp [hfirst])
    | some word =>
      rw [Option.bind_some]
      cases hcount : Number.readWord word with
      | none => exact .uncounted silent announced (by simp [hfirst, hcount])
      | some n => exact .counted silent announced hfirst hcount

theorem Blank.not_announces (h : Blank line) : ¬ Announces line := by
  have htrim : Text.trim line = [] := by
    rw [Text.trim, Text.trimStart, List.dropWhile_eq_nil_iff.mpr h, Text.trimEnd_nil]
  rw [Announces, htrim, List.prefix_nil]
  decide

/-- A blank line reports nothing. -/
theorem Reports.cons_blank {n : UInt64} (h : Reports lines n) (hblank : Blank line) :
    Reports (line :: lines) n := by
  have hsilent : ∀ {before : List (List Char)}, (∀ other ∈ before, ¬ Announces other) →
      ∀ other ∈ line :: before, ¬ Announces other :=
    fun silent => List.forall_mem_cons.mpr ⟨hblank.not_announces, silent⟩
  cases h with
  | unannounced silent => exact .unannounced (hsilent silent)
  | counted silent announced first count =>
    exact .counted (hsilent silent) announced first count
  | uncounted silent announced noCount =>
    exact .uncounted (hsilent silent) announced noCount

end Errors

/-- A status can be understood just if its lines show a table, which does not depend on the header
nor on what follows the table; only the number of errors is read from there. Every other text is
refused for the first thing in it that is wrong. -/
theorem tables_read_others_refused (pool output : String) :
    ((∃ status, read pool output = .ok status) ↔
      ∃ root rows rest, Tabled pool (Text.lines output.toList) root rows rest) ∧
    (∀ failure, read pool output = .error failure ↔ ∃ fault,
      Refused pool (Text.lines output.toList) fault ∧
        failure = .parse ("zpool status for " ++ pool) fault.message) ∧
    ∀ status root rows rest, read pool output = .ok status →
      Tabled pool (Text.lines output.toList) root rows rest →
        Reports rest status.errorCount ∧
        ∀ other otherRest, Tabled pool (Text.lines other.toList) root rows otherRest →
          ∃ otherStatus, read pool other = .ok otherStatus ∧ otherStatus.vdevs = status.vdevs := by
  refine ⟨⟨?_, ?_⟩, fun failure => ?_, ?_⟩
  · rintro ⟨status, hread⟩
    rcases tabled_or_refused pool (Text.lines output.toList) with htabled | ⟨fault, hrefused⟩
    · exact htabled
    · rw [read_eq_ok_iff, hrefused.parse_eq] at hread
      contradiction
  · rintro ⟨root, rows, rest, htabled⟩
    obtain ⟨table, -, hparse⟩ := htabled.exists_parse
    exact ⟨_, read_eq_ok_iff.mpr hparse⟩
  · simp only [read_eq_error_iff, parse_eq_error_iff]
    rfl
  · intro status root rows rest hread htabled
    obtain ⟨table, htable, hparse⟩ := htabled.exists_parse
    obtain rfl := Except.ok.inj (hparse.symm.trans (read_eq_ok_iff.mp hread))
    refine ⟨?_, fun other otherRest hother => ?_⟩
    · cases rest with
      | nil => exact reports_errorCountOf []
      | cons line rest => exact (reports_errorCountOf rest).cons_blank (htabled.ended line rfl)
    · obtain ⟨same, hsame, hotherParse⟩ := hother.exists_parse
      obtain rfl : same = table := Except.ok.inj (hsame.symm.trans htable)
      exact ⟨_, read_eq_ok_iff.mpr hotherParse, rfl⟩

/-- A text with a report of errors in the header, a row that is indented by an odd number of spaces,
and two reports after the line of spaces that ends its table. -/
def repeatedReports : String :=
  "errors: 7 in the header\n\tNAME STATE\n \n\t tank ONLINE\n\t   sda ONLINE\n\tlogs\n  \n" ++
    "\tsdb ONLINE\n  errors: 12 data errors\nerrors: 13\n"

theorem table_of_repeatedReports : ∃ status root rows rest,
    read "tank" repeatedReports = .ok status ∧
    Tabled "tank" (Text.lines repeatedReports.toList) root rows rest ∧
    Reports rest status.errorCount ∧ status.errorCount = 12 ∧
    status.vdevs.names = ["tank", "tank/sda", "tank/logs"] := by
  have hshown : (read "tank" repeatedReports).toOption.map
      (fun status => (status.vdevs.names, status.errorCount)) =
        some (["tank", "tank/sda", "tank/logs"], 12) := by decide +kernel
  obtain ⟨status, hread, hshown⟩ := exists_ok_of_toOption_map hshown
  obtain ⟨hnames, hcount⟩ := Prod.mk.inj hshown
  obtain ⟨root, rows, rest, htabled⟩ :=
    (tables_read_others_refused "tank" repeatedReports).1.mp ⟨status, hread⟩
  obtain ⟨hreports, -⟩ := (tables_read_others_refused "tank" repeatedReports).2.2 status root rows
    rest hread htabled
  exact ⟨status, root, rows, rest, hread, htabled, hreports, hcount, hnames⟩

end PoolStatus

end PoolGauge
