import PoolGauge.Proofs.Number.Decimal
import PoolGauge.Proofs.Pool.Topology
import PoolGauge.Proofs.Text.Cuts

/-!
# Printing a status table

A topology is printed as a table: the titles, one row for each vdev, a blank line and the number of
errors in the data. What is printed reads back as the same topology.
-/
namespace PoolGauge

/-- A text that is one word: it is not empty and has no blanks. -/
structure Word where
  chars : List Char
  nonempty : chars ≠ []
  solid : ∀ c ∈ chars, Text.isBlank c = false

namespace Word

def text (w : Word) : String :=
  String.ofList w.chars

def of (chars : List Char) (h : chars ≠ [] ∧ chars.any Text.isBlank = false) : Word where
  chars
  nonempty := h.1
  solid := fun c hc => Bool.eq_false_iff.mpr (List.any_eq_false.mp h.2 c hc)

def ofCount (n : UInt64) : Word where
  chars := Number.decimal n.toNat
  nonempty := by simp [Number.decimal]
  solid := fun c hc => by
    have hdigit : c.isDigit = true := Number.digit_of_mem_decimal hc
    simp only [Char.isDigit, Bool.and_eq_true, decide_eq_true_eq, ge_iff_le,
      UInt32.le_iff_toNat_le] at hdigit
    have hlow : 48 ≤ c.toNat := hdigit.1
    have hhigh : c.toNat ≤ 57 := hdigit.2
    simp [Text.isBlank]
    omega

end Word

/-- The health word and the error counts of a vdev. -/
structure Report where
  state : Word
  readErrors : UInt64
  writeErrors : UInt64
  checksumErrors : UInt64

/-- A vdev below the root or below a section. -/
structure Member where
  label : Word
  report : Report

inductive SectionName where
  | logs | cache | spares | special | dedup
deriving DecidableEq, Repr

/-- A section with its members; it need not report anything itself. -/
structure Section where
  name : SectionName
  report : Option Report
  members : Forest Member

structure Topology where
  pool : Word
  report : Report
  data : Forest Member
  sections : List Section

section Meaning

def Report.health (r : Report) : VdevState :=
  .ofWord r.state.text

def Report.errors (r : Report) : VdevStats :=
  { readErrors := r.readErrors, writeErrors := r.writeErrors, checksumErrors := r.checksumErrors }

def Member.entry (m : Member) : VdevEntry :=
  ⟨m.label.text, .ofLabel m.label.text, m.report.health, m.report.errors⟩

def SectionName.word : SectionName → Word
  | logs => .of "logs".toList (by decide)
  | cache => .of "cache".toList (by decide)
  | spares => .of "spares".toList (by decide)
  | special => .of "special".toList (by decide)
  | dedup => .of "dedup".toList (by decide)

def SectionName.kind : SectionName → VdevKind
  | logs => .log
  | cache => .cache
  | spares => .spare
  | special => .special
  | dedup => .dedup

/-- The vdev of a section. It has the state of the root and no errors if it reports nothing. -/
def Section.entry (rootState : VdevState) (s : Section) : VdevEntry :=
  ⟨s.name.word.text, s.name.kind, (s.report.map Report.health).getD rootState,
    (s.report.map Report.errors).getD {}⟩

/-- The forest of some sections, made of what stands for their headers and members. -/
def Section.forest {α : Type} (header : Section → α) (member : Member → α) :
    List Section → Forest α
  | [] => .nil
  | s :: rest => .cons (header s) (s.members.map member) (forest header member rest)

/-- The tree of a topology: the root, and below it the data vdevs and then the sections. -/
def Topology.tree (t : Topology) : Forest VdevEntry :=
  .cons ⟨t.pool.text, .root, t.report.health, t.report.errors⟩
    ((t.data.map Member.entry).append
      (Section.forest (Section.entry t.report.health) Member.entry t.sections)) .nil

theorem SectionName.ofSection?_word (n : SectionName) :
    VdevKind.ofSection? n.word.text = some n.kind := by
  cases n <;> decide +kernel

end Meaning

section Printing

/-- Cells with at least one space between any two; the gaps say how many more. -/
def spaced (gaps : Nat → Nat) : List Word → List Char
  | [] => []
  | [cell] => cell.chars
  | cell :: rest =>
    cell.chars ++ ' ' :: (List.replicate (gaps 0) ' ' ++ spaced (fun i => gaps (i + 1)) rest)

/-- A line of a table: a tab, two spaces for each level, then the cells. -/
def tableLine (gaps : Nat → Nat) (level : Nat) (cells : List Word) : List Char :=
  '\t' :: (List.replicate (2 * level) ' ' ++ spaced gaps cells)

def Report.cells : Option Report → List Word
  | none => []
  | some r => [r.state, .ofCount r.readErrors, .ofCount r.writeErrors, .ofCount r.checksumErrors]

structure PrintedRow where
  level : Nat
  label : Word
  report : Option Report

def PrintedRow.line (gaps : Nat → Nat) (row : PrintedRow) : List Char :=
  tableLine gaps row.level (row.label :: Report.cells row.report)

def Member.rows (level : Nat) (f : Forest Member) : List PrintedRow :=
  (f.levels level).map fun e => ⟨e.1, e.2.label, some e.2.report⟩

/-- The rows of a section: its header on the root's level, and its members below it. -/
def Section.rows (s : Section) : List PrintedRow :=
  ⟨0, s.name.word, s.report⟩ :: Member.rows 1 s.members

def Topology.rows (t : Topology) : List PrintedRow :=
  Member.rows 1 t.data ++ t.sections.flatMap Section.rows

def titles : List Word :=
  [.of "NAME".toList (by decide), .of "STATE".toList (by decide),
    .of "READ".toList (by decide), .of "WRITE".toList (by decide),
    .of "CKSUM".toList (by decide)]

/-- The lines of the table, where the gaps between the cells may differ from line to line. -/
def Topology.lines (t : Topology) (gaps : Nat → Nat → Nat) : List (List Char) :=
  tableLine (gaps 0) 0 titles :: PrintedRow.line (gaps 1) ⟨0, t.pool, some t.report⟩ ::
    t.rows.zipIdx.map fun (row, i) => row.line (gaps (i + 2))

def errorSummary (errors : UInt64) : List Char :=
  ['e', 'r', 'r', 'o', 'r', 's', ':', ' '] ++
    if errors = 0 then "No known data errors".toList
    else Number.decimal errors.toNat ++ " data errors, ".toList

/-- The status of a topology: its table, a blank line, and the errors in the data with whatever
follows them. -/
def Topology.print (t : Topology) (gaps : Nat → Nat → Nat) (errors : UInt64) (remark : List Char) :
    String :=
  String.ofList ((t.lines gaps).flatMap (· ++ ['\n']) ++ '\n' :: (errorSummary errors ++ remark))

end Printing

section Reading

open Text

theorem exists_spaced_append (gaps : Nat → Nat) (cell : Word) (cells : List Word) :
    ∃ rest, spaced gaps (cell :: cells) = cell.chars ++ rest := by
  cases cells with
  | nil => exact ⟨[], by simp [spaced]⟩
  | cons next cells => exact ⟨_, rfl⟩

theorem words_spaces_append (n : Nat) (text : List Char) :
    words (List.replicate n ' ' ++ text) = words text :=
  words_blanks_append (fun c hc => by rw [List.eq_of_mem_replicate hc]; rfl) text

theorem words_spaced (gaps : Nat → Nat) (cells : List Word) :
    words (spaced gaps cells) = cells.map Word.chars := by
  induction cells generalizing gaps with
  | nil => rfl
  | cons cell rest ih =>
    have hcell : words cell.chars = [cell.chars] := words_eq_singleton cell.nonempty cell.solid
    cases rest with
    | nil => simpa [spaced] using hcell
    | cons next rest =>
      rw [spaced, words_append_cons (by rfl), words_spaces_append, ih, hcell]
      · rfl
      · nofun

theorem words_tableLine (gaps : Nat → Nat) (level : Nat) (cells : List Word) :
    words (tableLine gaps level cells) = cells.map Word.chars := by
  rw [tableLine, words_cons_of_isBlank (by rfl), words_spaces_append, words_spaced]

theorem mem_spaced {gaps : Nat → Nat} {cells : List Word} {c : Char} (h : c ∈ spaced gaps cells) :
    c = ' ' ∨ isBlank c = false := by
  induction cells generalizing gaps with
  | nil => contradiction
  | cons cell rest ih =>
    cases rest with
    | nil => exact .inr (cell.solid c h)
    | cons next rest =>
      rw [spaced, List.mem_append, List.mem_cons, List.mem_append, List.mem_replicate] at h
      · rcases h with h | h | h | h
        · exact .inr (cell.solid c h)
        · exact .inl h
        · exact .inl h.2
        · exact ih h
      · nofun

/-- A line of a table is one line. -/
theorem notMem_tableLine {c : Char} (gaps : Nat → Nat) (level : Nat) (cells : List Word)
    (hblank : isBlank c = true) (htab : c ≠ '\t') (hspace : c ≠ ' ') :
    c ∉ tableLine gaps level cells := by
  intro h
  rw [tableLine, List.mem_cons, List.mem_append, List.mem_replicate] at h
  rcases h with h | ⟨-, h⟩ | h
  · exact htab h
  · exact hspace h
  · rcases mem_spaced h with h | h
    · exact hspace h
    · simp [hblank] at h

namespace PrintedRow

def row (r : PrintedRow) : StatusRow :=
  ⟨r.level, r.label.text, r.report.map fun report => report.state.text,
    (r.report.map Report.errors).getD {}⟩

theorem read?_line (gaps : Nat → Nat) (r : PrintedRow) :
    StatusRow.read? (r.line gaps) = some r.row := by
  have hwords := words_tableLine gaps r.level (r.label :: Report.cells r.report)
  rw [tableLine, words_cons_of_isBlank (by rfl)] at hwords
  have hindent : ((List.replicate (2 * r.level) ' ' ++
      spaced gaps (r.label :: Report.cells r.report)).takeWhile (· == ' ')).length =
        2 * r.level := by
    obtain ⟨rest, hrest⟩ := exists_spaced_append gaps r.label (Report.cells r.report)
    obtain ⟨c, chars, hchars⟩ := List.exists_cons_of_ne_nil r.label.nonempty
    have hc : (c == ' ') = false := by
      rw [beq_eq_false_iff_ne]
      rintro rfl
      exact absurd (r.label.solid ' ' (by simp [hchars])) (by decide)
    rw [hrest, hchars, List.cons_append, List.takeWhile_append_of_pos (by simp),
      List.takeWhile_cons_of_neg (by simp [hc])]
    simp
  rw [line, tableLine, StatusRow.read?, hwords, hindent]
  cases hreport : r.report with
  | none => simp [row, hreport, Report.cells, StatusRow.count, Word.text]
  | some report =>
    simp [row, hreport, Report.cells, StatusRow.count, Word.text, Word.ofCount, Report.errors,
      Number.readWord_decimal]

end PrintedRow

theorem isBlankLine_of_read? {line : List Char} {row : StatusRow}
    (h : StatusRow.read? line = some row) : PoolStatus.isBlankLine line = false := by
  rw [PoolStatus.isBlankLine, ← Bool.not_eq_true, List.all_eq_true]
  intro hblank
  obtain ⟨rest, label, cells, rfl, hwords, -⟩ := StatusRow.read?_eq_some h
  have hnone : words rest = [] := by
    simpa using words_blanks_append (fun c hc => hblank c (List.mem_cons_of_mem _ hc)) []
  rw [hnone] at hwords
  contradiction

theorem isTitle_titles (gaps : Nat → Nat) :
    PoolStatus.isTitle (tableLine gaps 0 titles) = true := by
  rw [PoolStatus.isTitle, words_tableLine]
  decide +kernel

/-- The count after the word that announces it, whatever follows the count. -/
theorem readErrorCount_append (count : Word) (text : List Char) :
    PoolStatus.readErrorCount (trimEnd (' ' :: (count.chars ++ ' ' :: text))) =
      (Number.readWord count.chars).getD 0 := by
  rw [PoolStatus.readErrorCount, words_trimEnd, words_cons_of_isBlank (by rfl),
    words_append_cons (by rfl), words_eq_singleton count.nonempty count.solid]
  rfl

theorem errorSummary?_append (text : List Char) :
    PoolStatus.errorSummary? ('e' :: 'r' :: 'r' :: 'o' :: 'r' :: 's' :: ':' :: text) =
      some (trimEnd text) := by
  have htrim : trim ('e' :: 'r' :: 'r' :: 'o' :: 'r' :: 's' :: ':' :: text) =
      'e' :: 'r' :: 'r' :: 'o' :: 'r' :: 's' :: ':' :: trimEnd text := by
    rw [trim, trimStart_cons_of_not_isBlank (by rfl)]
    exact trimEnd_append_cons (a := ['e', 'r', 'r', 'o', 'r', 's']) (by rfl) text
  simp [PoolStatus.errorSummary?, htrim]

/-- The count of a summary, which one word and a space follow at least. -/
theorem errorCountOf_summary (count : Word) (text : List Char) :
    PoolStatus.errorCountOf
      (lines (['e', 'r', 'r', 'o', 'r', 's', ':', ' '] ++ (count.chars ++ ' ' :: text))) =
      (Number.readWord count.chars).getD 0 := by
  let start := ['e', 'r', 'r', 'o', 'r', 's', ':', ' '] ++ (count.chars ++ [' '])
  have hstart : ∀ c, isBlank c = true → c ≠ ' ' → c ∉ start := by
    intro c hblank hspace hc
    simp only [start, List.mem_append, List.mem_cons, List.not_mem_nil, or_false] at hc
    rcases hc with (rfl | rfl | rfl | rfl | rfl | rfl | rfl | rfl) | hc | hc
    any_goals contradiction
    simp [count.solid c hc] at hblank
  obtain ⟨rest, others, hlines⟩ := exists_lines_append (a := start) (by simp [start])
    (hstart '\n' (by rfl) (by decide)) (hstart '\r' (by rfl) (by decide)) text
  have hsplit : start ++ text =
      ['e', 'r', 'r', 'o', 'r', 's', ':', ' '] ++ (count.chars ++ ' ' :: text) := by simp [start]
  have hfirst : start ++ rest =
      'e' :: 'r' :: 'r' :: 'o' :: 'r' :: 's' :: ':' :: ' ' :: (count.chars ++ ' ' :: rest) := by
    simp [start]
  rw [← hsplit, hlines, hfirst, PoolStatus.errorCountOf, List.findSome?_cons, errorSummary?_append,
    Option.map_some, readErrorCount_append]
  rfl

theorem errorCountOf_errorSummary (errors : UInt64) (remark : List Char) :
    PoolStatus.errorCountOf (lines (errorSummary errors ++ remark)) = errors := by
  rw [errorSummary]
  split
  · rename_i hzero
    rw [hzero]
    exact errorCountOf_summary (.of ['N', 'o'] (by decide))
      ("known data errors".toList ++ remark)
  · have hcount := errorCountOf_summary (.ofCount errors) ("data errors, ".toList ++ remark)
    rw [Word.ofCount, Number.readWord_decimal] at hcount
    simpa using hcount

end Reading

section RoundTrip

def Member.row (m : Member) : StatusRow :=
  ⟨0, m.label.text, some m.report.state.text, m.report.errors⟩

def Section.row (s : Section) : StatusRow :=
  ⟨0, s.name.word.text, s.report.map fun report => report.state.text,
    (s.report.map Report.errors).getD {}⟩

theorem Section.sectionEntry_row (s : Section) (rootState : VdevState) :
    s.row.sectionEntry s.name.kind rootState = s.entry rootState := by
  cases hreport : s.report <;>
    simp [StatusRow.sectionEntry, row, entry, hreport, StatusRow.health, Report.health]

theorem map_row_memberRows (level : Nat) (f : Forest Member) :
    (Member.rows level f).map PrintedRow.row = (f.map Member.row).rows level := by
  rw [Member.rows, Forest.rows, Forest.levels_map, List.map_map, List.map_map]
  rfl

theorem map_row_sectionRows (sections : List Section) :
    (sections.flatMap Section.rows).map PrintedRow.row =
      (Section.forest Section.row Member.row sections).rows 0 := by
  induction sections with
  | nil => rfl
  | cons s rest ih =>
    rw [List.flatMap_cons, List.map_append, ih, Section.rows, List.map_cons, map_row_memberRows,
      Section.forest, Forest.rows_cons]
    rfl

/-- The rows of sections open the branches of the topology. -/
theorem sections_forest (rootState : VdevState) (sections : List Section) :
    (Section.forest Section.row Member.row sections).Sections rootState
      (Section.forest (Section.entry rootState) Member.entry sections) := by
  induction sections with
  | nil => exact .nil
  | cons s rest ih =>
    have hopened : (Forest.cons s.row (s.members.map Member.row)
        (Section.forest Section.row Member.row rest)).Sections rootState _ :=
      .cons s.name.ofSection?_word ih
    rw [Section.sectionEntry_row, Forest.map_map] at hopened
    exact hopened

/-- The rows of a topology below the root's, as they are read. -/
theorem Topology.map_row_rows (t : Topology) : t.rows.map PrintedRow.row =
    (t.data.map Member.row).rows 1 ++
      (Section.forest Section.row Member.row t.sections).rows 0 := by
  rw [rows, List.map_append, map_row_memberRows, map_row_sectionRows]

/-- The lines of what is printed. -/
theorem Topology.lines_print (t : Topology) (gaps : Nat → Nat → Nat) (errors : UInt64)
    (remark : List Char) : Text.lines (t.print gaps errors remark).toList =
      t.lines gaps ++ [] :: Text.lines (errorSummary errors ++ remark) := by
  have hsingle : ∀ line ∈ t.lines gaps, '\n' ∉ line ∧ '\r' ∉ line := by
    have htable : ∀ gaps level cells,
        '\n' ∉ tableLine gaps level cells ∧ '\r' ∉ tableLine gaps level cells :=
      fun gaps level cells => ⟨notMem_tableLine gaps level cells (by rfl) (by decide) (by decide),
        notMem_tableLine gaps level cells (by rfl) (by decide) (by decide)⟩
    intro line hline
    rw [lines, List.mem_cons, List.mem_cons, List.mem_map] at hline
    obtain rfl | rfl | ⟨row, -, rfl⟩ := hline <;> exact htable ..
  rw [print, String.toList_ofList, Text.lines_flatMap_newline hsingle]
  exact congrArg _ (Text.lines_append_newline (a := []) nofun _)

/-- What follows the first line with the titles. -/
theorem afterTitle?_append {preface : List (List Char)} {titles : List Char}
    (hplain : ∀ line ∈ preface, PoolStatus.isTitle line = false)
    (h : PoolStatus.isTitle titles = true) (rest : List (List Char)) :
    PoolStatus.afterTitle? (preface ++ titles :: rest) = some rest := by
  rw [PoolStatus.afterTitle?,
    List.dropWhile_append_of_pos fun line hline => by rw [hplain line hline]; rfl,
    List.dropWhile_cons_of_neg (by simp [h])]

/-- Reads a table that a blank line ends or nothing follows. -/
theorem ofLines_table {pool : String} {first : List Char} {table rest : List (List Char)}
    (hfirst : PoolStatus.isBlankLine first = false)
    (htable : ∀ line ∈ table, PoolStatus.isBlankLine line = false)
    (hrest : ∀ line ∈ rest.head?, PoolStatus.isBlankLine line = true) :
    PoolStatus.ofLines pool (first :: (table ++ rest)) = do
      let root ← StatusRow.read first >>= StatusTable.ofRoot pool
      let u ← table.foldlM StatusTable.addLine root
      return ⟨u.tree, PoolStatus.errorCountOf (rest.drop 1)⟩ := by
  have hrows : ∀ line ∈ table, (!PoolStatus.isBlankLine line) = true := fun line hline => by
    rw [htable line hline]
    rfl
  have hcut : ∀ line ∈ rest.head?, (!PoolStatus.isBlankLine line) = false := fun line hline => by
    rw [hrest line hline]
    rfl
  rw [PoolStatus.ofLines, List.dropWhile_cons_of_neg (by simp [hfirst])]
  simp only [Text.takeWhile_append_of_cut hrows hcut, Text.dropWhile_append_of_cut hrows hcut]

/-- The lines of some rows read as these rows. -/
theorem map_read?_line (gaps : Nat → Nat → Nat) (rows : List PrintedRow) :
    (rows.zipIdx.map fun e => e.1.line (gaps (e.2 + 2))).map StatusRow.read? =
      (rows.map PrintedRow.row).map some := by
  have hrows : (rows.map PrintedRow.row).map some = rows.zipIdx.map fun e => some e.1.row := by
    conv_lhs => rw [← List.zipIdx_map_fst 0 rows, List.map_map, List.map_map]
    rfl
  rw [hrows, List.map_map]
  exact List.map_congr_left fun e _ => e.1.read?_line _

theorem isBlankLine_of_mem {table : List (List Char)} {rows : List StatusRow}
    (h : table.map StatusRow.read? = rows.map some) {line : List Char} (hline : line ∈ table) :
    PoolStatus.isBlankLine line = false := by
  have hmem : StatusRow.read? line ∈ rows.map some := h ▸ List.mem_map_of_mem hline
  obtain ⟨row, -, hread⟩ := List.mem_map.mp hmem
  exact isBlankLine_of_read? hread.symm

/-- The root's row starts a table. -/
theorem Topology.ofRoot_line (t : Topology) (gaps : Nat → Nat) :
    StatusRow.read (PrintedRow.line gaps ⟨0, t.pool, some t.report⟩) >>=
        StatusTable.ofRoot t.pool.text =
      .ok ⟨.single t.pool.text t.report.health t.report.errors, [0]⟩ := by
  rw [StatusRow.read, PrintedRow.read?_line]
  exact if_pos ⟨rfl, rfl⟩

/-- What is printed parses to the tree that its rows build, and to the number of errors. -/
theorem Topology.parse_print (t : Topology) (gaps : Nat → Nat → Nat) (errors : UInt64)
    (remark : List Char) {u : StatusTable}
    (h : (t.rows.map PrintedRow.row).foldlM StatusTable.addRow
      ⟨.single t.pool.text t.report.health t.report.errors, [0]⟩ = .ok u) :
    PoolStatus.parse t.pool.text (t.print gaps errors remark) = .ok ⟨u.tree, errors⟩ := by
  let first := PrintedRow.line (gaps 1) ⟨0, t.pool, some t.report⟩
  let table := t.rows.zipIdx.map fun e => e.1.line (gaps (e.2 + 2))
  have hfirst : PoolStatus.isBlankLine first = false :=
    isBlankLine_of_read? (PrintedRow.read?_line _ _)
  have htable : table.map StatusRow.read? = (t.rows.map PrintedRow.row).map some :=
    map_read?_line gaps t.rows
  have hafter : ∀ rest, PoolStatus.afterTitle? (tableLine (gaps 0) 0 titles :: rest) = some rest :=
    @afterTitle?_append [] _ nofun (isTitle_titles (gaps 0))
  rw [PoolStatus.parse, lines_print, lines, List.cons_append, hafter]
  change PoolStatus.ofLines t.pool.text
    (first :: (table ++ [] :: Text.lines (errorSummary errors ++ remark))) = _
  rw [ofLines_table hfirst (fun line => isBlankLine_of_mem htable)
    (by simp [PoolStatus.isBlankLine]), ofRoot_line, List.drop_one, List.tail_cons,
    errorCountOf_errorSummary]
  change table.foldlM StatusTable.addLine _ >>= _ = _
  rw [StatusTable.foldlM_addLine htable, h]
  rfl

/-- What is printed of a topology reads back as this topology: the vdevs of the tree are those of
the topology in pre-order with their links, and the number of errors is the same. -/
theorem Topology.read_print (t : Topology) (gaps : Nat → Nat → Nat) (errors : UInt64)
    (remark : List Char) : ∃ status,
      PoolStatus.read t.pool.text (t.print gaps errors remark) = .ok status ∧
      status.vdevs.placed = t.tree.place none 0 ∧ status.errorCount = errors := by
  obtain ⟨u, hu, hplaced⟩ := StatusTable.foldlM_topology t.pool.text t.report.errors
    (t.data.map Member.row) (sections_forest t.report.health t.sections)
  rw [← map_row_rows] at hu
  refine ⟨⟨u.tree, errors⟩, ?_, ?_, rfl⟩
  · rw [PoolStatus.read, t.parse_print gaps errors remark hu]
    rfl
  · rw [hplaced, Forest.map_map]
    rfl

/-- What is printed of a pool of two disks, one of them a log. -/
example :
    let online : Report := ⟨.of "ONLINE".toList (by decide), 0, 0, 0⟩
    let disk (label : Word) : Forest Member := .cons ⟨label, online⟩ .nil .nil
    Topology.print
      { pool := .of "tank".toList (by decide)
        report := online
        data := disk (.of "sda".toList (by decide))
        sections := [⟨.logs, none, disk (.of "sdb".toList (by decide))⟩] }
      (fun _ _ => 0) 0 ['\n'] =
      "\tNAME STATE READ WRITE CKSUM\n\ttank ONLINE 0 0 0\n\t  sda ONLINE 0 0 0\n\tlogs\n" ++
        "\t  sdb ONLINE 0 0 0\n\nerrors: No known data errors\n" := by
  decide +kernel

end RoundTrip

end PoolGauge
