import Mathlib.Data.List.Induction
import Mathlib.Data.List.TakeWhile
import Mathlib.Logic.Function.Basic
import PoolGauge.Proofs.Dataset.Table

/-!
# The counters of a dataset

Statistics are understood if one of their lines has the titles. Each counter then comes from the
last row below the first titles that has its name, and is left alone if no row has it; all other
figures stay as they are. So texts that are read one after the other count like one text with the
rows of all.
-/
namespace PoolGauge

namespace ActivityRow

/-- The first three words of the line are the titles. -/
def HasTitles (line : List Char) : Prop :=
  ∃ words, Text.words line = "name".toList :: "type".toList :: "data".toList :: words

/-- The data that a line gives for a counter: its third word, if the first one is the name. -/
def toldData? (name : String) (line : List Char) : Option (List Char) :=
  if (Text.words line)[0]? = some name.toList then (Text.words line)[2]? else none

/-- The data that the last of the lines gives for a counter that gives any. -/
def lastData? (lines : List (List Char)) (name : String) : Option (List Char) :=
  (lines.filterMap (toldData? name)).getLast?

variable {line : List Char} {name : String}

theorem isTitle_iff : isTitle line = true ↔ HasTitles line := by
  rw [isTitle, HasTitles]
  split
  · rename_i first second third words hwords
    simp only [hwords, Bool.and_eq_true, beq_iff_eq, ← String.toList_inj, String.toList_ofList]
    simp [and_assoc]
  · rename_i hwords
    simp only [Bool.false_eq_true, false_iff, not_exists]
    exact fun words heq => hwords _ _ _ _ heq

instance (line : List Char) : Decidable (HasTitles line) :=
  decidable_of_iff _ isTitle_iff

/-- A line gives data if it is a row with the name. -/
theorem toldData?_eq : toldData? name line =
    (read? line).bind fun row => if row.name = name then some row.data else none := by
  rw [toldData?, read?]
  match Text.words line with
  | [] | [_] | [_, _] => simp
  | first :: second :: third :: words =>
    have hname : String.ofList first = name ↔ first = name.toList := by
      rw [← String.toList_inj, String.toList_ofList]
    simp [hname]

theorem lastData?_append (lines more : List (List Char)) :
    lastData? (lines ++ more) name = (lastData? more name).or (lastData? lines name) := by
  rw [lastData?, List.filterMap_append, List.getLast?_append]
  rfl

/-- A row gives the data of its counter, whatever the lines before it gave. -/
theorem lastData?_append_row {row : ActivityRow} (lines : List (List Char))
    (h : read? line = some row) :
    lastData? (lines ++ [line]) = Function.update (lastData? lines) row.name (some row.data) := by
  funext name
  rw [lastData?_append, lastData?, List.filterMap_cons, toldData?_eq, h, Option.bind_some]
  by_cases hname : row.name = name
  · subst hname
    simp
  · simp [hname, Function.update_of_ne (Ne.symm hname)]

/-- A line that is no row gives nothing. -/
theorem lastData?_append_of_none (lines : List (List Char)) (h : read? line = none) :
    lastData? (lines ++ [line]) = lastData? lines := by
  funext name
  rw [lastData?_append, lastData?, List.filterMap_cons, toldData?_eq, h]
  rfl

end ActivityRow

namespace DatasetStats

open ActivityRow

/-- What data for counters make of the figures. A counter becomes the number that its data are,
zero if they are none, and stays as it is if there are no data for it; so do all other figures. -/
def counted (s : DatasetStats) (data? : String → Option (List Char)) : DatasetStats :=
  let count (name : String) (before : UInt64) :=
    (data? name).elim before fun data => (Number.readWord data).getD 0
  { s with
    reads := count "reads" s.reads
    writes := count "writes" s.writes
    bytesRead := count "nread" s.bytesRead
    bytesWritten := count "nwritten" s.bytesWritten
    unlinks := count "nunlinks" s.unlinks
    unlinked := count "nunlinked" s.unlinked }

/-- The figures after statistics were read into them, whether these were understood or not. -/
def afterReading (s : DatasetStats) (dataset statistics : String) : DatasetStats :=
  (s.readActivity dataset statistics).toOption.getD s

/-- The lines below the first titles; there are none without titles. -/
def countedLines (statistics : String) : List (List Char) :=
  ((Text.lines statistics.toList).dropWhile (!isTitle ·)).drop 1

variable {s : DatasetStats} {dataset statistics : String}

/-- A row replaces the data for its counter. -/
theorem withActivity_counted (row : ActivityRow) (data? : String → Option (List Char)) :
    (s.counted data?).withActivity row =
      s.counted (Function.update data? row.name (some row.data)) := by
  obtain ⟨name, data⟩ := row
  have hcomm : ∀ word : String, (word = name) = (name = word) := fun _ => propext eq_comm
  unfold withActivity
  split <;> simp_all [counted, readCount]

/-- Rows count by the last one for each counter. -/
theorem foldl_withActivity (s : DatasetStats) (lines : List (List Char)) :
    (lines.filterMap read?).foldl withActivity s = s.counted (lastData? lines) := by
  induction lines using List.reverseRecOn with
  | nil => rfl
  | append_singleton lines line ih =>
    rw [List.filterMap_append, List.foldl_append, ih]
    cases hread : read? line with
    | none => rw [lastData?_append_of_none lines hread, List.filterMap_cons_none hread]; rfl
    | some row =>
      rw [lastData?_append_row lines hread, List.filterMap_cons_some hread,
        ← withActivity_counted]
      rfl

/-- Counting twice is counting once, by the later data where there are any. -/
theorem counted_counted (s : DatasetStats) (first second : String → Option (List Char)) :
    (s.counted first).counted second = s.counted fun name => (second name).or (first name) := by
  have hcount : ∀ name before, (second name).elim
      ((first name).elim before fun data => (Number.readWord data).getD 0)
      (fun data => (Number.readWord data).getD 0) =
      ((second name).or (first name)).elim before fun data => (Number.readWord data).getD 0 := by
    intro name before
    cases second name <;> rfl
  simp only [counted, hcount]

theorem counted_self (data? : String → Option (List Char)) :
    (s.counted data?).counted data? = s.counted data? := by
  rw [counted_counted]
  congr 1
  funext name
  exact Option.or_self

/-- Without titles statistics are refused, and their lines count for nothing. -/
theorem readActivity_of_untitled (h : ∀ line ∈ Text.lines statistics.toList, ¬ HasTitles line) :
    s.readActivity dataset statistics = .error (missingTitles dataset) ∧
      countedLines statistics = [] := by
  have hnone : (Text.lines statistics.toList).dropWhile (!isTitle ·) = [] := by
    rw [List.dropWhile_eq_nil_iff]
    intro line hline
    rw [Bool.not_eq_true', Bool.eq_false_iff]
    exact fun htitle => h line hline (isTitle_iff.mp htitle)
  rw [readActivity, countedLines, hnone]
  exact ⟨rfl, rfl⟩

/-- With titles the lines below the first ones are counted. -/
theorem readActivity_of_titled {before rows : List (List Char)} {titles : List Char}
    (h : Text.lines statistics.toList = before ++ titles :: rows)
    (hbefore : ∀ line ∈ before, ¬ HasTitles line) (htitles : HasTitles titles) :
    s.readActivity dataset statistics = .ok (s.counted (lastData? rows)) ∧
      countedLines statistics = rows := by
  have hrows : (Text.lines statistics.toList).dropWhile (!isTitle ·) = titles :: rows := by
    rw [h, List.dropWhile_append_of_pos, List.dropWhile_cons_of_neg]
    · simpa using isTitle_iff.mpr htitles
    · intro line hline
      rw [Bool.not_eq_true', Bool.eq_false_iff]
      exact fun htitle => hbefore line hline (isTitle_iff.mp htitle)
  rw [readActivity, countedLines, hrows, ← foldl_withActivity]
  exact ⟨rfl, rfl⟩

theorem afterReading_eq (s : DatasetStats) (dataset statistics : String) :
    s.afterReading dataset statistics = s.counted (lastData? (countedLines statistics)) := by
  rw [afterReading, readActivity, countedLines]
  split
  · rename_i hnone
    rw [hnone]
    rfl
  · rename_i titles rows hrows
    rw [hrows, foldl_withActivity]
    rfl

/-- Texts that are read one after the other count like one text with the rows of all. -/
theorem foldl_afterReading (s : DatasetStats) (dataset : String) (texts : List String) :
    texts.foldl (fun s text => s.afterReading dataset text) s =
      s.counted (lastData? (texts.flatMap countedLines)) := by
  induction texts generalizing s with
  | nil => rfl
  | cons text texts ih =>
    rw [List.foldl_cons, ih, afterReading_eq, counted_counted, List.flatMap_cons]
    congr 1
    funext name
    exact (lastData?_append ..).symm

/-- Statistics are refused just if no line has the titles, and then change nothing. Otherwise each
counter becomes the number in the last row below the first titles that has its name, and all else
stays. So of several texts the last row of all counts, and a text that is read again changes
nothing. -/
theorem counters_of_last_rows (s : DatasetStats) (dataset statistics : String) :
    ((∃ failure, s.readActivity dataset statistics = .error failure) ↔
      ∀ line ∈ Text.lines statistics.toList, ¬ HasTitles line) ∧
    (∀ failure, s.readActivity dataset statistics = .error failure →
      failure = missingTitles dataset ∧ s.afterReading dataset statistics = s ∧
        countedLines statistics = []) ∧
    (∀ before titles rows, Text.lines statistics.toList = before ++ titles :: rows →
      (∀ line ∈ before, ¬ HasTitles line) → HasTitles titles →
        s.readActivity dataset statistics = .ok (s.counted (lastData? rows)) ∧
          countedLines statistics = rows) ∧
    (s.afterReading dataset statistics).afterReading dataset statistics =
      s.afterReading dataset statistics ∧
    ∀ texts : List String, texts.foldl (fun s text => s.afterReading dataset text) s =
      s.counted (lastData? (texts.flatMap countedLines)) := by
  have hrefused : (∃ failure, s.readActivity dataset statistics = .error failure) ↔
      ∀ line ∈ Text.lines statistics.toList, ¬ HasTitles line := by
    constructor
    · rintro ⟨failure, hfailure⟩ line hline htitles
      obtain ⟨t, ht⟩ := (s.isOk_readActivity_iff dataset statistics).mpr
        ⟨line, hline, isTitle_iff.mpr htitles⟩
      rw [hfailure] at ht
      contradiction
    · exact fun h => ⟨_, (readActivity_of_untitled h).1⟩
  refine ⟨hrefused, fun failure hfailure => ?_, fun _ _ _ => readActivity_of_titled, ?_,
    foldl_afterReading s dataset⟩
  · obtain ⟨hread, hlines⟩ : s.readActivity dataset statistics = .error (missingTitles dataset) ∧
        countedLines statistics = [] :=
      readActivity_of_untitled (hrefused.mp ⟨failure, hfailure⟩)
    refine ⟨Except.error.inj (hfailure.symm.trans hread), ?_, hlines⟩
    rw [afterReading, hfailure]
    rfl
  · rw [afterReading_eq, afterReading_eq, counted_self]

/-- Statistics with a row above the titles, titles among the rows, a row that is too short and one
with a number that is too large. -/
def unevenStatistics : String :=
  "27 1 0x01 7 2160\nreads 4 9\nname type data\nwrites 4 12\nnread 4 +7 of 8\n" ++
    "name type data\nunlinks 4 3\nreads 4\nwrites 4 18446744073709551616\n"

theorem counters_of_unevenStatistics : ∃ t : DatasetStats,
    ({ used := 1, reads := 5, writes := 6 } : DatasetStats).readActivity "tank" unevenStatistics =
      .ok t ∧
    t.used = 1 ∧ t.reads = 5 ∧ t.writes = 0 ∧ t.bytesRead = 7 ∧ t.unlinks = 0 := by
  obtain ⟨-, -, htitled, -⟩ :=
    counters_of_last_rows { used := 1, reads := 5, writes := 6 } "tank" unevenStatistics
  obtain ⟨hread, -⟩ := htitled ["27 1 0x01 7 2160".toList, "reads 4 9".toList]
    "name type data".toList
    ["writes 4 12".toList, "nread 4 +7 of 8".toList, "name type data".toList,
      "unlinks 4 3".toList, "reads 4".toList, "writes 4 18446744073709551616".toList]
    (by decide +kernel) (by decide +kernel) ⟨[], by decide +kernel⟩
  exact ⟨_, hread, rfl, by decide +kernel, by decide +kernel, by decide +kernel, by decide +kernel⟩

end DatasetStats

end PoolGauge
