import Mathlib.Data.List.DropRight
import Mathlib.Data.List.Sort
import Mathlib.Logic.Function.Basic
import PoolGauge.Proofs.Dataset.Rows
import PoolGauge.Proofs.Text.Fields

/-!
# The values of properties

What is recorded of a dataset comes from one line for each property, the last one that tells a value
of it. So lines about other datasets or properties may stand anywhere, and two lines that are not
about the same property of the same dataset may change places.
-/
namespace PoolGauge

open Text (field? toldValue? field?_isSome_iff field?_of_fields field?_two_eq_none
  toldValue?_eq_none_or)

/-- The value that the last of the lines tells that tells one. -/
def lastValue? (lines : List (List Char)) (name property : String) : Option (List Char) :=
  (lines.filterMap (toldValue? name property)).getLast?

theorem lastValue?_append (lines more : List (List Char)) (name property : String) :
    lastValue? (lines ++ more) name property =
      (lastValue? more name property).or (lastValue? lines name property) := by
  rw [lastValue?, List.filterMap_append, List.getLast?_append]
  rfl

/-- No value is told last just if no line tells one. -/
theorem lastValue?_eq_none_iff {lines : List (List Char)} {name property : String} :
    lastValue? lines name property = none ↔ ∀ line ∈ lines, toldValue? name property line = none := by
  rw [lastValue?, List.getLast?_eq_none_iff, List.filterMap_eq_nil_iff]

def ratio? (text : List Char) : Option Float :=
  (Number.readFloat (text.rdropWhile (· == 'x'))).filter fun ratio =>
    ratio.isFinite && Number.nearest 0 1 ≤ ratio

namespace Dataset

/-- What values of properties make of a dataset that is not known otherwise. A count without a
value that is one is zero, and so is a ratio. -/
def recorded (name : String) (value? : String → Option (List Char)) : Dataset :=
  let count (property : String) := ((value? property).bind Number.readWord).getD 0
  let ratio (property : String) := ((value? property).bind ratio?).getD (Number.nearest 0 1)
  { name := name
    pool := poolOf name
    objsetId := (value? "objsetid").bind Number.readWord
    stats :=
      { available := count "available"
        used := count "used"
        usedByChildren := count "usedbychildren"
        usedByDataset := count "usedbydataset"
        usedByRefReservation := count "usedbyrefreservation"
        usedBySnapshots := count "usedbysnapshots"
        referenced := count "referenced"
        logicalUsed := count "logicalused"
        logicalReferenced := count "logicalreferenced"
        compressRatio := ratio "compressratio"
        refCompressRatio := ratio "refcompressratio" } }

theorem readRatio_eq (text : List Char) :
    DatasetStats.readRatio text = (ratio? text).getD (Number.nearest 0 1) := by
  rw [DatasetStats.readRatio, ratio?, List.rdropWhile]
  cases Number.readFloat (text.reverse.dropWhile (· == 'x')).reverse with
  | none => rfl
  | some ratio =>
    by_cases h : (ratio.isFinite && decide (Number.nearest 0 1 ≤ ratio)) = true <;>
      simp [Option.filter, h]

/-- A row replaces the value of its property. -/
theorem withProperty_recorded (name property : String) (value : List Char)
    (value? : String → Option (List Char)) :
    (recorded name value?).withProperty property value =
      recorded name (Function.update value? property (some value)) := by
  have hcomm : ∀ word : String, (word = property) = (property = word) := fun _ => propext eq_comm
  unfold withProperty
  split <;> simp_all [recorded, DatasetStats.readCount, readRatio_eq]

end Dataset

section Lines

variable {line a b : List Char} {name property : String} {row : DatasetRow}

theorem DatasetRow.read?_eq_some_iff : DatasetRow.read? line = some row ↔
    row.name ≠ "" ∧ field? line 0 = some row.name.toList ∧
      field? line 1 = some row.property.toList ∧ field? line 2 = some row.value := by
  rw [DatasetRow.read?]
  split
  · rename_i first second third rest hfields
    obtain ⟨name, property, value⟩ := row
    obtain ⟨hfirst, hsecond, hthird⟩ := field?_of_fields hfields
    simp only [hfirst, hsecond, hthird, Option.some.injEq]
    by_cases hempty : Text.trim first = []
    · simp +contextual [hempty, eq_comm (a := ([] : List Char))]
    · have hname : Text.trim first = name.toList → name ≠ "" := by
        rintro heq rfl
        exact hempty heq
      simp only [List.isEmpty_iff, hempty, ite_false, Option.some.injEq, DatasetRow.mk.injEq,
        String.ofList_eq]
      exact ⟨fun h => ⟨hname h.1, h⟩, And.right⟩
  · rename_i hfields
    simp [field?_two_eq_none hfields]

/-- A line tells the value of a property if it is a row with the name and the property. -/
theorem toldValue?_eq (hname : name ≠ "") : toldValue? name property line =
    (DatasetRow.read? line).bind fun row =>
      if row.name = name ∧ row.property = property then some row.value else none := by
  refine Option.ext fun value => ?_
  simp only [toldValue?, Option.bind_eq_some_iff, DatasetRow.read?_eq_some_iff,
    Option.ite_none_right_eq_some, Option.some.injEq]
  constructor
  · rintro ⟨⟨hfirst, hsecond⟩, hthird⟩
    exact ⟨⟨name, property, value⟩, ⟨hname, hfirst, hsecond, hthird⟩, ⟨rfl, rfl⟩, rfl⟩
  · rintro ⟨_, ⟨-, hfirst, hsecond, hthird⟩, ⟨rfl, rfl⟩, rfl⟩
    exact ⟨⟨hfirst, hsecond⟩, hthird⟩

theorem lastValue?_exchange (h : field? a 0 ≠ field? b 0 ∨ field? a 1 ≠ field? b 1)
    (before after : List (List Char)) :
    lastValue? (before ++ b :: a :: after) name property =
      lastValue? (before ++ a :: b :: after) name property := by
  rw [lastValue?, lastValue?]
  congr 1
  simp only [List.filterMap_append, List.filterMap_cons]
  rcases toldValue?_eq_none_or h with hnone | hnone <;> rw [hnone]

end Lines

namespace DatasetTable

variable {name : String} {datasets others : List Dataset} {d : Dataset} {output : String}

section Rows

def lastOf (rows : List DatasetRow) (property : String) : Option (List Char) :=
  (rows.filterMap fun row => if row.property = property then some row.value else none).getLast?

theorem lastOf_append_singleton (rows : List DatasetRow) (row : DatasetRow) :
    lastOf (rows ++ [row]) = Function.update (lastOf rows) row.property (some row.value) := by
  funext property
  by_cases h : row.property = property
  · simp [lastOf, ← h]
  · simp [lastOf, h, Function.update_of_ne (Ne.symm h)]

/-- Rows about a dataset record the last value of each property. -/
theorem getD_foldl_told (name : String) (rows : List DatasetRow) :
    (rows.foldl (told name) none).getD (.named name) = .recorded name (lastOf rows) := by
  induction rows using List.reverseRecOn with
  | nil => rfl
  | append_singleton rows row ih =>
    rw [List.foldl_append, List.foldl_cons, List.foldl_nil, told, ih, Option.getD_some,
      Dataset.withProperty_recorded, lastOf_append_singleton]

theorem lastOf_filter (hname : name ≠ "") (output : String) :
    lastOf ((datasetRows output).filter (·.name == name)) =
      lastValue? (Text.lines output.toList) name := by
  funext property
  rw [lastOf, lastValue?, datasetRows, List.filter_filterMap, List.filterMap_filterMap]
  congr 2
  funext line
  rw [toldValue?_eq hname]
  cases DatasetRow.read? line with
  | none => rfl
  | some row => by_cases h : row.name = name <;> simp [Option.filter, h]

end Rows

section Sorted

theorem sorted_foldl_addRow {t : DatasetTable} (h : Sorted t.datasets) (rows : List DatasetRow) :
    Sorted (rows.foldl addRow t).datasets := by
  induction rows generalizing t with
  | nil => exact h
  | cons row rest ih => exact ih (h.upsert fun d => d.withProperty_name _ _)

theorem sorted_read (output : String) : Sorted (read output).datasets :=
  sorted_foldl_addRow List.Pairwise.nil _

theorem Sorted.find?_eq_some_iff (h : Sorted datasets) :
    datasets.find? (·.name == name) = some d ↔ d ∈ datasets ∧ d.name = name := by
  induction datasets with
  | nil => simp
  | cons e rest ih =>
    obtain ⟨he, hrest⟩ := List.pairwise_cons.mp h
    rw [List.find?_cons, List.mem_cons]
    by_cases hname : e.name = name
    · rw [beq_iff_eq.mpr hname]
      dsimp only
      rw [Option.some.injEq, eq_comm]
      constructor
      · rintro rfl
        exact ⟨.inl rfl, hname⟩
      · rintro ⟨heq | hmem, hd⟩
        · exact heq
        · exact absurd (hname.trans hd.symm) (he d hmem).ne
    · rw [beq_eq_false_iff_ne.mpr hname]
      dsimp only
      rw [ih hrest]
      refine and_congr_left fun hd => ⟨.inr, ?_⟩
      rintro (rfl | hmem)
      · exact absurd hd hname
      · exact hmem

/-- A table is all that is found in it. -/
theorem Sorted.eq_of_find? (h : Sorted datasets) (h' : Sorted others)
    (hfind : ∀ name, datasets.find? (·.name == name) = others.find? (·.name == name)) :
    datasets = others := by
  refine List.Pairwise.eq_of_mem_iff h h' fun d => ?_
  have hmem : datasets.find? (·.name == d.name) = some d ↔ d ∈ datasets ∧ d.name = d.name :=
    h.find?_eq_some_iff
  rw [hfind, h'.find?_eq_some_iff] at hmem
  simpa using hmem.symm

end Sorted

section Records

/-- A line is about the dataset with a name if it has this name, a property and a value. -/
def IsAbout (name : String) (line : List Char) : Prop :=
  2 < (Text.fields line).length ∧ field? line 0 = some name.toList

theorem exists_row_iff : (∃ row ∈ datasetRows output, row.name = name) ↔
    name ≠ "" ∧ ∃ line ∈ Text.lines output.toList, IsAbout name line := by
  simp only [datasetRows, List.mem_filterMap, DatasetRow.read?_eq_some_iff]
  constructor
  · rintro ⟨row, ⟨line, hline, hne, hfirst, -, hthird⟩, rfl⟩
    have hlength : (field? line 2).isSome := by rw [hthird]; rfl
    exact ⟨hne, line, hline, field?_isSome_iff.mp hlength, hfirst⟩
  · rintro ⟨hne, line, hline, hlength, hfirst⟩
    obtain ⟨property, hsecond⟩ := Option.isSome_iff_exists.mp
      (field?_isSome_iff.mpr (show 1 < (Text.fields line).length by omega))
    obtain ⟨value, hthird⟩ := Option.isSome_iff_exists.mp (field?_isSome_iff.mpr hlength)
    refine ⟨⟨name, String.ofList property, value⟩, ⟨line, hline, hne, hfirst, ?_, hthird⟩, rfl⟩
    rw [hsecond, String.toList_ofList]

theorem find?_read_eq_some_iff : (read output).find? name = some d ↔
    name ≠ "" ∧ (∃ line ∈ Text.lines output.toList, IsAbout name line) ∧
      d = .recorded name (lastValue? (Text.lines output.toList) name) := by
  rw [← and_assoc, ← exists_row_iff, ← isSome_find?_read_iff]
  have hrecord : ∀ known, (read output).find? name = some known →
      known = .recorded name (lastValue? (Text.lines output.toList) name) := by
    intro known hknown
    have hrow := isSome_find?_read_iff.mp (Option.isSome_of_eq_some hknown)
    rw [← lastOf_filter (exists_row_iff.mp hrow).1, ← getD_foldl_told, ← find?_read, hknown,
      Option.getD_some]
  constructor
  · exact fun h => ⟨Option.isSome_of_eq_some h, hrecord d h⟩
  · rintro ⟨hsome, rfl⟩
    obtain ⟨known, hknown⟩ := Option.isSome_iff_exists.mp hsome
    rw [hknown, hrecord known hknown]

theorem read_exchange {other : String} {before after : List (List Char)} {a b : List Char}
    (h : Text.lines output.toList = before ++ a :: b :: after)
    (h' : Text.lines other.toList = before ++ b :: a :: after)
    (hkeys : field? a 0 ≠ field? b 0 ∨ field? a 1 ≠ field? b 1) : read other = read output := by
  refine congrArg DatasetTable.mk
    ((sorted_read other).eq_of_find? (sorted_read output) fun name => Option.ext fun d => ?_)
  change (read other).find? name = some d ↔ (read output).find? name = some d
  have hlast : lastValue? (before ++ b :: a :: after) name =
      lastValue? (before ++ a :: b :: after) name :=
    funext fun _ => lastValue?_exchange hkeys before after
  have hmem : ∀ line, line ∈ before ++ b :: a :: after ↔ line ∈ before ++ a :: b :: after := by
    intro line
    simp only [List.mem_append, List.mem_cons, or_left_comm]
  rw [find?_read_eq_some_iff, find?_read_eq_some_iff, h, h', hlast]
  simp only [hmem]

end Records

/-- A table has one record for each name, in the order of the names, just if a line is about the
dataset with this name; the record comes from the last line for each property. So two lines that are
not about the same property of the same dataset may change places. -/
theorem records_of_last_lines (output : String) :
    (read output).datasets.Pairwise (·.name < ·.name) ∧
    (∀ name d, (read output).find? name = some d ↔
      name ≠ "" ∧ (∃ line ∈ Text.lines output.toList, IsAbout name line) ∧
        d = .recorded name (lastValue? (Text.lines output.toList) name)) ∧
    ∀ other before after a b, Text.lines output.toList = before ++ a :: b :: after →
      Text.lines other.toList = before ++ b :: a :: after →
      field? a 0 ≠ field? b 0 ∨ field? a 1 ≠ field? b 1 → read other = read output :=
  ⟨sorted_read output, fun _ _ => find?_read_eq_some_iff, fun _ _ _ _ _ => read_exchange⟩

/-- A line with a number that is too large for a counter undoes the line before, and changes places
with a line of another dataset. -/
theorem record_of_overflow :
    let large := " tank \tused\t18446744073709551616\n"
    let other := "tank/a\tused\t-\n"
    let output (first second : String) :=
      "tank\tused\t5\n" ++ first ++ second ++ "tank\tavailable\t+7\t-\n"
    (∃ d, (read (output other large)).find? "tank" = some d ∧ d.stats.used = 0 ∧
      d.stats.available = 7 ∧ d.objsetId = none) ∧
    read (output large other) = read (output other large) := by
  intro large other output
  obtain ⟨-, hrecords, hexchange⟩ := records_of_last_lines (output other large)
  refine ⟨⟨_, (hrecords "tank" _).mpr ⟨by decide, ?_, rfl⟩, ?_, ?_, ?_⟩, ?_⟩
  · exact ⟨"tank\tused\t5".toList, by decide +kernel, by decide +kernel, by decide +kernel⟩
  · decide +kernel
  · decide +kernel
  · decide +kernel
  · exact hexchange (output large other) ["tank\tused\t5".toList]
      ["tank\tavailable\t+7\t-".toList] "tank/a\tused\t-".toList
      " tank \tused\t18446744073709551616".toList (by decide +kernel) (by decide +kernel)
      (by decide +kernel)

end DatasetTable

end PoolGauge
