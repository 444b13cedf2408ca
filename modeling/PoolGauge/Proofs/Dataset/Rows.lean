import Mathlib.Data.String.Basic
import PoolGauge.Proofs.Dataset.Table
import PoolGauge.Proofs.Text.Cuts

/-!
# What rows tell about one dataset

The table is sorted by names, so what it has under a name comes from the rows with this name alone,
in their order. A text that is put together from one block of rows for each of several names tells
about a name what its own block tells.
-/
namespace PoolGauge

theorem eraseDups_of_nodup {α : Type} [BEq α] [LawfulBEq α] {l : List α} (h : l.Nodup) :
    l.eraseDups = l := by
  induction l with
  | nil => rfl
  | cons a rest ih =>
    obtain ⟨ha, hrest⟩ := List.nodup_cons.mp h
    rw [List.eraseDups_cons, eraseDups_filter, ih hrest, List.filter_eq_self.mpr]
    intro b hb
    simpa using ne_of_mem_of_not_mem hb ha

namespace DatasetTable

variable {name other : String} {change : Dataset → Dataset} {datasets : List Dataset}

def Sorted (datasets : List Dataset) : Prop :=
  datasets.Pairwise fun d e => d.name < e.name

theorem Sorted.upsert (hchange : ∀ d, (change d).name = d.name) (h : Sorted datasets) :
    Sorted (upsert name change datasets) := by
  induction datasets with
  | nil => simp [DatasetTable.upsert, Sorted]
  | cons d rest ih =>
    obtain ⟨hd, hrest⟩ := List.pairwise_cons.mp h
    rw [DatasetTable.upsert]
    by_cases hlt : name < d.name
    · rw [if_pos hlt]
      refine List.pairwise_cons.mpr ⟨fun e he => ?_, h⟩
      rw [hchange]
      rcases List.mem_cons.mp he with rfl | hmem
      · exact hlt
      · exact hlt.trans (hd e hmem)
    · rw [if_neg hlt]
      by_cases heq : d.name = name
      · rw [if_pos heq]
        exact List.pairwise_cons.mpr ⟨fun e he => by rw [hchange]; exact hd e he, hrest⟩
      · rw [if_neg heq]
        refine List.pairwise_cons.mpr ⟨fun e he => ?_, ih hrest⟩
        have hname : e.name ∈ (DatasetTable.upsert name change rest).map Dataset.name :=
          List.mem_map_of_mem he
        rcases (mem_map_name_upsert hchange).mp hname with hnew | hold
        · rw [hnew]
          exact lt_of_le_of_ne (not_lt.mp hlt) heq
        · obtain ⟨f, hf, hsame⟩ := List.mem_map.mp hold
          rw [← hsame]
          exact hd f hf

/-- Changing the dataset with a name changes what is found under this name, and nothing else. -/
theorem find?_upsert (hchange : ∀ d, (change d).name = d.name) (h : Sorted datasets) :
    (upsert name change datasets).find? (·.name == other) =
      if name = other then
        some (change ((datasets.find? (·.name == name)).getD (.named name)))
      else datasets.find? (·.name == other) := by
  induction datasets with
  | nil => by_cases heq : name = other <;> simp [upsert, hchange, Dataset.named, heq]
  | cons d rest ih =>
    obtain ⟨hd, hrest⟩ := List.pairwise_cons.mp h
    rw [upsert]
    by_cases hlt : name < d.name
    · -- the name is less than all others, so nothing is found under it yet
      have hnone : (d :: rest).find? (·.name == name) = none := by
        rw [List.find?_eq_none]
        intro e he heq
        obtain rfl : e.name = name := by simpa using heq
        rcases List.mem_cons.mp he with rfl | hmem
        · exact absurd hlt (lt_irrefl _)
        · exact absurd (hlt.trans (hd e hmem)) (lt_irrefl _)
      rw [if_pos hlt, hnone]
      by_cases heq : name = other <;> simp [hchange, Dataset.named, heq]
    · rw [if_neg hlt]
      by_cases hsame : d.name = name
      · rw [if_pos hsame]
        by_cases heq : name = other <;> simp [hchange, hsame, heq]
      · rw [if_neg hsame, List.find?_cons, ih hrest]
        by_cases heq : name = other
        · subst heq
          simp [beq_eq_false_iff_ne.mpr hsame]
        · by_cases hother : d.name = other
          · simp [heq, hother]
          · simp [heq, beq_eq_false_iff_ne.mpr hother]

/-- What is known of the dataset with a name after one more row about it. -/
def told (name : String) (known : Option Dataset) (row : DatasetRow) : Option Dataset :=
  some ((known.getD (.named name)).withProperty row.property row.value)

theorem find?_foldl_addRow {t : DatasetTable} (h : Sorted t.datasets) (rows : List DatasetRow)
    (name : String) : (rows.foldl addRow t).find? name =
      (rows.filter (·.name == name)).foldl (told name) (t.find? name) := by
  induction rows generalizing t with
  | nil => rfl
  | cons row rest ih =>
    have hchange : ∀ d : Dataset, (d.withProperty row.property row.value).name = d.name :=
      fun d => d.withProperty_name _ _
    have hrow : (t.addRow row).find? name =
        if row.name = name then told name (t.find? name) row else t.find? name := by
      rw [find?, addRow, find?_upsert hchange h]
      by_cases hname : row.name = name
      · subst hname
        simp [told, find?]
      · simp [hname, find?]
    rw [List.foldl_cons, ih (t := t.addRow row) (h.upsert hchange), hrow]
    by_cases hname : row.name = name <;> simp [hname]

/-- What is read about a name comes from the rows with this name, in their order. -/
theorem find?_read (output name : String) : (read output).find? name =
    ((datasetRows output).filter (·.name == name)).foldl (told name) none :=
  find?_foldl_addRow (t := empty) List.Pairwise.nil _ name

end DatasetTable

section Blocks

/-- The text is a block of complete rows, each about the dataset with a name. -/
structure IsBlock (name text : String) : Prop where
  ended : ∀ c ∈ text.toList.getLast?, c = '\n'
  own : ∀ row ∈ datasetRows text, row.name = name

instance (name text : String) : Decidable (IsBlock name text) :=
  decidable_of_iff
    (text.toList.getLast?.all (· == '\n') = true ∧ ∀ row ∈ datasetRows text, row.name = name)
    ⟨fun h => ⟨by simpa [Option.all_eq_true] using h.1, h.2⟩,
      fun h => ⟨by simpa [Option.all_eq_true] using h.ended, h.own⟩⟩

variable {block : String → String} {names : List String}

/-- The rows of blocks that are put together are those of the blocks. -/
theorem datasetRows_join (h : ∀ name ∈ names, IsBlock name (block name)) :
    datasetRows (String.join (names.map block)) =
      names.flatMap fun name => datasetRows (block name) := by
  induction names with
  | nil => rfl
  | cons name rest ih =>
    have hrest := ih fun other hother => h other (List.mem_cons_of_mem _ hother)
    rw [datasetRows, String.toList_join] at hrest ⊢
    rw [List.map_cons, List.flatMap_cons,
      Text.lines_append_of_ended (h name (List.mem_cons_self ..)).ended, List.filterMap_append,
      hrest]
    rfl

theorem filter_rows_of_own {name : String} (h : IsBlock name (block name)) (other : String) :
    (datasetRows (block name)).filter (·.name == other) =
      if name = other then datasetRows (block name) else [] := by
  by_cases heq : name = other
  · rw [if_pos heq, List.filter_eq_self]
    intro row hrow
    simp [h.own row hrow, heq]
  · rw [if_neg heq, List.filter_eq_nil_iff]
    intro row hrow
    simp [h.own row hrow, heq]

theorem filter_rows_join (h : ∀ name ∈ names, IsBlock name (block name)) (hnodup : names.Nodup)
    {name : String} (hname : name ∈ names) :
    (datasetRows (String.join (names.map block))).filter (·.name == name) =
      datasetRows (block name) := by
  rw [datasetRows_join h, List.filter_flatMap]
  induction names with
  | nil => contradiction
  | cons first rest ih =>
    obtain ⟨hfirst, hrest⟩ := List.nodup_cons.mp hnodup
    rw [List.flatMap_cons, filter_rows_of_own (h first (List.mem_cons_self ..))]
    have hothers : ∀ other ∈ rest, IsBlock other (block other) :=
      fun other hother => h other (List.mem_cons_of_mem _ hother)
    rcases List.mem_cons.mp hname with rfl | hmem
    · rw [if_pos rfl, List.flatMap_eq_nil_iff.mpr, List.append_nil]
      intro other hother
      rw [filter_rows_of_own (hothers other hother), if_neg]
      rintro rfl
      exact hfirst hother
    · rw [if_neg (ne_of_mem_of_not_mem hmem hfirst).symm, List.nil_append]
      exact ih hothers hrest hmem

/-- Among several blocks one tells about its own name what it tells by itself. -/
theorem find?_read_join (h : ∀ name ∈ names, IsBlock name (block name)) (hnodup : names.Nodup)
    {name : String} (hname : name ∈ names) :
    (DatasetTable.read (String.join (names.map block))).find? name =
      (DatasetTable.read (block name)).find? name := by
  rw [DatasetTable.find?_read, DatasetTable.find?_read, filter_rows_join h hnodup hname,
    filter_rows_of_own (h name hname), if_pos rfl]

end Blocks

end PoolGauge
