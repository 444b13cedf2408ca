import Mathlib.Data.List.TakeWhile
import PoolGauge.Dataset.Activity
import PoolGauge.Dataset.Properties

/-!
# The table of datasets and the activity of one

The table has one entry for each name that a row has. Whatever rows and statistics tell about a
dataset, it keeps its name and its pool.
-/
namespace PoolGauge

theorem filterMap_cons_eq_append {α β : Type} (f : α → Option β) (a : α) (rest : List α) :
    (a :: rest).filterMap f = (f a).toList ++ rest.filterMap f := by
  cases h : f a <;> simp [h]

/-- What can be told of the results from their origins is told of those that have a result. -/
theorem map_filterMap_of_some {α β γ : Type} {f : α → Option β} {g : β → γ} {k : α → γ}
    (h : ∀ a b, f a = some b → g b = k a) (l : List α) :
    (l.filterMap f).map g = (l.filter fun a => (f a).isSome).map k := by
  induction l with
  | nil => rfl
  | cons a rest ih =>
    rw [filterMap_cons_eq_append, List.map_append, ih, List.filter_cons]
    cases hfound : f a with
    | none => rfl
    | some b => simp [h a b hfound]

theorem eraseDups_filter {α : Type} [BEq α] [LawfulBEq α] (p : α → Bool) (l : List α) :
    (l.filter p).eraseDups = l.eraseDups.filter p := by
  induction hlength : l.length using Nat.strongRecOn generalizing l with
  | _ n ih =>
    cases l with
    | nil => rfl
    | cons a rest =>
      have hrest := ih (rest.filter fun b => !b == a).length
        (by have := List.length_filter_le (fun b => !b == a) rest; simp at hlength; omega) _ rfl
      rw [List.filter_filter] at hrest
      rw [List.eraseDups_cons, List.filter_cons, List.filter_cons, ← hrest]
      cases ha : p a with
      | true =>
        rw [if_pos rfl, if_pos rfl, List.eraseDups_cons, List.filter_filter]
        simp only [Bool.and_comm]
      | false =>
        rw [if_neg (by simp), if_neg (by simp)]
        refine congrArg List.eraseDups (List.filter_congr fun b _ => ?_)
        by_cases hb : b = a <;> simp [hb, ha]

theorem nodup_eraseDups {α : Type} [BEq α] [LawfulBEq α] (l : List α) : l.eraseDups.Nodup := by
  induction l with
  | nil => exact List.nodup_nil
  | cons a rest ih =>
    rw [List.eraseDups_cons, eraseDups_filter, List.nodup_cons]
    exact ⟨by simp, ih.filter _⟩

namespace Dataset

def Joined (d : Dataset) : Prop :=
  d.pool = poolOf d.name

theorem joined_named (name : String) : (named name).Joined := rfl

theorem withProperty_name (d : Dataset) (property : String) (value : List Char) :
    (d.withProperty property value).name = d.name := by
  unfold withProperty
  split <;> rfl

theorem Joined.withProperty {d : Dataset} (h : d.Joined) (property : String) (value : List Char) :
    (d.withProperty property value).Joined := by
  unfold Dataset.withProperty
  split <;> exact h

end Dataset

def datasetRows (output : String) : List DatasetRow :=
  (Text.lines output.toList).filterMap DatasetRow.read?

namespace DatasetTable

variable {name other : String} {change : Dataset → Dataset} {datasets : List Dataset}

theorem mem_map_name_upsert (hchange : ∀ d, (change d).name = d.name) :
    other ∈ (upsert name change datasets).map Dataset.name ↔
      other = name ∨ other ∈ datasets.map Dataset.name := by
  induction datasets with
  | nil => simp [upsert, hchange, Dataset.named]
  | cons d rest ih =>
    rw [upsert]
    split
    · simp [hchange, Dataset.named]
    · split
      · rename_i hname
        simp [hchange, hname]
      · rw [List.map_cons, List.mem_cons, ih, List.map_cons, List.mem_cons, or_left_comm]

theorem joined_upsert (hchange : ∀ {d : Dataset}, d.Joined → (change d).Joined)
    (h : ∀ d ∈ datasets, d.Joined) : ∀ d ∈ upsert name change datasets, d.Joined := by
  induction datasets with
  | nil => simpa [upsert] using hchange (Dataset.joined_named name)
  | cons d rest ih =>
    obtain ⟨hd, hrest⟩ := List.forall_mem_cons.mp h
    rw [upsert]
    split
    · exact List.forall_mem_cons.mpr ⟨hchange (Dataset.joined_named name), h⟩
    · split
      · exact List.forall_mem_cons.mpr ⟨hchange hd, hrest⟩
      · exact List.forall_mem_cons.mpr ⟨hd, ih hrest⟩

theorem mem_map_name_foldl (name : String) (rows : List DatasetRow) (t : DatasetTable) :
    name ∈ (rows.foldl addRow t).datasets.map Dataset.name ↔
      (∃ row ∈ rows, row.name = name) ∨ name ∈ t.datasets.map Dataset.name := by
  induction rows generalizing t with
  | nil => simp
  | cons row rest ih =>
    rw [List.foldl_cons, ih, addRow, mem_map_name_upsert fun d => d.withProperty_name _ _]
    simp only [List.mem_cons, exists_eq_or_imp]
    rw [← or_assoc, or_comm (a := ∃ _, _), eq_comm (a := name)]

theorem joined_foldl (rows : List DatasetRow) {t : DatasetTable} (h : ∀ d ∈ t.datasets, d.Joined) :
    ∀ d ∈ (rows.foldl addRow t).datasets, d.Joined := by
  induction rows generalizing t with
  | nil => exact h
  | cons row rest ih => exact ih (joined_upsert (fun hd => hd.withProperty _ _) h)

/-- A table that was read has an entry for a name just if a row has this name. -/
theorem isSome_find?_read_iff {output : String} :
    ((read output).find? name).isSome ↔ ∃ row ∈ datasetRows output, row.name = name := by
  have hnames := mem_map_name_foldl name (datasetRows output) empty
  rw [find?, List.find?_isSome]
  simp only [beq_iff_eq]
  rw [← List.mem_map, read]
  exact hnames.trans (by simp [empty])

theorem of_find?_read_eq_some {output : String} {d : Dataset}
    (h : (read output).find? name = some d) : d.name = name ∧ d.Joined := by
  refine ⟨by simpa using List.find?_some h, ?_⟩
  exact joined_foldl (datasetRows output) (t := empty) (by simp [empty]) d
    (List.mem_of_find?_eq_some h)

/-- The datasets of a table with some names, each where its name comes first. -/
def pick (t : DatasetTable) (names : List String) : List Dataset :=
  names.eraseDups.filterMap t.find?

/-- No name is picked twice. -/
theorem nodup_pick (t : DatasetTable) (names : List String) :
    ((t.pick names).map Dataset.name).Nodup := by
  have hname : ∀ name d, t.find? name = some d → d.name = id name := by
    intro name d hfound
    simpa using List.find?_some hfound
  rw [pick, map_filterMap_of_some hname, List.map_id]
  exact (nodup_eraseDups names).filter _

theorem find?_erase (t : DatasetTable) (name other : String) :
    (t.erase name).find? other = if other = name then none else t.find? other := by
  rw [erase, find?, find?, List.find?_filter]
  by_cases h : other = name
  · rw [if_pos h, List.find?_eq_none]
    simp [h]
  · rw [if_neg h]
    congr 1
    funext d
    by_cases hd : d.name = other <;> simp [hd, h]

theorem pick_cons (t : DatasetTable) (name : String) (rest : List String) :
    t.pick (name :: rest) = (t.find? name).toList ++ (t.erase name).pick rest := by
  rw [pick, pick, List.eraseDups_cons, eraseDups_filter, filterMap_cons_eq_append,
    List.filterMap_filter]
  congr 2
  funext other
  rw [find?_erase]
  by_cases h : other = name <;> simp [h]

theorem pick_erase_of_none {t : DatasetTable} {name : String}
    (h : t.find? name = none) (rest : List String) : (t.erase name).pick rest = t.pick rest := by
  rw [pick, pick]
  congr 1
  funext other
  rw [find?_erase]
  split
  · rw [‹other = name›, h]
  · rfl

end DatasetTable

/-- Statistics can be understood just if a line has their titles. -/
theorem DatasetStats.isOk_readActivity_iff (s : DatasetStats) (dataset statistics : String) :
    (∃ stats, s.readActivity dataset statistics = .ok stats) ↔
      ∃ line ∈ Text.lines statistics.toList, ActivityRow.isTitle line = true := by
  unfold readActivity
  split
  · rename_i hnone
    rw [List.dropWhile_eq_nil_iff] at hnone
    constructor
    · nofun
    · rintro ⟨line, hline, htitle⟩
      simpa [htitle] using hnone line hline
  · rename_i title rows hsome
    refine ⟨fun _ => ⟨title, ?_, ?_⟩, fun _ => ⟨_, rfl⟩⟩
    · exact (List.dropWhile_sublist _).mem (hsome ▸ List.mem_cons_self)
    · have := List.head?_dropWhile_not (!ActivityRow.isTitle ·) (Text.lines statistics.toList)
      simpa [hsome] using this

end PoolGauge
