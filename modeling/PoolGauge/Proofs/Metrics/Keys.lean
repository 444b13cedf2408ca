import Mathlib.Data.List.Perm.Basic
import PoolGauge.Metrics.Storage
import PoolGauge.Proofs.Vdev.Names

/-!
# Keys of series

The key of a series is its label values with nothing between them. It still tells the labels
apart: words for states and kinds end in no other such word, and the name of a vdev or of a dataset
begins with that of its pool, in which there is no slash.
-/
namespace PoolGauge.Metrics

def SuffixFree {α : Type} (word : α → String) : Prop :=
  ∀ a b, (word a).toList <:+ (word b).toList → a = b

theorem suffixFree_of_all {α : Type} {all : List α} {word : α → String} (hall : ∀ a, a ∈ all)
    (h : ∀ a ∈ all, ∀ b ∈ all, (word a).toList <:+ (word b).toList → a = b) : SuffixFree word :=
  fun a b => h a (hall a) b (hall b)

theorem poolState_word_suffixFree : SuffixFree PoolState.word :=
  suffixFree_of_all PoolState.mem_all (by decide +kernel)

theorem vdevState_word_suffixFree : SuffixFree VdevState.word :=
  suffixFree_of_all VdevState.mem_all (by decide +kernel)

theorem vdevKind_word_suffixFree : SuffixFree VdevKind.word :=
  suffixFree_of_all VdevKind.mem_all (by decide +kernel)

/-- A text that ends in a word can be cut before it if no word ends in another. -/
theorem append_word_inj {α : Type} {word : α → String} (free : SuffixFree word)
    {x y : List Char} {a b : α} (h : x ++ (word a).toList = y ++ (word b).toList) :
    x = y ∧ a = b := by
  have hab : a = b := by
    have ha : (word a).toList <:+ y ++ (word b).toList := h ▸ List.suffix_append x _
    rcases List.suffix_or_suffix_of_suffix ha (List.suffix_append y _) with hs | hs
    · exact free a b hs
    · exact (free b a hs).symm
  subst hab
  exact ⟨List.append_cancel_right h, rfl⟩

/-- The text is a name or stands below it. -/
def Below (name text : List Char) : Prop :=
  text = name ∨ ∃ rest, text = name ++ '/' :: rest

theorem append_self_inj {p q : List Char} (h : p ++ p = q ++ q) : p = q := by
  have hlength : p.length = q.length := by
    have := congrArg List.length h
    simp at this
    omega
  exact (List.append_inj h hlength).1

/-- A name followed by a text below it can be cut after the name. -/
theorem name_append_below_inj {p q v w : List Char} (hp : '/' ∉ p) (hq : '/' ∉ q)
    (hv : Below p v) (hw : Below q w) (h : p ++ v = q ++ w) : p = q ∧ v = w := by
  obtain rfl : p = q := by
    obtain rfl | ⟨r, rfl⟩ := hv <;> obtain rfl | ⟨s, rfl⟩ := hw
    · exact append_self_inj h
    · exact absurd (h ▸ by simp : '/' ∈ v ++ v) (by simpa using hp)
    · exact absurd (h ▸ by simp : '/' ∈ w ++ w) (by simpa using hq)
    · rw [← List.append_assoc, ← List.append_assoc] at h
      exact append_self_inj (append_slash_inj (by simpa using hp) (by simpa using hq) h).1
  exact ⟨rfl, List.append_cancel_left h⟩

/-- A text below a name can be cut before a name that follows it. -/
theorem below_append_name_inj {p q v w : List Char} (hp : '/' ∉ p) (hq : '/' ∉ q)
    (hv : Below p v) (hw : Below q w) (h : v ++ p = w ++ q) : v = w := by
  obtain rfl : p = q := by
    obtain rfl | ⟨r, rfl⟩ := hv <;> obtain rfl | ⟨s, rfl⟩ := hw
    · exact append_self_inj h
    · exact absurd (h ▸ by simp : '/' ∈ v ++ v) (by simpa using hp)
    · exact absurd (h ▸ by simp : '/' ∈ w ++ w) (by simpa using hq)
    · rw [List.append_assoc, List.append_assoc] at h
      exact (append_slash_inj hp hq h).1
  exact List.append_cancel_right h

theorem below_name_of_grown {pool : String} {t : VdevTree} (g : t.Grown pool) {v : Vdev}
    (hv : v ∈ t.toList) : Below pool.toList v.name.toList := by
  obtain ⟨i, hi⟩ := VdevTree.mem_toList_iff.mp hv
  obtain ⟨-, hname⟩ | ⟨-, rest, hname⟩ := g.name_eq hi
  · exact .inl (congrArg String.toList hname)
  · exact .inr ⟨rest.toList, by simp [hname]⟩

theorem slash_notMem_poolOf (name : String) : '/' ∉ (Dataset.poolOf name).toList := by
  intro h
  rw [Dataset.poolOf, String.toList_ofList] at h
  simpa using List.mem_takeWhile_imp h

theorem below_poolOf (name : String) : Below (Dataset.poolOf name).toList name.toList := by
  rw [Dataset.poolOf, String.toList_ofList]
  have hcut := List.takeWhile_append_dropWhile (p := (· != '/')) (l := name.toList)
  cases hrest : name.toList.dropWhile (· != '/') with
  | nil => exact .inl (by simpa [hrest] using hcut.symm)
  | cons c rest =>
    obtain rfl : c = '/' := by
      have := List.head?_dropWhile_not (p := (· != '/')) (l := name.toList)
      simpa [hrest] using this
    exact .inr ⟨rest, by rw [← hrest, hcut]⟩

theorem toList_seriesKey (labels : List String) :
    (seriesKey labels).toList = labels.flatMap String.toList := by
  rw [seriesKey, String.toList_join]

theorem seriesKey_append_word_inj {α : Type} {word : α → String} (free : SuffixFree word)
    {l m : List String} {a b : α}
    (h : seriesKey (l ++ [word a]) = seriesKey (m ++ [word b])) :
    seriesKey l = seriesKey m ∧ a = b := by
  have hlist := congrArg String.toList h
  simp only [toList_seriesKey, List.flatMap_append, List.flatMap_singleton] at hlist
  obtain ⟨hkeys, hwords⟩ := append_word_inj free hlist
  refine ⟨String.toList_inj.mp ?_, hwords⟩
  rw [toList_seriesKey, toList_seriesKey, hkeys]

end PoolGauge.Metrics

namespace PoolGauge

/-- The entities of an inventory are told apart by their names: pools by names without a slash,
the vdevs of a pool, whose tree grew from a root with the pool's name, and the datasets, each of
the pool that its name begins with. -/
structure Inventory.Distinct (s : Inventory) : Prop where
  pools : (s.pools.map Pool.name).Nodup
  slashFree : ∀ p ∈ s.pools, '/' ∉ p.name.toList
  grown : ∀ p ∈ s.pools, p.vdevs.Grown p.name
  vdevs : ∀ p ∈ s.pools, p.vdevs.names.Nodup
  datasets : (s.datasets.map Dataset.name).Nodup
  joined : ∀ d ∈ s.datasets, d.pool = Dataset.poolOf d.name

/-- The vdevs of all pools, each with its pool. -/
def Inventory.vdevs (s : Inventory) : List (Pool × Vdev) :=
  s.pools.flatMap fun p => p.vdevs.toList.map (p, ·)

namespace Metrics

variable {s : Inventory}

theorem mem_vdevs_iff {e : Pool × Vdev} :
    e ∈ s.vdevs ↔ e.1 ∈ s.pools ∧ e.2 ∈ e.1.vdevs.toList := by
  obtain ⟨p, v⟩ := e
  simp only [Inventory.vdevs, List.mem_flatMap, List.mem_map, Prod.mk.injEq]
  constructor
  · rintro ⟨p, hp, v, hv, rfl, rfl⟩
    exact ⟨hp, hv⟩
  · rintro ⟨hp, hv⟩
    exact ⟨p, hp, v, hv, rfl, rfl⟩

/-- No two vdevs have both the name and the name of the pool in common. -/
theorem vdevs_pairwise (h : s.Distinct) :
    s.vdevs.Pairwise fun e f => ¬ (e.1.name = f.1.name ∧ e.2.name = f.2.name) := by
  rw [Inventory.vdevs, List.pairwise_flatMap]
  constructor
  · intro p hp
    rw [List.pairwise_map]
    have hnames := h.vdevs p hp
    rw [VdevTree.names, List.Nodup, List.pairwise_map] at hnames
    exact hnames.imp fun hne heq => hne heq.2
  · have hpools := h.pools
    rw [List.Nodup, List.pairwise_map] at hpools
    refine hpools.imp fun hne e he f hf heq => hne ?_
    obtain ⟨v, -, rfl⟩ := List.mem_map.mp he
    obtain ⟨w, -, rfl⟩ := List.mem_map.mp hf
    exact heq.1

theorem vdevKey_inj (h : s.Distinct) {e f : Pool × Vdev} (he : e ∈ s.vdevs) (hf : f ∈ s.vdevs)
    (hkey : seriesKey (vdevLabels e.1 e.2) = seriesKey (vdevLabels f.1 f.2)) :
    e.1.name = f.1.name ∧ e.2.name = f.2.name := by
  obtain ⟨hp, hv⟩ := mem_vdevs_iff.mp he
  obtain ⟨hq, hw⟩ := mem_vdevs_iff.mp hf
  obtain ⟨hnames, -⟩ := seriesKey_append_word_inj vdevKind_word_suffixFree
    (l := [e.1.name, e.2.name]) (m := [f.1.name, f.2.name]) hkey
  have hlist := congrArg String.toList hnames
  simp only [toList_seriesKey, List.flatMap_cons, List.flatMap_nil, List.append_nil] at hlist
  obtain ⟨hpools, hvdevs⟩ := name_append_below_inj (h.slashFree _ hp) (h.slashFree _ hq)
    (below_name_of_grown (h.grown _ hp) hv) (below_name_of_grown (h.grown _ hq) hw) hlist
  exact ⟨String.toList_inj.mp hpools, String.toList_inj.mp hvdevs⟩

theorem datasetKey_inj (h : s.Distinct) {d e : Dataset} (hd : d ∈ s.datasets)
    (he : e ∈ s.datasets) (hkey : seriesKey (datasetLabels d) = seriesKey (datasetLabels e)) :
    d.name = e.name := by
  have hlist := congrArg String.toList hkey
  simp only [datasetLabels, h.joined d hd, h.joined e he, toList_seriesKey, List.flatMap_cons,
    List.flatMap_nil, List.append_nil] at hlist
  exact String.toList_inj.mp (below_append_name_inj (slash_notMem_poolOf _)
    (slash_notMem_poolOf _) (below_poolOf _) (below_poolOf _) hlist)

end Metrics

end PoolGauge
