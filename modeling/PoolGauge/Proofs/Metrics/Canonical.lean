import Mathlib.Data.List.Lex
import PoolGauge.Proofs.Metrics.ReadBack

/-!
# The order of the series

The series of an inventory stand in one order, by the names of their families and then by the values
of their labels. If the entities have distinct names, the series are those of the entities, so the
text does not depend on the order in which pools and datasets are gone through.
-/
namespace PoolGauge.Metrics

def Series.values (x : Series) : List String :=
  x.labels.map LabelPair.value

/-- A series stands above another one: by the names of their families, or within a family by the
values of their labels. -/
def Above (a b : String × Series) : Prop :=
  a.1 < b.1 ∨ a.1 = b.1 ∧ a.2.values < b.2.values

section Order

variable {s : Inventory} {family : Family Inventory}

theorem pairsLe_iff {a b : List LabelPair} :
    pairsLe a b = true ↔ a.map LabelPair.value ≤ b.map LabelPair.value := by
  rw [pairsLe, Bool.not_eq_true', ← Bool.not_eq_true, List.lex_eq_true_iff_lt, not_lt]

/-- Labels are their names and their values. -/
theorem labels_eq_zipWith (labels : List LabelPair) :
    List.zipWith LabelPair.mk (labels.map LabelPair.name) (labels.map LabelPair.value) =
      labels := by
  rw [List.zipWith_map, List.zipWith_self, List.map_id']

/-- The series of a family have the same names of labels, in the same order. -/
theorem series_names_eq (hfamily : family ∈ storageFamilies) {x y : Series}
    (hx : x ∈ family.series s) (hy : y ∈ family.series s) :
    x.labels.map LabelPair.name = y.labels.map LabelPair.name := by
  obtain ⟨hxperm, hxsorted⟩ := series_names hfamily hx
  obtain ⟨hyperm, hysorted⟩ := series_names hfamily hy
  exact List.Perm.eq_of_pairwise (fun _ _ _ _ hab hba => absurd hab (lt_asymm hba)) hxsorted
    hysorted (hxperm.trans hyperm.symm)

theorem labels_eq_of_values_eq (hfamily : family ∈ storageFamilies) {x y : Series}
    (hx : x ∈ family.series s) (hy : y ∈ family.series s) (h : x.values = y.values) :
    x.labels = y.labels := by
  rw [← labels_eq_zipWith x.labels, ← labels_eq_zipWith y.labels,
    series_names_eq hfamily hx hy]
  exact congrArg _ h

/-- The series of a family stand in the order of their label values, which are all different. -/
theorem series_pairwise (hfamily : family ∈ storageFamilies) :
    (family.series s).Pairwise fun x y => x.values < y.values := by
  have hsorted : (family.series s).Pairwise fun x y => pairsLe x.labels y.labels = true :=
    List.pairwise_mergeSort
      (fun a b c hab hbc => by
        rw [pairsLe_iff] at hab hbc ⊢
        exact hab.trans hbc)
      (fun a b => by
        rw [Bool.or_eq_true, pairsLe_iff, pairsLe_iff]
        exact le_total _ _) _
  have hdistinct := storageFamilies_series_nodup (s := s) hfamily
  rw [List.Nodup, List.pairwise_map] at hdistinct
  refine (hsorted.and hdistinct).imp_of_mem fun hx hy hxy => ?_
  exact lt_of_le_of_ne (pairsLe_iff.mp hxy.1)
    fun heq => hxy.2 (labels_eq_of_values_eq hfamily hx hy heq)

theorem Above.asymm {a b : String × Series} (h : Above a b) : ¬ Above b a := by
  rintro (hname | ⟨hname, hvalues⟩)
  · rcases h with hlt | ⟨heq, -⟩
    · exact lt_asymm hlt hname
    · exact lt_irrefl _ (heq ▸ hname)
  · rcases h with hlt | ⟨-, hlt⟩
    · exact lt_irrefl _ (hname ▸ hlt)
    · exact lt_asymm hlt hvalues

/-- All series stand in order. -/
theorem exposed_pairwise (s : Inventory) : (exposed s).Pairwise Above := by
  rw [exposed, ← storageFamilies, familiesSeries, List.pairwise_flatMap]
  constructor
  · intro family hfamily
    rw [List.pairwise_map]
    exact (series_pairwise hfamily).imp fun hlt => .inr ⟨rfl, hlt⟩
  · refine (List.pairwise_map.mp storageFamilies_sorted).imp fun hlt a ha b hb => ?_
    obtain ⟨x, -, rfl⟩ := List.mem_map.mp ha
    obtain ⟨y, -, rfl⟩ := List.mem_map.mp hb
    exact .inl hlt

theorem exposed_labels_pairwise {e : String × Series} (he : e ∈ exposed s) :
    (e.2.labels.map LabelPair.name).Pairwise (· < ·) := by
  rw [exposed, ← storageFamilies, familiesSeries, List.mem_flatMap] at he
  obtain ⟨family, hfamily, hmem⟩ := he
  obtain ⟨x, hx, rfl⟩ := List.mem_map.mp hmem
  exact (series_names hfamily hx).2

end Order

section Permutations

variable {s t : Inventory}

theorem vdevs_perm (hpools : t.pools.Perm s.pools) : t.vdevs.Perm s.vdevs :=
  hpools.flatMap_right _

/-- The entities in another order have the same series in another order. -/
theorem entitySeries_perm (hpools : t.pools.Perm s.pools) (hdatasets : t.datasets.Perm s.datasets) :
    (entitySeries t).Perm (entitySeries s) :=
  ((hpools.flatMap_right _).append ((vdevs_perm hpools).flatMap_right _)).append
    (hdatasets.flatMap_right _)

theorem distinct_of_perm (h : s.Distinct) (hpools : t.pools.Perm s.pools)
    (hdatasets : t.datasets.Perm s.datasets) : t.Distinct where
  pools := (hpools.map _).nodup_iff.mpr h.pools
  slashFree p hp := h.slashFree p (hpools.mem_iff.mp hp)
  grown p hp := h.grown p (hpools.mem_iff.mp hp)
  vdevs p hp := h.vdevs p (hpools.mem_iff.mp hp)
  datasets := (hdatasets.map _).nodup_iff.mpr h.datasets
  joined d hd := h.joined d (hdatasets.mem_iff.mp hd)

/-- The order of the series leaves no choice. -/
theorem exposed_eq_of_perm (h : s.Distinct) (hpools : t.pools.Perm s.pools)
    (hdatasets : t.datasets.Perm s.datasets) : exposed t = exposed s := by
  have hperm : (exposed t).Perm (exposed s) :=
    (exposed_perm (distinct_of_perm h hpools hdatasets)).trans
      ((entitySeries_perm hpools hdatasets).trans (exposed_perm h).symm)
  exact List.Perm.eq_of_pairwise (fun _ _ _ _ hab hba => absurd hab hba.asymm)
    (exposed_pairwise t) (exposed_pairwise s) hperm

/-- The text of an inventory with distinct entities does not depend on the order of its pools and
datasets. It has the series of the entities, in the order of the names of their families and of the
values of their labels, and the labels of each in the order of their names. -/
theorem encode_of_permuted (h : s.Distinct) (hpools : t.pools.Perm s.pools)
    (hdatasets : t.datasets.Perm s.datasets) :
    encode? s = .ok (encode s) ∧ encode? t = .ok (encode s) ∧ encode t = encode s ∧
    exposed t = exposed s ∧ (exposed s).Perm (entitySeries s) ∧ (exposed s).Pairwise Above ∧
    ∀ e ∈ exposed s, (e.2.labels.map LabelPair.name).Pairwise (· < ·) := by
  have hexposed := exposed_eq_of_perm h hpools hdatasets
  have htext : encode t = encode s := encode_eq_iff_exposed.mpr hexposed
  exact ⟨encode?_eq_ok s, htext ▸ encode?_eq_ok t, htext, hexposed, exposed_perm h,
    exposed_pairwise s, fun _ => exposed_labels_pairwise⟩

/-- Two pools, one with a disk, and their datasets, from either end. -/
theorem encode_of_reversed : ∃ s : Inventory,
    s.pools.map Pool.name = ["tank", "backup"] ∧
    s.vdevs.map (fun e => e.2.name) = ["tank", "tank/sda", "backup"] ∧
    s.datasets.map Dataset.name = ["tank/a", "backup", "tank"] ∧ s.Distinct ∧
    encode ⟨s.pools.reverse, s.datasets.reverse⟩ = encode s := by
  obtain ⟨tree, htree⟩ : ∃ tree,
      (VdevTree.single "tank" .online {}).push? 0 "/dev/sda" .disk .faulted { readErrors := 3 } =
        some tree := ⟨_, rfl⟩
  have hnames : tree.names = ["tank", "tank/sda"] := by
    obtain rfl := Option.some.inj htree
    decide
  have hbackup : (VdevTree.single "backup" .online {}).names = ["backup"] := rfl
  let s : Inventory := ⟨[⟨"tank", .degraded, 0, tree⟩,
      ⟨"backup", .active, 1, .single "backup" .online {}⟩],
    [⟨"tank/a", "tank", some 54, { reads := 2 }⟩, ⟨"backup", "backup", none, {}⟩,
      ⟨"tank", "tank", none, {}⟩]⟩
  have hs : s.Distinct := {
    pools := by simp [s]
    slashFree := by simp [s]
    grown := by
      simp only [s, List.mem_cons, List.not_mem_nil, or_false, forall_eq_or_imp, forall_eq]
      exact ⟨(VdevTree.Grown.single _ _).push htree, VdevTree.Grown.single _ _⟩
    vdevs := by simp [s, hnames, hbackup]
    datasets := by simp [s]
    joined := by simp [s]; decide }
  obtain ⟨-, -, htext, -⟩ :=
    encode_of_permuted hs (List.reverse_perm s.pools) (List.reverse_perm s.datasets)
      (t := ⟨s.pools.reverse, s.datasets.reverse⟩)
  refine ⟨s, rfl, ?_, rfl, hs, htext⟩
  have hvdevs : s.vdevs.map (fun e => e.2.name) = tree.names ++ ["backup"] := by
    simp [s, Inventory.vdevs, VdevTree.names, VdevTree.single, VdevTree.toList]
  rw [hvdevs, hnames, List.cons_append, List.singleton_append]

end Permutations

end PoolGauge.Metrics
