import Mathlib.Data.List.Flatten
import Mathlib.Data.List.Induction
import Mathlib.Data.List.Perm.Lattice
import PoolGauge.Proofs.Metrics.Keys

/-!
# Series of an inventory

What an inventory should expose is listed entity by entity: the series of each pool, of each vdev
and of each dataset, with its own labels and values. The families expose just these series if the
entities have distinct names.
-/
namespace PoolGauge.Metrics

/-- The samples of a measure before they are put together into series; counts become doubles. -/
def Measure.written {ε : Type} : Measure ε → ε → List (Sample Float)
  | gauge samples, source => samples source
  | counter samples, source => (samples source).map fun s => ⟨s.labels, Number.ofWord s.value⟩

/-- The series that a sample of the family makes if it has one of its own. -/
def Family.ownSeries {ε : Type} (family : Family ε) (sample : Sample Float) : Series :=
  ⟨labelPairs family.labels sample.labels, sample.value⟩

/-- The samples of the family have different keys, and as many label values as it has labels. -/
structure Family.Apart {ε : Type} (family : Family ε) (source : ε) : Prop where
  keys : ((family.measure.written source).map fun s => seriesKey s.labels).Nodup
  labels : family.labels.Nodup
  lengths : ∀ s ∈ family.measure.written source, s.labels.length = family.labels.length

theorem record_of_notMem {α : Type} (combine : α → α → α) {series : List (Sample α)}
    {new : Sample α} (h : ∀ s ∈ series, seriesKey s.labels ≠ seriesKey new.labels) :
    record combine series new = series ++ [new] := by
  induction series with
  | nil => rfl
  | cons s rest ih =>
    rw [record, if_neg (h s (by simp)), ih fun t ht => h t (by simp [ht])]
    rfl

/-- Samples with different keys are series as they stand. -/
theorem gather_of_nodup {α : Type} (combine : α → α → α) {samples : List (Sample α)}
    (h : (samples.map fun s => seriesKey s.labels).Nodup) : gather combine samples = samples := by
  suffices hfold : ∀ before, ((before ++ samples).map fun s => seriesKey s.labels).Nodup →
      samples.foldl (record combine) before = before ++ samples by
    exact hfold [] h
  clear h
  induction samples with
  | nil => simp
  | cons new rest ih =>
    intro before h
    have hnew : ∀ s ∈ before, seriesKey s.labels ≠ seriesKey new.labels := by
      intro s hs
      rw [List.map_append, List.nodup_append] at h
      exact h.2.2 _ (List.mem_map_of_mem hs) _ (by simp)
    rw [List.foldl_cons, record_of_notMem combine hnew, ih _ (by simpa using h)]
    simp

theorem Measure.series_of_nodup {ε : Type} (m : Measure ε) {source : ε}
    (h : ((m.written source).map fun s => seriesKey s.labels).Nodup) :
    m.series source = m.written source := by
  cases m with
  | gauge samples => exact gather_of_nodup _ h
  | counter samples =>
    rw [Measure.written, List.map_map] at h
    rw [Measure.series, gather_of_nodup _ h]
    rfl

theorem record_labels_of_mem {α : Type} (combine : α → α → α) {series : List (Sample α)}
    {new : Sample α} (h : ∃ s ∈ series, seriesKey s.labels = seriesKey new.labels) :
    (record combine series new).map Sample.labels = series.map Sample.labels := by
  induction series with
  | nil => simp at h
  | cons s rest ih =>
    by_cases hs : seriesKey s.labels = seriesKey new.labels
    · rw [record, if_pos hs, List.map_cons, List.map_cons]
    · rw [record, if_neg hs, List.map_cons, List.map_cons, ih (by simpa [hs] using h)]

/-- Series have different keys, and the labels of samples. -/
theorem gather_labels {α : Type} (combine : α → α → α) (samples : List (Sample α)) :
    (((gather combine samples).map Sample.labels).map seriesKey).Nodup ∧
      (gather combine samples).map Sample.labels ⊆ samples.map Sample.labels := by
  induction samples using List.reverseRecOn with
  | nil => simp [gather]
  | append_singleton samples new ih =>
    obtain ⟨hnodup, hsub⟩ := ih
    have hstep : gather combine (samples ++ [new]) =
        record combine (gather combine samples) new := by
      rw [gather, List.foldl_append]
      rfl
    rw [hstep, List.map_append]
    by_cases hfound : ∃ s ∈ gather combine samples, seriesKey s.labels = seriesKey new.labels
    · rw [record_labels_of_mem combine hfound]
      exact ⟨hnodup, List.Subset.trans hsub (List.subset_append_left ..)⟩
    · have hnew : seriesKey new.labels ∉
          ((gather combine samples).map Sample.labels).map seriesKey := by
        simpa using hfound
      rw [record_of_notMem combine (by simpa using hfound), List.map_append, List.map_append]
      refine ⟨List.Nodup.append hnodup (List.nodup_singleton _) (by simpa using hnew), ?_⟩
      exact List.append_subset.mpr
        ⟨List.Subset.trans hsub (List.subset_append_left ..), List.subset_append_right ..⟩

theorem Measure.series_labels {ε : Type} (m : Measure ε) (source : ε) :
    (((m.series source).map Sample.labels).map seriesKey).Nodup ∧
      (m.series source).map Sample.labels ⊆ (m.written source).map Sample.labels := by
  cases m with
  | gauge samples => exact gather_labels _ _
  | counter samples =>
    simpa [series, written, Function.comp_def] using gather_labels (· + ·) (samples source)

theorem Family.Apart.series_perm {ε : Type} {family : Family ε} {source : ε}
    (h : family.Apart source) :
    (family.series source).Perm ((family.measure.written source).map family.ownSeries) := by
  rw [Family.series, family.measure.series_of_nodup h.keys]
  exact List.mergeSort_perm _ _

/-- Label values are told apart by the labels with their values in any order. -/
theorem eq_of_zipWith_perm {names a b : List String} (hnames : names.Nodup)
    (ha : a.length = names.length) (hb : b.length = names.length)
    (h : (List.zipWith LabelPair.mk names a).Perm (List.zipWith LabelPair.mk names b)) : a = b := by
  induction names generalizing a b with
  | nil => simp_all
  | cons name rest ih =>
    obtain ⟨x, a, rfl⟩ := List.exists_cons_of_length_eq_add_one ha
    obtain ⟨y, b, rfl⟩ := List.exists_cons_of_length_eq_add_one hb
    obtain ⟨hname, hrest⟩ := List.nodup_cons.mp hnames
    simp only [List.zipWith_cons_cons] at h
    obtain rfl : x = y := by
      have hx : LabelPair.mk name x ∈ LabelPair.mk name y :: List.zipWith LabelPair.mk rest b :=
        h.subset (by simp)
      rcases List.mem_cons.mp hx with heq | hmem
      · exact (LabelPair.mk.inj heq).2
      · obtain ⟨i, hi, heq⟩ := List.getElem_of_mem hmem
        rw [List.getElem_zipWith] at heq
        exact absurd (LabelPair.mk.inj heq).1 fun hget => hname (hget ▸ List.getElem_mem _)
    rw [ih hrest (by simpa using ha) (by simpa using hb) h.cons_inv]

/-- No two series have all labels in common. -/
theorem Family.labels_nodup {ε : Type} {family : Family ε} {source : ε}
    (hlabels : family.labels.Nodup)
    (hlengths : ∀ s ∈ family.measure.written source, s.labels.length = family.labels.length) :
    ((family.series source).map Series.labels).Nodup := by
  obtain ⟨hkeys, hwritten⟩ := family.measure.series_labels source
  have hlength : ∀ s ∈ family.measure.series source, s.labels.length = family.labels.length := by
    intro s hs
    obtain ⟨t, ht, heq⟩ := List.mem_map.mp (hwritten (List.mem_map_of_mem hs))
    rw [← heq, hlengths t ht]
  rw [Family.series, ((List.mergeSort_perm _ _).map Series.labels).nodup_iff, List.map_map,
    List.Nodup, List.pairwise_map]
  rw [List.map_map, List.Nodup, List.pairwise_map] at hkeys
  refine hkeys.imp_of_mem fun {a b} ha hb hne hpairs => hne ?_
  have hperm : (List.zipWith LabelPair.mk family.labels a.labels).Perm
      (List.zipWith LabelPair.mk family.labels b.labels) :=
    (List.mergeSort_perm _ _).symm.trans ((List.Perm.of_eq hpairs).trans (List.mergeSort_perm _ _))
  rw [Function.comp_apply, Function.comp_apply,
    eq_of_zipWith_perm hlabels (hlength a ha) (hlength b hb) hperm]

section Shapes

variable {ι σ : Type}

/-- The family has one sample for each entity of a list, which makes the given series by itself. -/
structure Family.Shows {ε : Type} (family : Family ε) (source : ε) (name : String)
    (entities : List ι) (labels : ι → List String) (series : ι → Series) : Prop where
  name_eq : family.name = name
  written : family.measure.written source =
    entities.map fun e => ⟨labels e, (series e).value⟩
  pairs : ∀ e, labelPairs family.labels (labels e) = (series e).labels
  lengths : ∀ e, (labels e).length = family.labels.length
  nodup : family.labels.Nodup

namespace Family.Shows

variable {ε : Type} {family : Family ε} {source : ε} {name : String} {entities : List ι}
  {labels : ι → List String} {series : ι → Series}

theorem apart (h : family.Shows source name entities labels series)
    (hkeys : entities.Pairwise fun e f => seriesKey (labels e) ≠ seriesKey (labels f)) :
    family.Apart source where
  keys := by
    rw [h.written, List.map_map, List.Nodup, List.pairwise_map]
    exact hkeys
  labels := h.nodup
  lengths := by
    rw [h.written]
    intro s hs
    obtain ⟨e, -, rfl⟩ := List.mem_map.mp hs
    exact h.lengths e

theorem series_perm (h : family.Shows source name entities labels series)
    (hkeys : entities.Pairwise fun e f => seriesKey (labels e) ≠ seriesKey (labels f)) :
    ((family.series source).map fun x => (family.name, x)).Perm
      (entities.map fun e => (name, series e)) := by
  have hperm := (h.apart hkeys).series_perm.map fun x => (family.name, x)
  rw [h.written, List.map_map, List.map_map] at hperm
  refine hperm.trans (List.Perm.of_eq (List.map_congr_left fun e _ => ?_))
  simp only [Function.comp_apply, Family.ownSeries, h.name_eq, h.pairs]

end Family.Shows

def withStates (all : List σ) (entities : List ι) : List (ι × σ) :=
  entities.flatMap fun e => all.map (e, ·)

theorem oneHot_withStates [DecidableEq σ] (all : List σ) (word : σ → String) (entities : List ι)
    (labels : ι → List String) (actual : ι → σ) :
    (entities.flatMap fun e => oneHot all word (labels e) (actual e)) =
      (withStates all entities).map fun a => ⟨labels a.1 ++ [word a.2],
        if a.2 = actual a.1 then 1 else 0⟩ := by
  have hone : Number.nearest 1 1 = 1 := by decide
  have hzero : Number.nearest 0 1 = 0 := by decide
  simp [withStates, oneHot, List.map_flatMap, hone, hzero, Function.comp_def]

/-- Words for states keep keys apart that were apart without them. -/
theorem withStates_keys {all : List σ} {word : σ → String} {entities : List ι}
    {labels : ι → List String} (hall : all.Nodup)
    (free : SuffixFree word)
    (hkeys : entities.Pairwise fun e f => seriesKey (labels e) ≠ seriesKey (labels f)) :
    (withStates all entities).Pairwise fun a b =>
      seriesKey (labels a.1 ++ [word a.2]) ≠ seriesKey (labels b.1 ++ [word b.2]) := by
  rw [withStates, List.pairwise_flatMap]
  constructor
  · intro e _
    rw [List.pairwise_map]
    exact hall.imp fun hne heq => hne (seriesKey_append_word_inj free heq).2
  · refine hkeys.imp fun hne a ha b hb heq => hne ?_
    obtain ⟨x, -, rfl⟩ := List.mem_map.mp ha
    obtain ⟨y, -, rfl⟩ := List.mem_map.mp hb
    exact (seriesKey_append_word_inj free heq).1

end Shapes

variable {s : Inventory}

theorem poolKeys (h : s.Distinct) :
    s.pools.Pairwise fun p q => seriesKey [p.name] ≠ seriesKey [q.name] := by
  have hpools := h.pools
  rw [List.Nodup, List.pairwise_map] at hpools
  refine hpools.imp fun hne heq => hne ?_
  simpa [seriesKey] using heq

theorem vdevKeys (h : s.Distinct) : s.vdevs.Pairwise fun e f =>
    seriesKey (vdevLabels e.1 e.2) ≠ seriesKey (vdevLabels f.1 f.2) :=
  (vdevs_pairwise h).imp_of_mem fun he hf hne heq => hne (vdevKey_inj h he hf heq)

theorem datasetKeys (h : s.Distinct) : s.datasets.Pairwise fun d e =>
    seriesKey (datasetLabels d) ≠ seriesKey (datasetLabels e) := by
  have hdatasets := h.datasets
  rw [List.Nodup, List.pairwise_map] at hdatasets
  exact hdatasets.imp_of_mem fun hd he hne heq => hne (datasetKey_inj h hd he heq)

theorem poolStateKeys (h : s.Distinct) :
    (withStates PoolState.all s.pools).Pairwise fun a b =>
      seriesKey ([a.1.name] ++ [a.2.word]) ≠ seriesKey ([b.1.name] ++ [b.2.word]) :=
  withStates_keys PoolState.nodup_all poolState_word_suffixFree (poolKeys h)

theorem vdevStateKeys (h : s.Distinct) :
    (withStates VdevState.all s.vdevs).Pairwise fun a b =>
      seriesKey (vdevLabels a.1.1 a.1.2 ++ [a.2.word]) ≠
        seriesKey (vdevLabels b.1.1 b.1.2 ++ [b.2.word]) :=
  withStates_keys VdevState.nodup_all vdevState_word_suffixFree (vdevKeys h)

theorem vdevSamples_eq {α : Type} (figure : VdevStats → α) (s : Inventory) :
    vdevSamples figure s = s.vdevs.map fun e => ⟨vdevLabels e.1 e.2, figure e.2.stats⟩ := by
  simp [vdevSamples, Inventory.vdevs, List.map_flatMap, Function.comp_def]

end PoolGauge.Metrics
