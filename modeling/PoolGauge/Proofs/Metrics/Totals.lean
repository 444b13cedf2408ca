import PoolGauge.Metrics.Registry
import PoolGauge.Proofs.Dataset.Table
import PoolGauge.Proofs.Metrics.Entities

/-!
# What counters add up

A series of a counter shows the sum of all samples with its key. It shows the figure of one entity
if there is only one such sample. So it does in all families if the entities are told apart by their
names; what is counted for two pools or two datasets of one name is added up.
-/
namespace PoolGauge

/-- No two pools have one name, and no two datasets. -/
structure Inventory.NamesApart (s : Inventory) : Prop where
  pools : (s.pools.map Pool.name).Nodup
  datasets : (s.datasets.map Dataset.name).Nodup

/-- The names of pools have no slashes, and no two vdevs of a pool have one name. -/
structure Inventory.VdevsApart (s : Inventory) : Prop where
  slashFree : ∀ p ∈ s.pools, '/' ∉ p.name.toList
  names : ∀ p ∈ s.pools, p.vdevs.names.Nodup

namespace Metrics

/-- What the samples with a key add up to, wrapping at the end of the word. -/
def total (samples : List (Sample UInt64)) (key : String) : UInt64 :=
  ((samples.filter fun s => seriesKey s.labels = key).map Sample.value).foldr (· + ·) 0

/-- No two samples of a counter have one key. -/
def CountedOnce (s : Inventory) : Prop :=
  ∀ family ∈ storageFamilies, ∀ samples, family.measure = .counter samples →
    ((samples s).map fun x => seriesKey x.labels).Nodup

/-- What the counters of an inventory show. -/
structure CountersAdd (s : Inventory) : Prop where
  shown : ∀ family ∈ storageFamilies, ∀ samples, family.measure = .counter samples →
    ∀ x ∈ family.series s, ∃ sample ∈ samples s,
      x.labels = labelPairs family.labels sample.labels ∧
      x.value = Number.ofWord (total (samples s) (seriesKey sample.labels)) ∧
      (CountedOnce s → x.value = Number.ofWord sample.value)
  apart : CountedOnce s → s.NamesApart
  once : s.VdevsApart → s.NamesApart → CountedOnce s

section Totals

variable {samples : List (Sample UInt64)} {new x : Sample UInt64} {key : String}

theorem total_cons (x : Sample UInt64) (samples : List (Sample UInt64)) (key : String) :
    total (x :: samples) key =
      (if seriesKey x.labels = key then x.value else 0) + total samples key := by
  rw [total, total, List.filter_cons]
  by_cases h : seriesKey x.labels = key <;> simp [h]

/-- A sample adds to the series with its key and to no other. -/
theorem total_record (samples : List (Sample UInt64)) (new : Sample UInt64) (key : String) :
    total (record (· + ·) samples new) key = total (new :: samples) key := by
  induction samples with
  | nil => rfl
  | cons x rest ih =>
    rw [record]
    split
    · rename_i hsame
      rw [total_cons, total_cons, total_cons]
      by_cases h : seriesKey new.labels = key
      · rw [if_pos (hsame.trans h), if_pos (hsame.trans h), if_pos h]
        change x.value + new.value + _ = _
        ac_rfl
      · have hother : seriesKey x.labels ≠ key := fun heq => h (hsame.symm.trans heq)
        rw [if_neg hother, if_neg hother, if_neg h]
        ac_rfl
    · rw [total_cons, ih, total_cons, total_cons, total_cons]
      ac_rfl

/-- Putting samples together leaves what they add up to. -/
theorem total_gather (samples : List (Sample UInt64)) (key : String) :
    total (gather (· + ·) samples) key = total samples key := by
  suffices hfold : ∀ before, total (samples.foldl (record (· + ·)) before) key =
      total samples key + total before key by
    rw [gather, hfold]
    exact UInt64.add_zero _
  induction samples with
  | nil => exact fun before => (UInt64.zero_add _).symm
  | cons new rest ih =>
    intro before
    rw [List.foldl_cons, ih, total_record, total_cons, total_cons]
    ac_rfl

theorem total_eq_zero (h : ∀ s ∈ samples, seriesKey s.labels ≠ key) : total samples key = 0 := by
  rw [total, List.filter_eq_nil_iff.mpr (by simpa using h)]
  rfl

/-- Samples with different keys add up to nothing but their own values. -/
theorem total_of_nodup (h : (samples.map fun s => seriesKey s.labels).Nodup) (hx : x ∈ samples) :
    total samples (seriesKey x.labels) = x.value := by
  induction samples with
  | nil => contradiction
  | cons y rest ih =>
    obtain ⟨hnew, hrest⟩ := List.nodup_cons.mp h
    rw [total_cons]
    rcases List.mem_cons.mp hx with rfl | hmem
    · rw [if_pos rfl, total_eq_zero fun s hs heq => hnew (List.mem_map.mpr ⟨s, hs, heq⟩)]
      exact UInt64.add_zero _
    · rw [if_neg fun heq => hnew (List.mem_map.mpr ⟨x, hmem, heq.symm⟩), ih hrest hmem]
      exact UInt64.zero_add _

theorem value_of_mem_gather (hx : x ∈ gather (· + ·) samples) :
    x.value = total samples (seriesKey x.labels) := by
  have hkeys := (gather_labels (· + ·) samples).1
  rw [List.map_map] at hkeys
  rw [← total_gather, total_of_nodup hkeys hx]

theorem Measure.map_value_series {ε : Type} (samples : ε → List (Sample UInt64)) (source : ε) :
    ((counter samples).series source).map Sample.value =
      ((gather (· + ·) (samples source)).map Sample.value).map Number.ofWord := by
  rw [series, List.map_map, List.map_map]
  rfl

/-- A series of a counter has the labels of a sample, and shows what the samples with its key add up
to. -/
theorem Family.exists_sample_of_counter {ε : Type} {family : Family ε} {source : ε}
    {samples : ε → List (Sample UInt64)} (h : family.measure = .counter samples) {x : Series}
    (hx : x ∈ family.series source) : ∃ sample ∈ samples source,
      x.labels = labelPairs family.labels sample.labels ∧
      x.value = Number.ofWord (total (samples source) (seriesKey sample.labels)) := by
  rw [Family.series, List.mem_mergeSort, h, Measure.series, List.map_map, List.mem_map] at hx
  obtain ⟨sum, hsum, rfl⟩ := hx
  obtain ⟨sample, hsample, hlabels⟩ :=
    List.mem_map.mp ((gather_labels (· + ·) (samples source)).2 (List.mem_map_of_mem hsum))
  refine ⟨sample, hsample, congrArg (labelPairs family.labels) hlabels.symm, ?_⟩
  rw [hlabels]
  exact congrArg Number.ofWord (value_of_mem_gather hsum)

end Totals

section Names

variable {s : Inventory}

/-- Pools and datasets have counters of their own, so these tell whether names are apart. -/
theorem CountedOnce.namesApart (h : CountedOnce s) (joined : ∀ d ∈ s.datasets, d.Joined) :
    s.NamesApart where
  pools := by
    have hkeys := h poolFamilies[0] (List.mem_append_right _ (List.getElem_mem _)) _ rfl
    rw [List.map_map] at hkeys
    refine (List.map_congr_left fun p _ => ?_) ▸ hkeys
    simp [seriesKey]
  datasets := by
    have hkeys := h datasetFamilies[4] (List.mem_append_left _ (List.getElem_mem _)) _ rfl
    have hlabels : (datasetSamples DatasetStats.bytesRead s).map (fun x => seriesKey x.labels) =
        (s.datasets.map Dataset.name).map fun name => seriesKey [name, Dataset.poolOf name] := by
      rw [datasetSamples, List.map_map, List.map_map]
      refine List.map_congr_left fun d hd => ?_
      have hpool : d.pool = Dataset.poolOf d.name := joined d hd
      simp only [Function.comp_apply, datasetLabels, hpool]
    exact List.Nodup.of_map _ (hlabels ▸ hkeys)

theorem countedOnce_of_distinct (h : s.Distinct) : CountedOnce s := by
  intro family hfamily samples hcounter
  have hapart : family.Apart s := by
    rcases List.mem_append.mp hfamily with hdataset | hpool
    · exact datasetFamilies_apart h hdataset
    · exact poolFamilies_apart h hpool
  have hkeys := hapart.keys
  rw [hcounter, Measure.written, List.map_map] at hkeys
  exact hkeys

/-- If trees grow from their pools and datasets are in the pools of their names, then counters add
up what has one name and nothing else. -/
theorem countersAdd (grown : ∀ p ∈ s.pools, p.vdevs.Grown p.name)
    (joined : ∀ d ∈ s.datasets, d.Joined) : CountersAdd s where
  shown family hfamily samples hcounter x hx := by
    obtain ⟨sample, hsample, hlabels, hvalue⟩ := Family.exists_sample_of_counter hcounter hx
    refine ⟨sample, hsample, hlabels, hvalue, fun honce => ?_⟩
    rw [hvalue, total_of_nodup (honce family hfamily samples hcounter) hsample]
  apart honce := honce.namesApart joined
  once hvdevs hnames := countedOnce_of_distinct
    { pools := hnames.pools
      slashFree := hvdevs.slashFree
      grown := grown
      vdevs := hvdevs.names
      datasets := hnames.datasets
      joined := joined }

end Names

end Metrics

end PoolGauge
