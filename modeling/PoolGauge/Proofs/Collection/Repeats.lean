import PoolGauge.Proofs.Collection.Replies
import PoolGauge.Proofs.Metrics.Totals

/-!
# Names that stand in an inventory more than once

A pool is read as often as it is listed, and each reading makes a pool of the inventory. A dataset
is taken once from each batch that it is listed in, so a repeat is dropped within a batch, but not
from one batch to the next. Counters add up what has one name.
-/
namespace PoolGauge

section Counts

/-- Every list in which an item is found has it at least once. -/
theorem countP_mem_le_count_flatten {α : Type} [DecidableEq α] (lists : List (List α)) (a : α) :
    (lists.countP fun l => decide (a ∈ l)) ≤ lists.flatten.count a := by
  induction lists with
  | nil => exact Nat.le_refl 0
  | cons l rest ih =>
    rw [List.countP_cons, List.flatten_cons, List.count_append]
    by_cases hmem : a ∈ l
    · have hone : 1 ≤ l.count a := List.one_le_count_iff.mpr hmem
      simp only [hmem, decide_true, if_true]
      omega
    · simp only [hmem, decide_false, Bool.false_eq_true, if_false]
      omega

/-- Lists without repeats have an item once each, if at all. -/
theorem count_flatten_of_nodup {α : Type} [DecidableEq α] {lists : List (List α)}
    (h : ∀ l ∈ lists, l.Nodup) (a : α) :
    lists.flatten.count a = lists.countP fun l => decide (a ∈ l) := by
  induction lists with
  | nil => rfl
  | cons l rest ih =>
    obtain ⟨hl, hrest⟩ := List.forall_mem_cons.mp h
    rw [List.flatten_cons, List.count_append, hl.count, ih hrest, List.countP_cons, Nat.add_comm]
    simp only [decide_eq_true_eq]

/-- A filter that looks at names only keeps all with a name or none. -/
theorem count_map_filter {α β : Type} [DecidableEq β] {items : List α} {name : α → β} {p : α → Bool}
    {q : β → Bool} (h : ∀ a ∈ items, p a = q (name a)) (b : β) :
    ((items.filter p).map name).count b = if q b then (items.map name).count b else 0 := by
  have hsame : (items.filter p).map name = (items.map name).filter q := by
    rw [List.filter_map]
    exact congrArg _ (List.filter_congr h)
  rw [hsame]
  split
  · exact List.count_filter ‹_›
  · rw [List.count_eq_zero, List.mem_filter]
    exact fun hmem => ‹¬ _› hmem.2

end Counts

section Lists

theorem Collection.length_batches_le_one {α : Type} {size : Nat} {items : List α}
    (h : items.length ≤ size) : (batches size items).length ≤ 1 := by
  rw [batches]
  split
  · rw [List.drop_of_length_le h, batches]
    simp
  · simp

/-- Names on lines of their own are the lines. -/
theorem lines_join_newline {names : List String}
    (h : ∀ name ∈ names, '\n' ∉ name.toList ∧ '\r' ∉ name.toList) :
    Text.lines (String.join (names.map (· ++ "\n"))).toList = names.map String.toList := by
  have hsolid : ∀ line ∈ names.map String.toList, '\n' ∉ line ∧ '\r' ∉ line := by simpa using h
  have hcut := Text.lines_flatMap_newline hsolid []
  rw [String.toList_join, List.flatMap_map]
  simpa [List.flatMap_map] using hcut

/-- Names without blanks are listed by writing them on lines. -/
theorem readDatasetList_of_lines {names : List String}
    (h : ∀ name ∈ names, name ≠ "" ∧ ∀ c ∈ name.toList, Text.isBlank c = false) :
    readDatasetList (String.join (names.map (· ++ "\n"))) = names := by
  have hblank : ∀ name ∈ names, ∀ c, Text.isBlank c = true → c ∉ name.toList :=
    fun name hname c hc hmem => absurd ((h name hname).2 c hmem) (by simp [hc])
  have hkept : names.filter (fun name => name != "" && name != "no datasets available") =
      names := by
    refine List.filter_eq_self.mpr fun name hname => ?_
    have hnotice : name ≠ "no datasets available" := by
      rintro rfl
      exact hblank _ hname ' ' (by decide) (by decide)
    simp [(h name hname).1, hnotice]
  have htrimmed : names.map ((fun line => String.ofList (Text.trim line)) ∘ String.toList) =
      names := by
    refine (List.map_congr_left fun name hname => ?_).trans (List.map_id names)
    rw [Function.comp_apply, Text.trim_eq_self (h name hname).2, String.ofList_toList]
    rfl
  rw [readDatasetList, lines_join_newline fun name hname =>
      ⟨hblank name hname '\n' (by decide), hblank name hname '\r' (by decide)⟩,
    List.map_map, htrimmed, hkept]

/-- Pools and datasets that are in order and belong together are put together as they are. -/
theorem Collection.assemble_of_ordered {pools : List Pool} {datasets : List Dataset}
    (hpools : pools.Pairwise fun p q => p.name ≤ q.name)
    (hdatasets : datasets.Pairwise fun d e => d.name ≤ e.name)
    (hjoined : ∀ d ∈ datasets, ∃ p ∈ pools, p.name = d.pool) :
    assemble pools datasets = ⟨pools, datasets⟩ := by
  have hkept : (datasets.filter fun d => pools.any (·.name == d.pool)) = datasets :=
    List.filter_eq_self.mpr (by simpa using hjoined)
  rw [assemble, hkept, List.mergeSort_of_pairwise (by simpa using hpools),
    List.mergeSort_of_pairwise (by simpa using hdatasets)]

end Lists

section Visits

theorem PoolVisit.map_name_pools (visits : List PoolVisit) :
    (visits.filterMap PoolVisit.pool?).map Pool.name =
      (visits.filter fun visit => visit.pool?.isSome).map fun visit => visit.listed.name :=
  map_filterMap_of_some (fun visit _ h => (visit.name_of_pool? h).1) visits

theorem BatchVisit.map_name_datasets (batch : BatchVisit) :
    batch.datasets.map Dataset.name =
      (batch.visits.filter fun visit => visit.dataset?.isSome).map fun visit =>
        visit.dataset.name :=
  map_filterMap_of_some (fun visit _ h => (visit.dataset?_of_readable.2 h).1) batch.visits

/-- However often a batch has a name, it finds no two datasets with it. -/
theorem BatchVisit.nodup_names (batch : BatchVisit) : (batch.datasets.map Dataset.name).Nodup := by
  have hvisited : (batch.visits.map fun visit => visit.dataset.name).Nodup := by
    have hfound := congrArg (List.map Dataset.name) batch.found
    rw [List.map_map] at hfound
    rw [show (fun visit : DatasetVisit => visit.dataset.name) =
      Dataset.name ∘ DatasetVisit.dataset from rfl, hfound]
    cases batch.properties with
    | error failure => exact List.nodup_nil
    | ok output => exact DatasetTable.nodup_pick _ _
  rw [batch.map_name_datasets]
  exact (List.filter_sublist.map _).nodup hvisited

theorem BatchVisit.mem_names {batch : BatchVisit} {name : String}
    (h : name ∈ batch.datasets.map Dataset.name) : name ∈ batch.names := by
  rw [batch.map_name_datasets, List.mem_map] at h
  obtain ⟨visit, hvisit, rfl⟩ := h
  exact (batch.exists_visit_iff.mp ⟨visit, (List.mem_filter.mp hvisit).1, rfl⟩).1

end Visits

namespace Course

def timesRead (course : Course) (name : String) : Nat :=
  course.pools.countP fun visit => visit.listed.name == name && visit.pool?.isSome

/-- The number of batches in which a dataset with the name was found. -/
def timesFound (course : Course) (name : String) : Nat :=
  course.batches.countP fun batch => decide (name ∈ batch.datasets.map Dataset.name)

/-- How often names stand in the inventory at the end of a course. -/
structure Repeats (course : Course) (found : Inventory) : Prop where
  pools : ∀ name, (found.pools.map Pool.name).count name = course.timesRead name
  datasets : ∀ name, (found.datasets.map Dataset.name).count name =
    if found.pools.any (·.name == Dataset.poolOf name) then course.timesFound name else 0
  read_le : ∀ name, course.timesRead name ≤
    ((listedPools course.poolList).map ListedPool.name).count name
  found_le : ∀ name, course.timesFound name ≤
    (Collection.batches Collection.batchSize (listedDatasets course.datasetList)).countP
      fun batch => decide (name ∈ batch)
  apart_iff : found.NamesApart ↔ (∀ name, course.timesRead name ≤ 1) ∧
    ∀ name, (∃ p ∈ found.pools, p.name = Dataset.poolOf name) → course.timesFound name ≤ 1
  apart_of_lists : ((listedPools course.poolList).map ListedPool.name).Nodup →
    (listedDatasets course.datasetList).Nodup ∨
      (listedDatasets course.datasetList).length ≤ Collection.batchSize → found.NamesApart

variable {course : Course}

theorem count_pools (course : Course) (name : String) :
    (course.inventory.pools.map Pool.name).count name = course.timesRead name := by
  have hperm : (course.inventory.pools.map Pool.name).Perm
      ((course.pools.filterMap PoolVisit.pool?).map Pool.name) :=
    course.leadsTo_inventory.pools.map _
  rw [hperm.count_eq, PoolVisit.map_name_pools, List.count_eq_countP, List.countP_map,
    List.countP_filter]
  rfl

theorem count_datasets (course : Course) (name : String) :
    (course.inventory.datasets.map Dataset.name).count name =
      if course.inventory.pools.any (·.name == Dataset.poolOf name) then course.timesFound name
      else 0 := by
  have hjoined : ∀ d ∈ course.batches.flatMap BatchVisit.datasets,
      (course.inventory.pools.any (·.name == d.pool)) =
        course.inventory.pools.any (·.name == Dataset.poolOf d.name) := by
    intro d hd
    obtain ⟨batch, -, hmem⟩ := List.mem_flatMap.mp hd
    obtain ⟨visit, hvisit, hfound⟩ := List.mem_filterMap.mp hmem
    have hpool : d.pool = Dataset.poolOf d.name := batch.joined_of_dataset? hvisit hfound
    rw [hpool]
  have hnames : (course.batches.flatMap BatchVisit.datasets).map Dataset.name =
      (course.batches.map fun batch => batch.datasets.map Dataset.name).flatten := by
    rw [List.map_flatMap, List.flatMap]
  rw [(course.leadsTo_inventory.datasets.map Dataset.name).count_eq,
    count_map_filter (q := fun name =>
      course.inventory.pools.any (·.name == Dataset.poolOf name)) hjoined, hnames,
    count_flatten_of_nodup, List.countP_map]
  · rfl
  · intro names hmem
    obtain ⟨batch, -, rfl⟩ := List.mem_map.mp hmem
    exact batch.nodup_names

theorem timesRead_le (course : Course) (name : String) : course.timesRead name ≤
    ((listedPools course.poolList).map ListedPool.name).count name := by
  rw [← course.listed, List.map_map, List.count_eq_countP, List.countP_map]
  exact List.countP_mono_left fun visit _ h => (Bool.and_eq_true_iff.mp h).1

theorem timesFound_le (course : Course) (name : String) : course.timesFound name ≤
    (Collection.batches Collection.batchSize (listedDatasets course.datasetList)).countP
      fun batch => decide (name ∈ batch) := by
  rw [← course.cut, List.countP_map]
  exact List.countP_mono_left fun batch _ h => by
    simpa using batch.mem_names (of_decide_eq_true h)

/-- A dataset that is listed once, or in a list for one batch, is found once. -/
theorem timesFound_le_one (h : (listedDatasets course.datasetList).Nodup ∨
    (listedDatasets course.datasetList).length ≤ Collection.batchSize) (name : String) :
    course.timesFound name ≤ 1 := by
  refine (course.timesFound_le name).trans ?_
  rcases h with hnodup | hshort
  · refine (countP_mem_le_count_flatten _ name).trans ?_
    rw [Collection.flatten_batches _ (by decide)]
    exact List.nodup_iff_count_le_one.mp hnodup name
  · exact List.countP_le_length.trans (Collection.length_batches_le_one hshort)

theorem namesApart_iff : course.inventory.NamesApart ↔ (∀ name, course.timesRead name ≤ 1) ∧
    ∀ name, (∃ p ∈ course.inventory.pools, p.name = Dataset.poolOf name) →
      course.timesFound name ≤ 1 := by
  have hiff : course.inventory.NamesApart ↔ (course.inventory.pools.map Pool.name).Nodup ∧
      (course.inventory.datasets.map Dataset.name).Nodup :=
    ⟨fun h => ⟨h.pools, h.datasets⟩, fun h => ⟨h.1, h.2⟩⟩
  simp only [hiff, List.nodup_iff_count_le_one, count_pools, count_datasets, List.any_eq_true,
    beq_iff_eq]
  refine and_congr_right fun _ => forall_congr' fun name => ?_
  split
  · exact ⟨fun h _ => h, fun h => h ‹_›⟩
  · exact ⟨fun _ h => absurd h ‹_›, fun _ => Nat.zero_le 1⟩

theorem repeats_inventory (course : Course) : course.Repeats course.inventory where
  pools := course.count_pools
  datasets := course.count_datasets
  read_le := course.timesRead_le
  found_le := course.timesFound_le
  apart_iff := namesApart_iff
  apart_of_lists hpools hdatasets := namesApart_iff.mpr
    ⟨fun name => (course.timesRead_le name).trans (List.nodup_iff_count_le_one.mp hpools name),
      fun name _ => timesFound_le_one hdatasets name⟩

theorem countersAdd_inventory (course : Course) : Metrics.CountersAdd course.inventory := by
  refine Metrics.countersAdd (fun p hp => ?_) fun d hd => joined_of_mem hd
  obtain ⟨visit, -, hfound⟩ := mem_pools_iff.mp hp
  exact (visit.name_of_pool? hfound).2

end Course

namespace Collection

/-- A collection ends with a pool for each time that one was read, and with a dataset of such a pool
for each batch in which one was found. So names are apart just if no name was read or found twice.
They are if the list of pools has no name twice, and the list of datasets has none either or makes
one batch. A series of a counter shows what all entities with its labels add up to, which is the
figure of one entity if pools and datasets have names apart and so have the vdevs of each pool. -/
theorem repeats_of_course {σ : Type} {source : Source σ} {state : σ} {found : Inventory}
    (h : (inventory.run.run source state).result = .ok found) :
    ∃ course : Course, inventory.run.exchanges source state = course.exchanges ∧
      course.Repeats found ∧ Metrics.CountersAdd found := by
  obtain ⟨course, hcourse⟩ := exists_course (Inquiry.yields_run source inventory.run state)
  rw [h] at hcourse
  obtain ⟨-, hlog, rfl⟩ := hcourse.of_ok
  exact ⟨course, hlog, course.repeats_inventory, course.countersAdd_inventory⟩

def repeatedInBatch : Script where
  pools := .ok "tank\tONLINE\n"
  datasets := .ok "tank/a\ntank/b\ntank/a\n"
  statuses := [("tank", .ok "\tNAME STATE\n\ttank ONLINE\n")]
  datasetProperties := [("tank/a", "tank/a\tused\t4096\n")]

/-- The dataset is found once. -/
theorem repeats_of_repeatedInBatch : ∃ found,
    (inventory.run.run Rehearsal.source ⟨repeatedInBatch, []⟩).result = .ok found ∧
    found.datasets.map Dataset.name = ["tank/a"] ∧
    ∃ course : Course, inventory.run.exchanges Rehearsal.source ⟨repeatedInBatch, []⟩ =
      course.exchanges ∧ course.Repeats found ∧ Metrics.CountersAdd found := by
  have hnames : (inventory.run.run Rehearsal.source ⟨repeatedInBatch, []⟩).result.toOption.map
      (fun found => found.datasets.map Dataset.name) = some ["tank/a"] := by decide +kernel
  obtain ⟨found, hfound, hnames⟩ := exists_ok_of_toOption_map hnames
  exact ⟨found, hfound, hnames, repeats_of_course hfound⟩

section Relisting

open Collecting Metrics

/-- A host that lists a pool twice, and a dataset more often than a batch has room for. -/
def relisting : (query : Query) → query.Reply
  | .listPools => .ok "tank\tONLINE\ntank\tONLINE\n"
  | .poolStatus _ => .ok "\tNAME STATE READ WRITE CKSUM\n\ttank ONLINE 3 0 0\n"
  | .vdevProperties _ => .ok ""
  | .listDatasets => .ok (String.join ((List.replicate 257 "tank/a").map (· ++ "\n")))
  | .datasetProperties _ => .ok "tank/a\tobjsetid\t54\n"
  | .objsetKstat .. => .ok (some "1 1\nname type data\nreads 4 7\n")

def relisted : Inventory where
  pools := List.replicate 2 ⟨"tank", .active, 0, .single "tank" .online { readErrors := 3 }⟩
  datasets := List.replicate 2
    { Dataset.named "tank/a" with objsetId := some 54, stats := { reads := 7 } }

theorem resultBy_relisting_batch {names : List String} (h : names.eraseDups = ["tank/a"]) :
    resultBy relisting (batchDatasets names) = .ok (relisted.datasets.take 1) := by
  have hreply : relisting (.datasetProperties names) = .ok "tank/a\tobjsetid\t54\n" := rfl
  rw [resultBy_batchDatasets hreply, DatasetTable.pick, h]
  rfl

theorem resultBy_relisting : resultBy relisting inventory = .ok relisted := by
  have htold : (resultBy relisting pools).toOption.map id = some relisted.pools := by
    decide +kernel
  obtain ⟨_, hpools, rfl⟩ := exists_ok_of_toOption_map htold
  have hlist : relisting .listDatasets =
      .ok (String.join ((List.replicate 257 "tank/a").map (· ++ "\n"))) := rfl
  have hnames : ∀ name ∈ List.replicate 257 "tank/a",
      name ≠ "" ∧ ∀ c ∈ name.toList, Text.isBlank c = false := by
    intro name hname
    obtain rfl := List.eq_of_mem_replicate hname
    have hsolid : "tank/a".toList.all (!Text.isBlank ·) = true := by decide
    exact ⟨by decide, by simpa using hsolid⟩
  have hcut : batches batchSize (List.replicate 257 "tank/a") =
      [List.replicate 256 "tank/a", ["tank/a"]] := by decide +kernel
  -- the second batch has a single name, but knows nothing of the first
  have hdatasets : resultBy relisting datasets = .ok relisted.datasets := by
    rw [datasets, resultBy_listed hlist, readDatasetList_of_lines hnames, hcut]
    exact resultBy_batchesDatasets_cons (resultBy_relisting_batch (by decide +kernel))
      (resultBy_batchesDatasets_cons (resultBy_relisting_batch (by decide +kernel)) rfl)
  rw [resultBy_assemble hpools hdatasets, assemble_of_ordered (by decide) (by decide) (by decide)]

/-- The pool and the dataset are found twice, and their errors and reads are added up. -/
theorem not_names_nodup_of_relisting : ∃ found,
    (inventory.run.run (.fixed relisting) ()).result = .ok found ∧
    ¬ (found.pools.map Pool.name).Nodup ∧ ¬ (found.datasets.map Dataset.name).Nodup ∧
    (vdevSamples VdevStats.readErrors found).map Sample.value = [3, 3] ∧
    (poolFamilies[5].measure.series found).map Sample.value = [Number.ofWord 6] ∧
    (datasetSamples DatasetStats.reads found).map Sample.value = [7, 7] ∧
    (datasetFamilies[8].measure.series found).map Sample.value = [Number.ofWord 14] := by
  have hfound := resultBy_relisting
  rw [resultBy] at hfound
  have herrors : (gather (· + ·) (vdevSamples VdevStats.readErrors relisted)).map Sample.value =
      [6] := by decide +kernel
  have hreads : (gather (· + ·) (datasetSamples DatasetStats.reads relisted)).map Sample.value =
      [14] := by decide +kernel
  refine ⟨relisted, hfound, by decide, by decide, by decide +kernel, ?_, by decide +kernel, ?_⟩
  · exact (Measure.map_value_series (vdevSamples VdevStats.readErrors) _).trans
      (congrArg _ herrors)
  · exact (Measure.map_value_series (datasetSamples DatasetStats.reads) _).trans
      (congrArg _ hreads)

end Relisting

end Collection

end PoolGauge
