import PoolGauge.Proofs.Collection.Course
import PoolGauge.Proofs.Dataset.Table
import PoolGauge.Proofs.Pool.Table
import PoolGauge.Proofs.Text.ByteOrder
import PoolGauge.Source.Script

/-!
# What an inventory has in it

An inventory has the listed pools whose status was told and can be understood, and the listed
datasets of these pools whose properties were told and whose activity, if there is any, can be
understood. Both are in the order of their names.
-/
namespace PoolGauge

section Pools

/-- Properties change nothing of a vdev but its figures. -/
theorem VdevProperties.attach_eq_refigured (p : VdevProperties) (v : Vdev) :
    p.attach v = { v with stats := (p.attach v).stats } := by
  unfold attach
  split <;> rfl

/-- The tree of a pool that was read grows from a root named after the pool. -/
theorem Pool.grown_ofStatus {name output : String} {status : PoolStatus}
    (h : PoolStatus.read name output = .ok status) (state : PoolState)
    (properties : Option VdevProperties) :
    (ofStatus name state status properties).vdevs.Grown name := by
  have grown : status.vdevs.Grown name := PoolStatus.grown_of_read h
  cases properties with
  | none => exact grown
  | some p =>
    rw [ofStatus, funext p.attach_eq_refigured]
    exact grown.refigure _

/-- A pool that was found has the name of its visit, and its tree grows from a root so named. -/
theorem PoolVisit.name_of_pool? {visit : PoolVisit} {pool : Pool} (h : visit.pool? = some pool) :
    pool.name = visit.listed.name ∧ pool.vdevs.Grown pool.name := by
  rw [pool?, Option.map_eq_some_iff] at h
  obtain ⟨status, hstatus, rfl⟩ := h
  obtain ⟨output, -, hread⟩ := visit.status?_eq_some_iff.mp hstatus
  exact ⟨rfl, Pool.grown_ofStatus hread _ _⟩

theorem PoolVisit.exists_pool?_iff (visit : PoolVisit) :
    (∃ pool, visit.pool? = some pool) ↔ ∃ output status, visit.status = .ok output ∧
      PoolStatus.read visit.listed.name output = .ok status := by
  simp only [pool?, Option.map_eq_some_iff, status?_eq_some_iff]
  constructor
  · rintro ⟨-, status, ⟨output, hok⟩, -⟩
    exact ⟨output, status, hok⟩
  · rintro ⟨output, status, hok⟩
    exact ⟨_, status, ⟨output, hok⟩, rfl⟩

end Pools

section Datasets

/-- The activity of the dataset can be told: it has no object set, or its object set has no
statistics, or these have their titles. -/
def DatasetVisit.Readable (visit : DatasetVisit) : Prop :=
  visit.dataset.objsetId = none ∨ visit.activity = .ok none ∨
    ∃ statistics, visit.activity = .ok (some statistics) ∧
      ∃ line ∈ Text.lines statistics.toList, ActivityRow.isTitle line = true

/-- A dataset is found just if its activity can be told, and then it is in its pool. -/
theorem DatasetVisit.dataset?_of_readable (visit : DatasetVisit) :
    (visit.Readable ↔ ∃ d, visit.dataset? = some d) ∧
      ∀ {d : Dataset}, visit.dataset? = some d →
        d.name = visit.dataset.name ∧ d.pool = visit.dataset.pool := by
  rw [Readable, dataset?]
  cases visit.dataset.objsetId with
  | none => simp
  | some id =>
    cases visit.activity with
    | error failure => simp
    | ok found =>
      cases found with
      | none => simp
      | some statistics =>
        have htitle := visit.dataset.stats.isOk_readActivity_iff visit.dataset.name statistics
        cases hread : visit.dataset.stats.readActivity visit.dataset.name statistics with
        | error fault => simp [hread, Except.toOption, ← htitle]
        | ok stats =>
          refine ⟨by simp [hread, Except.toOption, ← htitle], fun h => ?_⟩
          obtain rfl : { visit.dataset with stats } = _ := by
            simpa [hread, Except.toOption] using h
          exact ⟨rfl, rfl⟩

theorem mem_datasetsIn_iff {names : List String} {reply : Except Failure String} {d : Dataset} :
    d ∈ datasetsIn names reply ↔ ∃ output, reply = .ok output ∧ d.name ∈ names ∧
      (DatasetTable.read output).find? d.name = some d := by
  cases reply with
  | error failure => exact ⟨nofun, fun ⟨_, h, _⟩ => nomatch h⟩
  | ok output =>
    rw [datasetsIn, DatasetTable.pick, List.mem_filterMap]
    constructor
    · rintro ⟨name, hname, hfound⟩
      obtain ⟨rfl, -⟩ := DatasetTable.of_find?_read_eq_some hfound
      exact ⟨output, rfl, List.mem_eraseDups.mp hname, hfound⟩
    · rintro ⟨_, hreply, hname, hfound⟩
      obtain rfl := Except.ok.inj hreply
      exact ⟨d.name, List.mem_eraseDups.mpr hname, hfound⟩

theorem BatchVisit.mem_datasetsIn {batch : BatchVisit} {visit : DatasetVisit}
    (h : visit ∈ batch.visits) : visit.dataset ∈ datasetsIn batch.names batch.properties :=
  batch.found ▸ List.mem_map_of_mem h

/-- A batch visits just the datasets with its names that its properties tell about. -/
theorem BatchVisit.exists_visit_iff (batch : BatchVisit) {name : String} :
    (∃ visit ∈ batch.visits, visit.dataset.name = name) ↔ name ∈ batch.names ∧
      ∃ output, batch.properties = .ok output ∧ ∃ row ∈ datasetRows output, row.name = name := by
  constructor
  · rintro ⟨visit, hvisit, rfl⟩
    obtain ⟨output, hreply, hname, hfound⟩ := mem_datasetsIn_iff.mp (batch.mem_datasetsIn hvisit)
    exact ⟨hname, output, hreply,
      DatasetTable.isSome_find?_read_iff.mp (Option.isSome_of_eq_some hfound)⟩
  · rintro ⟨hname, output, hreply, hrow⟩
    obtain ⟨d, hfound⟩ :=
      Option.isSome_iff_exists.mp (DatasetTable.isSome_find?_read_iff.mpr hrow)
    obtain ⟨rfl, -⟩ := DatasetTable.of_find?_read_eq_some hfound
    have hmem : d ∈ batch.visits.map DatasetVisit.dataset := by
      rw [batch.found]
      exact mem_datasetsIn_iff.mpr ⟨output, hreply, hname, hfound⟩
    obtain ⟨visit, hvisit, rfl⟩ := List.mem_map.mp hmem
    exact ⟨visit, hvisit, rfl⟩

theorem BatchVisit.joined_of_mem {batch : BatchVisit} {visit : DatasetVisit}
    (h : visit ∈ batch.visits) : visit.dataset.Joined := by
  obtain ⟨output, -, -, hfound⟩ := mem_datasetsIn_iff.mp (batch.mem_datasetsIn h)
  exact (DatasetTable.of_find?_read_eq_some hfound).2

theorem BatchVisit.joined_of_dataset? {batch : BatchVisit} {visit : DatasetVisit} {d : Dataset}
    (h : visit ∈ batch.visits) (hfound : visit.dataset? = some d) : d.Joined := by
  obtain ⟨hname, hpool⟩ := visit.dataset?_of_readable.2 hfound
  rw [Dataset.Joined, hname, hpool]
  exact batch.joined_of_mem h

/-- The batches have just the items of the list, in their order. -/
theorem Collection.flatten_batches {α : Type} (size : Nat) (h : 0 < size) (items : List α) :
    (batches size items).flatten = items := by
  fun_induction batches size items with
  | case1 items _ ih => rw [List.flatten_cons, ih, List.take_append_drop]
  | case2 items hnone =>
    obtain rfl : items = [] := by
      rw [← List.length_eq_zero_iff]
      omega
    rfl

end Datasets

section Order

/-- Sorting by names puts the names in the order of their bytes. -/
theorem pairwise_bytes_mergeSort {α : Type} (name : α → String) (items : List α) :
    (items.mergeSort fun a b => decide (name a ≤ name b)).Pairwise
      fun a b => Text.bytes (name a) ≤ Text.bytes (name b) :=
  (Text.pairwise_sortByName name items).imp Text.bytes_le_bytes_iff.mpr

end Order

namespace Course

/-- What an inventory is at the end of a course. -/
structure LeadsTo (course : Course) (found : Inventory) : Prop where
  poolOrder : found.pools.Pairwise fun p q => Text.bytes p.name ≤ Text.bytes q.name
  datasetOrder : found.datasets.Pairwise fun d e => Text.bytes d.name ≤ Text.bytes e.name
  pools : found.pools.Perm (course.pools.filterMap PoolVisit.pool?)
  datasets : found.datasets.Perm ((course.batches.flatMap BatchVisit.datasets).filter
    fun d => found.pools.any (·.name == d.pool))
  root : ∀ p ∈ found.pools, p.vdevs.root.name = p.name
  joined : ∀ d ∈ found.datasets, d.pool = Dataset.poolOf d.name ∧ ∃ p ∈ found.pools, p.name = d.pool
  poolPresent : ∀ name, (∃ p ∈ found.pools, p.name = name) ↔ ∃ visit ∈ course.pools,
    visit.listed.name = name ∧ ∃ output status, visit.status = .ok output ∧
      PoolStatus.read name output = .ok status
  datasetPresent : ∀ name, (∃ d ∈ found.datasets, d.name = name) ↔
    name ∈ listedDatasets course.datasetList ∧
    (∃ batch ∈ course.batches, name ∈ batch.names ∧
      (∃ output, batch.properties = .ok output ∧ ∃ row ∈ datasetRows output, row.name = name) ∧
      ∃ visit ∈ batch.visits, visit.dataset.name = name ∧ visit.Readable) ∧
    ∃ p ∈ found.pools, p.name = Dataset.poolOf name

variable {course : Course}

theorem mem_pools_iff {p : Pool} :
    p ∈ course.inventory.pools ↔ ∃ visit ∈ course.pools, visit.pool? = some p := by
  rw [inventory, Collection.assemble, List.mem_mergeSort, List.mem_filterMap]

theorem mem_datasets_iff {d : Dataset} : d ∈ course.inventory.datasets ↔
    (∃ batch ∈ course.batches, ∃ visit ∈ batch.visits, visit.dataset? = some d) ∧
      ∃ p ∈ course.inventory.pools, p.name = d.pool := by
  simp only [inventory, Collection.assemble, List.mem_mergeSort, List.mem_filter, List.any_eq_true,
    beq_iff_eq, List.mem_flatMap, BatchVisit.datasets, List.mem_filterMap]

/-- A name of a batch is one of the list. -/
theorem mem_listedDatasets {batch : BatchVisit} {name : String} (hbatch : batch ∈ course.batches)
    (hname : name ∈ batch.names) : name ∈ listedDatasets course.datasetList := by
  rw [← Collection.flatten_batches Collection.batchSize (by decide)
    (listedDatasets course.datasetList), ← course.cut, List.mem_flatten]
  exact ⟨batch.names, List.mem_map_of_mem hbatch, hname⟩

theorem joined_of_mem {d : Dataset} (h : d ∈ course.inventory.datasets) : d.Joined := by
  obtain ⟨⟨batch, -, visit, hvisit, hfound⟩, -⟩ := mem_datasets_iff.mp h
  exact batch.joined_of_dataset? hvisit hfound

theorem exists_pool_iff {name : String} : (∃ p ∈ course.inventory.pools, p.name = name) ↔
    ∃ visit ∈ course.pools, visit.listed.name = name ∧ ∃ output status,
      visit.status = .ok output ∧ PoolStatus.read name output = .ok status := by
  constructor
  · rintro ⟨p, hp, rfl⟩
    obtain ⟨visit, hvisit, hfound⟩ := mem_pools_iff.mp hp
    have hname := (visit.name_of_pool? hfound).1
    refine ⟨visit, hvisit, hname.symm, ?_⟩
    rw [hname]
    exact visit.exists_pool?_iff.mp ⟨p, hfound⟩
  · rintro ⟨visit, hvisit, rfl, hstatus⟩
    obtain ⟨p, hfound⟩ := visit.exists_pool?_iff.mpr hstatus
    exact ⟨p, mem_pools_iff.mpr ⟨visit, hvisit, hfound⟩, (visit.name_of_pool? hfound).1⟩

theorem exists_dataset_iff {name : String} :
    (∃ d ∈ course.inventory.datasets, d.name = name) ↔
      name ∈ listedDatasets course.datasetList ∧
      (∃ batch ∈ course.batches, name ∈ batch.names ∧
        (∃ output, batch.properties = .ok output ∧ ∃ row ∈ datasetRows output, row.name = name) ∧
        ∃ visit ∈ batch.visits, visit.dataset.name = name ∧ visit.Readable) ∧
      ∃ p ∈ course.inventory.pools, p.name = Dataset.poolOf name := by
  constructor
  · rintro ⟨d, hd, rfl⟩
    have hjoined : d.pool = Dataset.poolOf d.name := joined_of_mem hd
    obtain ⟨⟨batch, hbatch, visit, hvisit, hfound⟩, hpool⟩ := mem_datasets_iff.mp hd
    have hname := (visit.dataset?_of_readable.2 hfound).1.symm
    obtain ⟨hlisted, hrow⟩ := batch.exists_visit_iff.mp ⟨visit, hvisit, hname⟩
    exact ⟨mem_listedDatasets hbatch hlisted,
      ⟨batch, hbatch, hlisted, hrow, visit, hvisit, hname,
        visit.dataset?_of_readable.1.mpr ⟨d, hfound⟩⟩, hjoined ▸ hpool⟩
  · rintro ⟨-, ⟨batch, hbatch, -, -, visit, hvisit, rfl, hreadable⟩, hpool⟩
    obtain ⟨d, hfound⟩ := visit.dataset?_of_readable.1.mp hreadable
    obtain ⟨hname, hsame⟩ := visit.dataset?_of_readable.2 hfound
    have hjoined : visit.dataset.pool = Dataset.poolOf visit.dataset.name :=
      batch.joined_of_mem hvisit
    exact ⟨d, mem_datasets_iff.mpr
      ⟨⟨batch, hbatch, visit, hvisit, hfound⟩, by rwa [hsame, hjoined]⟩, hname⟩

theorem leadsTo_inventory (course : Course) : course.LeadsTo course.inventory where
  poolOrder := pairwise_bytes_mergeSort Pool.name _
  datasetOrder := pairwise_bytes_mergeSort Dataset.name _
  pools := List.mergeSort_perm _ _
  datasets := by
    refine (List.mergeSort_perm _ _).trans (List.Perm.of_eq (List.filter_congr fun d _ => ?_))
    rw [Bool.eq_iff_iff, List.any_eq_true, List.any_eq_true]
    simp only [inventory, Collection.assemble, List.mem_mergeSort]
  root p hp := by
    obtain ⟨visit, -, hfound⟩ := mem_pools_iff.mp hp
    exact (visit.name_of_pool? hfound).2.named.root p.vdevs.get?_zero
  joined d hd := ⟨joined_of_mem hd, (mem_datasets_iff.mp hd).2⟩
  poolPresent _ := exists_pool_iff
  datasetPresent _ := exists_dataset_iff

end Course

namespace Collection

/-- A collection that succeeds has followed a course to its end, and its inventory is what this
course leads to: sorted by the bytes of the names, each pool with a root of its name and each
dataset with its pool. The pools are the listed ones whose status was told and can be understood;
the datasets are the listed ones that the properties of their batch tell about, whose activity can
be told, and whose pool is there. -/
theorem inventory_of_course {σ : Type} {source : Source σ} {state : σ} {found : Inventory}
    (h : (inventory.run.run source state).result = .ok found) :
    ∃ course : Course, inventory.run.exchanges source state = course.exchanges ∧
      course.LeadsTo found := by
  obtain ⟨course, hcourse⟩ := exists_course (Inquiry.yields_run source inventory.run state)
  rw [h] at hcourse
  obtain ⟨-, hlog, rfl⟩ := hcourse.of_ok
  exact ⟨course, hlog, course.leadsTo_inventory⟩

def partlyUnreadable : Script where
  pools := .ok "tank\tONLINE\nlost\tONLINE\n"
  datasets := .ok "tank/b\ntank/a\nlost/c\n"
  statuses := [("tank", .ok "\tNAME STATE\n\ttank ONLINE\n\t  sda ONLINE\n")]
  datasetProperties := [("tank/a", "tank/a\tobjsetid\t54\n"), ("tank/b", "tank/b\tobjsetid\t55\n"),
    ("lost/c", "lost/c\tused\t1\n")]
  kstats := [⟨"tank", 54, .ok "name type data\n"⟩, ⟨"tank", 55, .error (.io "")⟩]

/-- That pool and its dataset are left out, and so is the dataset with the statistics. -/
theorem inventory_of_partlyUnreadable : ∃ found,
    (inventory.run.run Rehearsal.source ⟨partlyUnreadable, []⟩).result = .ok found ∧
    (found.pools.map Pool.name, found.datasets.map Dataset.name) = (["tank"], ["tank/a"]) ∧
    ∃ course : Course, inventory.run.exchanges Rehearsal.source ⟨partlyUnreadable, []⟩ =
      course.exchanges ∧ course.LeadsTo found := by
  have hnames : (inventory.run.run Rehearsal.source ⟨partlyUnreadable, []⟩).result.toOption.map
      (fun found => (found.pools.map Pool.name, found.datasets.map Dataset.name)) =
        some (["tank"], ["tank/a"]) := by decide +kernel
  obtain ⟨found, hfound, hnames⟩ := exists_ok_of_toOption_map hnames
  exact ⟨found, hfound, hnames, inventory_of_course hfound⟩

end Collection

end PoolGauge
