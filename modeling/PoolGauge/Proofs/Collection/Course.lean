import PoolGauge.Proofs.Collection.Outcome
import PoolGauge.Proofs.Dataset.Table

/-!
# The course of a collection

A course is what a collection asks if no reply ends it: the pools with the status and the figures of
each, then the datasets in batches with the activity of each. Whatever is replied, a collection
follows a course up to the first reply that ends it, and fails with that; without one it ends with
what the visits of the course have found.
-/
namespace PoolGauge

section Visits

/-- What is asked about a listed pool: its status, and if that can be understood, its figures. -/
structure PoolVisit where
  listed : ListedPool
  status : Except Failure String
  figures : Except Failure String

namespace PoolVisit

def status? (visit : PoolVisit) : Option PoolStatus :=
  (visit.status >>= PoolStatus.read visit.listed.name).toOption

theorem status?_of_ok {listed : ListedPool} {output : String} {status : PoolStatus}
    (h : PoolStatus.read listed.name output = .ok status) (figures : Except Failure String) :
    (PoolVisit.mk listed (.ok output) figures).status? = some status :=
  congrArg Except.toOption h

theorem status?_of_error {listed : ListedPool} {output : String} {failure : Failure}
    (h : PoolStatus.read listed.name output = .error failure) (figures : Except Failure String) :
    (PoolVisit.mk listed (.ok output) figures).status? = none :=
  congrArg Except.toOption h

theorem status?_eq_some_iff (visit : PoolVisit) {status : PoolStatus} :
    visit.status? = some status ↔ ∃ output, visit.status = .ok output ∧
      PoolStatus.read visit.listed.name output = .ok status := by
  rw [status?]
  cases visit.status with
  | error failure => exact ⟨nofun, fun ⟨_, h, _⟩ => nomatch h⟩
  | ok output =>
    change (PoolStatus.read visit.listed.name output).toOption = some status ↔ _
    cases hread : PoolStatus.read visit.listed.name output <;> simp [Except.toOption, hread]

def exchanges (visit : PoolVisit) : List Exchange :=
  ⟨.poolStatus visit.listed.name, visit.status⟩ ::
    if visit.status?.isSome then [⟨.vdevProperties visit.listed.name, visit.figures⟩] else []

def pool? (visit : PoolVisit) : Option Pool :=
  visit.status?.map fun status => .ofStatus visit.listed.name visit.listed.state status
    (visit.figures.toOption.map VdevProperties.read)

def refused (listed : ListedPool) : PoolVisit :=
  ⟨listed, .error (.unavailable ""), .error (.unavailable "")⟩

theorem map_listed_refused (listed : List ListedPool) :
    (listed.map refused).map PoolVisit.listed = listed := by
  rw [List.map_map]
  exact List.map_id listed

end PoolVisit

/-- What is asked about a dataset: its activity, if it has an object set. -/
structure DatasetVisit where
  dataset : Dataset
  activity : Except Failure (Option String)

namespace DatasetVisit

def exchanges (visit : DatasetVisit) : List Exchange :=
  match visit.dataset.objsetId with
  | none => []
  | some id => [⟨.objsetKstat visit.dataset.pool id, visit.activity⟩]

/-- The dataset that was found. It keeps its zeros without an object set or without statistics, and
is left out if there are statistics that cannot be read or understood. -/
def dataset? (visit : DatasetVisit) : Option Dataset :=
  match visit.dataset.objsetId, visit.activity with
  | none, _ => some visit.dataset
  | some _, .error _ => none
  | some _, .ok none => some visit.dataset
  | some _, .ok (some statistics) =>
    ((visit.dataset.stats.readActivity visit.dataset.name statistics).toOption).map
      fun stats => { visit.dataset with stats }

/-- No reply about activity ends a collection. -/
theorem findSome?_exchanges (visit : DatasetVisit) :
    visit.exchanges.findSome? Exchange.fatal? = none := by
  rw [exchanges]
  cases visit.dataset.objsetId <;> rfl

end DatasetVisit

def datasetsIn (names : List String) : Except Failure String → List Dataset
  | .error _ => []
  | .ok output => (DatasetTable.read output).pick names

/-- What is asked about a batch of datasets: their properties, then the activity of each dataset
found. -/
structure BatchVisit where
  names : List String
  properties : Except Failure String
  visits : List DatasetVisit
  found : visits.map DatasetVisit.dataset = datasetsIn names properties

namespace BatchVisit

def exchanges (batch : BatchVisit) : List Exchange :=
  ⟨.datasetProperties batch.names, batch.properties⟩ ::
    batch.visits.flatMap DatasetVisit.exchanges

def datasets (batch : BatchVisit) : List Dataset :=
  batch.visits.filterMap DatasetVisit.dataset?

def refused (names : List String) : BatchVisit :=
  ⟨names, .error (.unavailable ""), [], rfl⟩

theorem map_names_refused (batches : List (List String)) :
    (batches.map refused).map BatchVisit.names = batches := by
  rw [List.map_map]
  exact List.map_id batches

end BatchVisit

/-- The pools of a list, none if it was refused or has a pool without a name. -/
def listedPools (reply : Except Failure String) : List ListedPool :=
  (reply >>= readPoolList).toOption.getD []

def listedDatasets (reply : Except Failure String) : List String :=
  (reply.toOption.map readDatasetList).getD []

/-- All that is asked for an inventory: the list of pools and each of them, then the list of
datasets and each batch of them. -/
structure Course where
  poolList : Except Failure String
  pools : List PoolVisit
  datasetList : Except Failure String
  batches : List BatchVisit
  listed : pools.map PoolVisit.listed = listedPools poolList
  cut : batches.map BatchVisit.names =
    Collection.batches Collection.batchSize (listedDatasets datasetList)

namespace Course

def exchanges (course : Course) : List Exchange :=
  (⟨.listPools, course.poolList⟩ :: course.pools.flatMap PoolVisit.exchanges) ++
    ⟨.listDatasets, course.datasetList⟩ :: course.batches.flatMap BatchVisit.exchanges

/-- The inventory of what the visits found. -/
def inventory (course : Course) : Inventory :=
  Collection.assemble (course.pools.filterMap PoolVisit.pool?)
    (course.batches.flatMap BatchVisit.datasets)

end Course

end Visits

namespace Collection

open Inquiry Collecting Exchange

variable {log : List Exchange}

/-- A pool that is asked about is visited. -/
theorem exists_visit {listed : ListedPool} {result : Except Failure (Option Pool)}
    (h : Yields (pool? listed) log result) : ∃ visit : PoolVisit, visit.listed = listed ∧
      Exchange.Follows visit.exchanges visit.pool? log result := by
  rcases yields_attempt_bind h with ⟨failure, htransient, rfl, rfl⟩ |
    ⟨failure, rest, hcontained, rfl, hrest⟩ | ⟨output, rest, rfl, hrest⟩
  · exact ⟨⟨listed, .error failure, .error failure⟩, rfl,
      follows_stop (by simp [fatal?, htransient]) [] none⟩
  · obtain ⟨rfl, rfl⟩ := yields_pure hrest
    exact ⟨⟨listed, .error failure, .error failure⟩, rfl,
      (follows_nil none).cons (by simp [fatal?, hcontained])⟩
  · cases hread : PoolStatus.read listed.name output with
    | error fault =>
      simp only [hread] at hrest
      obtain ⟨rfl, rfl⟩ := yields_pure hrest
      refine ⟨⟨listed, .ok output, .error fault⟩, rfl, ?_⟩
      rw [PoolVisit.exchanges, PoolVisit.pool?, PoolVisit.status?_of_error hread, Option.map_none]
      exact (follows_nil none).cons rfl
    | ok status =>
      simp only [hread] at hrest
      have hvisit : ∀ figures : Except Failure String,
          (PoolVisit.mk listed (.ok output) figures).status? = some status :=
        PoolVisit.status?_of_ok hread
      rcases yields_attempt_bind hrest with ⟨failure, htransient, rfl, rfl⟩ |
        ⟨failure, rest, hcontained, rfl, hend⟩ | ⟨figures, rest, rfl, hend⟩
      · refine ⟨⟨listed, .ok output, .error failure⟩, rfl, ?_⟩
        rw [PoolVisit.exchanges, hvisit]
        exact (follows_stop (by simp [fatal?, htransient]) [] _).cons rfl
      · obtain ⟨rfl, rfl⟩ := yields_pure hend
        refine ⟨⟨listed, .ok output, .error failure⟩, rfl, ?_⟩
        rw [PoolVisit.exchanges, PoolVisit.pool?, hvisit]
        exact ((follows_nil _).cons (by simp [fatal?, hcontained])).cons rfl
      · obtain ⟨rfl, rfl⟩ := yields_pure hend
        refine ⟨⟨listed, .ok output, .ok figures⟩, rfl, ?_⟩
        rw [PoolVisit.exchanges, PoolVisit.pool?, hvisit]
        exact ((follows_nil _).cons rfl).cons rfl

/-- The pools that are asked about are visited one after the other. -/
theorem exists_visits {listed : List ListedPool} {result : Except Failure (List Pool)}
    (h : Yields (readablePools listed) log result) :
    ∃ visits : List PoolVisit, visits.map PoolVisit.listed = listed ∧
      Exchange.Follows (visits.flatMap PoolVisit.exchanges) (visits.filterMap PoolVisit.pool?)
        log result := by
  induction listed generalizing log result with
  | nil =>
    obtain ⟨rfl, rfl⟩ := yields_pure h
    exact ⟨[], rfl, follows_nil []⟩
  | cons pool rest ih =>
    obtain ⟨failure, rfl, hpool⟩ | ⟨found, first, second, rfl, hpool, hrest⟩ := yields_bind h
    · obtain ⟨visit, rfl, hvisit⟩ := exists_visit hpool
      refine ⟨visit :: rest.map PoolVisit.refused, ?_, ?_⟩
      · rw [List.map_cons, PoolVisit.map_listed_refused]
      · rw [List.flatMap_cons]
        exact hvisit.append_of_error _ _
    · obtain ⟨visit, rfl, hvisit⟩ := exists_visit hpool
      obtain ⟨others, hothers, rfl⟩ := yields_map hrest
      obtain ⟨visits, rfl, hvisits⟩ := ih hothers
      obtain ⟨-, -, rfl⟩ := hvisit.of_ok
      refine ⟨visit :: visits, rfl, ?_⟩
      rw [List.flatMap_cons, filterMap_cons_eq_append]
      exact hvisit.append_of_ok (hvisits.map _)

/-- A dataset that is asked about is visited. -/
theorem exists_datasetVisit {d : Dataset} {result : Except Failure (Option Dataset)}
    (h : Yields (withActivity? d) log result) : ∃ visit : DatasetVisit, visit.dataset = d ∧
      Exchange.Follows visit.exchanges visit.dataset? log result := by
  rw [withActivity?] at h
  cases hid : d.objsetId with
  | none =>
    simp only [hid] at h
    obtain ⟨rfl, rfl⟩ := yields_pure h
    refine ⟨⟨d, .ok none⟩, rfl, ?_⟩
    simp only [DatasetVisit.exchanges, DatasetVisit.dataset?, hid]
    exact follows_nil _
  | some id =>
    simp only [hid] at h
    obtain ⟨reply, rest, rfl, hrest⟩ := yields_tolerate_bind h
    refine ⟨⟨d, reply⟩, rfl, ?_⟩
    simp only [DatasetVisit.exchanges, DatasetVisit.dataset?, hid]
    cases reply with
    | error failure =>
      obtain ⟨rfl, rfl⟩ := yields_pure hrest
      exact (follows_nil _).cons rfl
    | ok found =>
      cases found with
      | none =>
        obtain ⟨rfl, rfl⟩ := yields_pure hrest
        exact (follows_nil _).cons rfl
      | some statistics =>
        simp only at hrest ⊢
        cases hread : d.stats.readActivity d.name statistics with
        | error fault =>
          simp only [hread] at hrest
          obtain ⟨rfl, rfl⟩ := yields_pure hrest
          exact (follows_nil _).cons rfl
        | ok stats =>
          simp only [hread] at hrest
          obtain ⟨rfl, rfl⟩ := yields_pure hrest
          exact (follows_nil _).cons rfl

/-- The datasets that are found in a table are visited one after the other, and none of these
visits ends a walk. -/
theorem exists_datasetVisits {table : DatasetTable} {names : List String}
    {result : Except Failure (List Dataset)} (h : Yields (takeDatasets table names) log result) :
    ∃ visits : List DatasetVisit, visits.map DatasetVisit.dataset = table.pick names ∧
      Exchange.Follows (visits.flatMap DatasetVisit.exchanges)
        (visits.filterMap DatasetVisit.dataset?) log result := by
  induction names generalizing table log result with
  | nil =>
    obtain ⟨rfl, rfl⟩ := yields_pure h
    exact ⟨[], rfl, follows_nil []⟩
  | cons name rest ih =>
    rw [takeDatasets] at h
    rw [DatasetTable.pick_cons]
    cases hfound : table.find? name with
    | none =>
      simp only [hfound] at h
      rw [DatasetTable.pick_erase_of_none hfound]
      exact ih h
    | some d =>
      simp only [hfound] at h
      obtain ⟨failure, rfl, hdataset⟩ | ⟨found, first, second, rfl, hdataset, hrest⟩ :=
        yields_bind h
      · obtain ⟨visit, -, hvisit⟩ := exists_datasetVisit hdataset
        simpa [visit.findSome?_exchanges] using hvisit.findSome?_of_error
      · obtain ⟨visit, rfl, hvisit⟩ := exists_datasetVisit hdataset
        obtain ⟨others, hothers, rfl⟩ := yields_map hrest
        obtain ⟨visits, hvisits, hfollows⟩ := ih hothers
        obtain ⟨-, -, rfl⟩ := hvisit.of_ok
        refine ⟨visit :: visits, by rw [List.map_cons, hvisits]; rfl, ?_⟩
        rw [List.flatMap_cons, filterMap_cons_eq_append]
        exact hvisit.append_of_ok (hfollows.map _)

/-- A batch that is asked about is visited. -/
theorem exists_batchVisit {names : List String} {result : Except Failure (List Dataset)}
    (h : Yields (batchDatasets names) log result) : ∃ batch : BatchVisit, batch.names = names ∧
      Exchange.Follows batch.exchanges batch.datasets log result := by
  rcases yields_attempt_bind h with ⟨failure, htransient, rfl, rfl⟩ |
    ⟨failure, rest, hcontained, rfl, hrest⟩ | ⟨output, rest, rfl, hrest⟩
  · exact ⟨⟨names, .error failure, [], rfl⟩, rfl,
      follows_stop (by simp [fatal?, htransient]) [] []⟩
  · obtain ⟨rfl, rfl⟩ := yields_pure hrest
    exact ⟨⟨names, .error failure, [], rfl⟩, rfl,
      (follows_nil []).cons (by simp [fatal?, hcontained])⟩
  · obtain ⟨visits, hvisits, hfollows⟩ := exists_datasetVisits hrest
    exact ⟨⟨names, .ok output, visits, hvisits⟩, rfl, hfollows.cons rfl⟩

/-- The batches that are asked about are visited one after the other. -/
theorem exists_batchVisits {names : List (List String)} {result : Except Failure (List Dataset)}
    (h : Yields (batchesDatasets names) log result) :
    ∃ batches : List BatchVisit, batches.map BatchVisit.names = names ∧
      Exchange.Follows (batches.flatMap BatchVisit.exchanges)
        (batches.flatMap BatchVisit.datasets) log result := by
  induction names generalizing log result with
  | nil =>
    obtain ⟨rfl, rfl⟩ := yields_pure h
    exact ⟨[], rfl, follows_nil []⟩
  | cons name rest ih =>
    obtain ⟨failure, rfl, hbatch⟩ | ⟨found, first, second, rfl, hbatch, hrest⟩ := yields_bind h
    · obtain ⟨batch, rfl, hfollows⟩ := exists_batchVisit hbatch
      refine ⟨batch :: rest.map BatchVisit.refused, ?_, ?_⟩
      · rw [List.map_cons, BatchVisit.map_names_refused]
      · rw [List.flatMap_cons]
        exact hfollows.append_of_error _ _
    · obtain ⟨batch, rfl, hfollows⟩ := exists_batchVisit hbatch
      obtain ⟨others, hothers, rfl⟩ := yields_map hrest
      obtain ⟨batches, rfl, hbatches⟩ := ih hothers
      obtain ⟨-, -, rfl⟩ := hfollows.of_ok
      refine ⟨batch :: batches, rfl, ?_⟩
      rw [List.flatMap_cons, List.flatMap_cons]
      exact hfollows.append_of_ok (hbatches.map _)

theorem exists_poolVisits {result : Except Failure (List Pool)} (h : Yields pools log result) :
    ∃ (reply : Except Failure String) (visits : List PoolVisit),
      visits.map PoolVisit.listed = listedPools reply ∧
      Exchange.Follows (⟨.listPools, reply⟩ :: visits.flatMap PoolVisit.exchanges)
        (visits.filterMap PoolVisit.pool?) log result := by
  obtain ⟨failure, rfl, rfl⟩ | ⟨output, rest, rfl, hrest⟩ := yields_require_bind h
  · exact ⟨.error failure, [], rfl, follows_stop rfl [] []⟩
  · obtain ⟨failure, hlisted, rfl, rfl⟩ | ⟨listed, hlisted, hpools⟩ := yields_liftM_bind hrest
    · refine ⟨.ok output, [], (congrArg (·.toOption.getD []) hlisted).symm, ?_⟩
      have hfatal : fatal? ⟨.listPools, .ok output⟩ = some failure :=
        mapM_read_eq_error_iff.mp hlisted
      exact follows_stop hfatal [] []
    · obtain ⟨visits, rfl, hvisits⟩ := exists_visits hpools
      refine ⟨.ok output, visits, (congrArg (·.toOption.getD []) hlisted).symm, hvisits.cons ?_⟩
      refine Option.eq_none_iff_forall_ne_some.mpr fun failure hfatal => ?_
      exact absurd (hlisted.symm.trans (mapM_read_eq_error_iff.mpr hfatal)) nofun

theorem exists_batches {result : Except Failure (List Dataset)} (h : Yields datasets log result) :
    ∃ (reply : Except Failure String) (visits : List BatchVisit),
      visits.map BatchVisit.names = batches batchSize (listedDatasets reply) ∧
      Exchange.Follows (⟨.listDatasets, reply⟩ :: visits.flatMap BatchVisit.exchanges)
        (visits.flatMap BatchVisit.datasets) log result := by
  obtain ⟨failure, rfl, rfl⟩ | ⟨output, rest, rfl, hrest⟩ := yields_require_bind h
  · refine ⟨.error failure, [], ?_, follows_stop rfl [] []⟩
    rw [batches]
    rfl
  · obtain ⟨visits, hvisits, hfollows⟩ := exists_batchVisits hrest
    exact ⟨.ok output, visits, hvisits, hfollows.cons rfl⟩

/-- Whatever is replied, a collection follows a course. -/
theorem exists_course {result : Except Failure Inventory} (h : Yields inventory log result) :
    ∃ course : Course, Exchange.Follows course.exchanges course.inventory log result := by
  obtain ⟨failure, rfl, hpools⟩ | ⟨found, first, second, rfl, hpools, hrest⟩ := yields_bind h
  · obtain ⟨reply, visits, hlisted, hvisits⟩ := exists_poolVisits hpools
    refine ⟨⟨reply, visits, .error failure, [], hlisted, ?_⟩, hvisits.append_of_error _ _⟩
    rw [batches]
    rfl
  · obtain ⟨reply, visits, hlisted, hvisits⟩ := exists_poolVisits hpools
    obtain ⟨others, hdatasets, rfl⟩ := yields_map hrest
    obtain ⟨names, batches, hcut, hbatches⟩ := exists_batches hdatasets
    obtain ⟨-, -, rfl⟩ := hvisits.of_ok
    exact ⟨⟨reply, visits, names, batches, hlisted, hcut⟩, hvisits.append_of_ok (hbatches.map _)⟩

end Collection

end PoolGauge
