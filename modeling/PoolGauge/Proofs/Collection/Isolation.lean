import Mathlib.Data.String.Basic
import PoolGauge.Proofs.Collection.Course
import PoolGauge.Proofs.Source.Pairing
import PoolGauge.Proofs.Text.Cuts
import PoolGauge.Source.Script

/-!
# What a reply about one entity changes

Two collections from sources that reply alike to all but the questions about some pools and some
object sets. Both fail alike or both succeed, and then the inventories have the same pools and
datasets but for those that the questions are about.
-/
namespace PoolGauge

section Agreement

variable {α β γ δ : Type}

/-- Both results are good for each other, or they are the same failure. -/
inductive Agree (good : α → β → Prop) : Except Failure α → Except Failure β → Prop
  | ok {a : α} {b : β} (h : good a b) : Agree good (.ok a) (.ok b)
  | error (failure : Failure) : Agree good (.error failure) (.error failure)

theorem Agree.mono {good better : α → β → Prop} {result : Except Failure α}
    {other : Except Failure β} (h : Agree good result other) (himp : ∀ a b, good a b → better a b) :
    Agree better result other := by
  cases h with
  | ok hgood => exact .ok (himp _ _ hgood)
  | error failure => exact .error failure

theorem Agree.of_eq {result other : Except Failure α} (h : result = other) :
    Agree Eq result other := by
  subst h
  cases result with
  | ok a => exact .ok rfl
  | error failure => exact .error failure

end Agreement

namespace Pairing

open Collecting

variable {σ τ α β γ δ : Type} {P : Pairing σ τ} {apart : List Query}

theorem matches_pure {good : α → β → Prop} {a : α} {b : β} (h : good a b) :
    P.Matches (pure a : Collecting α) (pure b : Collecting β) (Agree good) :=
  matches_done (.ok h)

theorem matches_liftM (x : Except Failure α) :
    P.Matches (liftM x : Collecting α) (liftM x : Collecting α) (Agree Eq) := by
  cases x with
  | ok a => exact matches_done (.ok rfl)
  | error failure => exact matches_done (.error failure)

theorem Matches.collecting_bind {x : Collecting α} {y : Collecting β} {f : α → Collecting γ}
    {g : β → Collecting δ} {middle : α → β → Prop} {good : γ → δ → Prop}
    (h : P.Matches x y (Agree middle))
    (hnext : ∀ a b, middle a b → P.Matches (f a) (g b) (Agree good)) :
    P.Matches (x >>= f : Collecting γ) (y >>= g : Collecting δ) (Agree good) := by
  refine Matches.bind h fun result other hagree => ?_
  cases hagree with
  | ok hmiddle => exact hnext _ _ hmiddle
  | error failure => exact matches_done (.error failure)

theorem Alike.matches_require (h : P.Alike apart) {query : Query} (hquery : query ∉ apart) :
    P.Matches (require query) (require query) (Agree Eq) :=
  h.matches_ask fun _ _ heq => matches_done (.of_eq (heq hquery))

theorem Alike.matches_attempt (h : P.Alike apart) {query : Query} (hquery : query ∉ apart) :
    P.Matches (attempt query) (attempt query) (Agree Eq) := by
  refine h.matches_ask fun reply other heq => ?_
  obtain rfl := heq hquery
  exact matches_done (.of_eq rfl)

end Pairing

namespace Source

open Collecting

variable {σ α β : Type} {source : Source σ} {kept : σ → Prop}

/-- The walk succeeds with something good. -/
def Ends (good : α → Prop) (result : Except Failure α) : Prop :=
  ∃ a, result = .ok a ∧ good a

theorem keeps_pure {good : α → Prop} {a : α} (h : good a) :
    source.Keeps kept (pure a : Collecting α) (Ends good) :=
  keeps_done ⟨a, rfl, h⟩

theorem Keeps.collecting_bind {x : Collecting α} {f : α → Collecting β} {middle : α → Prop}
    {good : β → Prop} (h : source.Keeps kept x (Ends middle))
    (hnext : ∀ a, middle a → source.Keeps kept (f a) (Ends good)) :
    source.Keeps kept (x >>= f : Collecting β) (Ends good) := by
  refine Keeps.bind h ?_
  rintro _ ⟨a, rfl, ha⟩
  exact hnext a ha

/-- A harmless question does not end an inquiry. -/
theorem Harmless.keeps_attempt {query : Query} (h : source.Harmless kept query) :
    source.Keeps kept (attempt query) (Ends fun _ => True) := by
  intro state hstate
  rw [attempt, Inquiry.run_ask]
  refine ⟨?_, h.stay hstate⟩
  cases hreply : (source.ask query state).1 with
  | ok payload => exact ⟨some payload, rfl, trivial⟩
  | error failure => exact ⟨none, by simp [h.calm hstate hreply], trivial⟩

end Source

section Entities

variable (apart : List Query)

def sparesPool (name : String) : Bool :=
  decide (.poolStatus name ∉ apart ∧ .vdevProperties name ∉ apart)

def sparesActivity (d : Dataset) : Bool :=
  d.objsetId.all fun id => decide (.objsetKstat d.pool id ∉ apart)

/-- The questions apart are about single pools and object sets. -/
structure Confined : Prop where
  listPools : .listPools ∉ apart
  listDatasets : .listDatasets ∉ apart
  datasetProperties : ∀ names, .datasetProperties names ∉ apart

/-- The inventories have the same entities in the same order, but for those that the questions
apart are about. -/
structure Inventory.SameSpared (found other : Inventory) : Prop where
  pools : (found.pools.filter fun pool => sparesPool apart pool.name) =
    other.pools.filter fun pool => sparesPool apart pool.name
  datasets : (found.datasets.filter fun d => sparesPool apart d.pool && sparesActivity apart d) =
    other.datasets.filter fun d => sparesPool apart d.pool && sparesActivity apart d

end Entities

section Order

/-- Sorting and leaving out can be done in any order. -/
theorem filter_mergeSort {α : Type} {le : α → α → Bool}
    (trans : ∀ a b c, le a b = true → le b c = true → le a c = true)
    (total : ∀ a b, (le a b || le b a) = true) (p : α → Bool) (items : List α) :
    (items.mergeSort le).filter p = (items.filter p).mergeSort le := by
  induction items with
  | nil => simp
  | cons a rest ih =>
    obtain ⟨before, after, hsorted, hrest, hbefore⟩ := List.mergeSort_cons trans total a rest
    have hle := List.pairwise_mergeSort trans total (a :: rest)
    rw [hrest, List.filter_append] at ih
    rw [hsorted] at hle ⊢
    rw [List.filter_append, List.filter_cons, List.filter_cons]
    cases ha : p a with
    | false => exact ih
    | true =>
      obtain ⟨first, last, hinserted, hlast, hfirst⟩ :=
        List.mergeSort_cons trans total a (rest.filter p)
      have hle' := List.pairwise_mergeSort trans total (a :: rest.filter p)
      rw [hinserted] at hle'
      rw [if_pos rfl, if_pos rfl, hinserted]
      rw [hlast] at ih
      -- both orders are cut before the first item that may come after the new one
      have hsame : before.filter p = first := by
        have hcut := congrArg (List.takeWhile fun b => !le a b) ih
        have hafter : ∀ b ∈ after, le a b = true := fun b hb =>
          List.rel_of_pairwise_cons (List.pairwise_append.mp hle).2.1 hb
        have hlater : ∀ b ∈ last, le a b = true := fun b hb =>
          List.rel_of_pairwise_cons (List.pairwise_append.mp hle').2.1 hb
        rwa [Text.takeWhile_append_of_cut (fun b hb => hbefore b (List.mem_filter.mp hb).1)
            (fun b hb => by simp [hafter b (List.mem_filter.mp (List.mem_of_mem_head? hb)).1]),
          Text.takeWhile_append_of_cut hfirst
            (fun b hb => by simp [hlater b (List.mem_of_mem_head? hb)])] at hcut
      rw [hsame] at ih ⊢
      rw [List.append_cancel_left ih]

theorem filter_sortByName {α : Type} (name : α → String) (p : α → Bool) (items : List α) :
    (items.mergeSort fun a b => decide (name a ≤ name b)).filter p =
      (items.filter p).mergeSort fun a b => decide (name a ≤ name b) := by
  refine filter_mergeSort (fun a b c hab hbc => ?_) (fun a b => ?_) p items
  · rw [decide_eq_true_eq] at hab hbc ⊢
    exact hab.trans hbc
  · rw [Bool.or_eq_true, decide_eq_true_eq, decide_eq_true_eq]
    exact le_total _ _

end Order

section Datasets

/-- A dataset that is found differs from what its properties tell in its activity only. -/
theorem DatasetVisit.dataset?_eq_some {visit : DatasetVisit} {d : Dataset}
    (h : visit.dataset? = some d) : ∃ stats, d = { visit.dataset with stats } := by
  unfold dataset? at h
  split at h
  · exact ⟨visit.dataset.stats, (Option.some.inj h).symm⟩
  · contradiction
  · exact ⟨visit.dataset.stats, (Option.some.inj h).symm⟩
  · obtain ⟨stats, -, rfl⟩ := Option.map_eq_some_iff.mp h
    exact ⟨stats, rfl⟩

namespace Collection

open Inquiry Collecting Pairing

/-- The activity of a dataset with an object set is one question. -/
theorem withActivity?_eq_ask {d : Dataset} {id : UInt64} (hid : d.objsetId = some id) :
    withActivity? d = ask (.objsetKstat d.pool id) fun reply =>
      .done (.ok (DatasetVisit.mk d reply).dataset?) := by
  obtain ⟨name, pool, objsetId, stats⟩ := d
  obtain rfl : objsetId = some id := hid
  refine congrArg (ask (.objsetKstat pool id)) (funext fun reply => ?_)
  rcases reply with failure | (_ | statistics)
  · rfl
  · rfl
  · cases hread : stats.readActivity name statistics with
    | error failure =>
      simp only [DatasetVisit.dataset?, bind_done, ExceptT.bindCont, hread]
      rfl
    | ok read =>
      simp only [DatasetVisit.dataset?, bind_done, ExceptT.bindCont, hread]
      rfl

variable {σ τ : Type} {P : Pairing σ τ} {apart : List Query}

/-- A question about activity changes no other dataset. -/
theorem matches_withActivity? (h : P.Alike apart) (d : Dataset) :
    P.Matches (withActivity? d) (withActivity? d) (Agree fun found other =>
      found.toList.filter (sparesActivity apart) = other.toList.filter (sparesActivity apart)) := by
  cases hid : d.objsetId with
  | none =>
    rw [withActivity?]
    simp only [hid]
    exact matches_pure rfl
  | some id =>
    rw [withActivity?_eq_ask hid]
    refine h.matches_ask fun reply other heq => matches_done (.ok ?_)
    by_cases hquery : .objsetKstat d.pool id ∈ apart
    · have hnone : ∀ reply, (DatasetVisit.mk d reply).dataset?.toList.filter
          (sparesActivity apart) = [] := by
        intro reply
        refine List.filter_eq_nil_iff.mpr fun found hfound => ?_
        obtain ⟨stats, rfl⟩ := DatasetVisit.dataset?_eq_some (Option.mem_toList.mp hfound)
        simp [sparesActivity, hid, hquery]
      rw [hnone, hnone]
    · rw [heq hquery]

theorem matches_takeDatasets (h : P.Alike apart) (names : List String) (table : DatasetTable) :
    P.Matches (takeDatasets table names) (takeDatasets table names) (Agree fun found other =>
      found.filter (sparesActivity apart) = other.filter (sparesActivity apart)) := by
  induction names generalizing table with
  | nil => exact matches_pure rfl
  | cons name rest ih =>
    rw [takeDatasets]
    cases table.find? name with
    | none => exact ih table
    | some d =>
      refine (matches_withActivity? h d).collecting_bind fun found other hfound => ?_
      refine (ih (table.erase name)).collecting_bind fun datasets others hrest => ?_
      exact matches_pure (by rw [List.filter_append, List.filter_append, hfound, hrest])

theorem matches_batchDatasets (h : P.Alike apart) (hconfined : Confined apart)
    (names : List String) :
    P.Matches (batchDatasets names) (batchDatasets names) (Agree fun found other =>
      found.filter (sparesActivity apart) = other.filter (sparesActivity apart)) := by
  rw [batchDatasets]
  refine (h.matches_attempt (hconfined.datasetProperties names)).collecting_bind ?_
  rintro output _ rfl
  cases output with
  | none => exact matches_pure rfl
  | some output => exact matches_takeDatasets h names (.read output)

theorem matches_batchesDatasets (h : P.Alike apart) (hconfined : Confined apart)
    (batches : List (List String)) :
    P.Matches (batchesDatasets batches) (batchesDatasets batches) (Agree fun found other =>
      found.filter (sparesActivity apart) = other.filter (sparesActivity apart)) := by
  induction batches with
  | nil => exact matches_pure rfl
  | cons batch rest ih =>
    refine (matches_batchDatasets h hconfined batch).collecting_bind fun found other hfound => ?_
    refine ih.collecting_bind fun datasets others hrest => ?_
    exact matches_pure (by rw [List.filter_append, List.filter_append, hfound, hrest])

theorem matches_datasets (h : P.Alike apart) (hconfined : Confined apart) :
    P.Matches datasets datasets (Agree fun found other =>
      found.filter (sparesActivity apart) = other.filter (sparesActivity apart)) := by
  rw [datasets, datasetsInBatches]
  refine (h.matches_require hconfined.listDatasets).collecting_bind ?_
  rintro output _ rfl
  exact matches_batchesDatasets h hconfined _

end Collection

end Datasets

section Pools

namespace Collection

open Inquiry Collecting Pairing

variable {σ τ : Type} {P : Pairing σ τ} {apart : List Query}

/-- Harmless questions about a pool find at most that pool. -/
theorem keeps_pool? {source : Source σ} {kept : σ → Prop} {listed : ListedPool}
    (hstatus : source.Harmless kept (.poolStatus listed.name))
    (hfigures : source.Harmless kept (.vdevProperties listed.name)) :
    source.Keeps kept (pool? listed)
      (Source.Ends fun found => ∀ pool ∈ found, pool.name = listed.name) := by
  rw [pool?]
  refine hstatus.keeps_attempt.collecting_bind fun output _ => ?_
  cases output with
  | none => exact Source.keeps_pure nofun
  | some output =>
    simp only
    cases PoolStatus.read listed.name output with
    | error failure => exact Source.keeps_pure nofun
    | ok status =>
      refine hfigures.keeps_attempt.collecting_bind fun figures _ => Source.keeps_pure ?_
      rintro pool ⟨⟩
      rfl

/-- Questions about a pool change no other pool. -/
theorem matches_pool? (h : P.Alike apart) (listed : ListedPool)
    (hmild : sparesPool apart listed.name = false →
      P.Harmless (.poolStatus listed.name) ∧ P.Harmless (.vdevProperties listed.name)) :
    P.Matches (pool? listed) (pool? listed) (Agree fun found other =>
      (found.toList.filter fun pool => sparesPool apart pool.name) =
        other.toList.filter fun pool => sparesPool apart pool.name) := by
  cases hspares : sparesPool apart listed.name with
  | true =>
    obtain ⟨hstatus, hfigures⟩ := of_decide_eq_true hspares
    rw [pool?]
    refine (h.matches_attempt hstatus).collecting_bind ?_
    rintro output _ rfl
    cases output with
    | none => exact matches_pure rfl
    | some output =>
      simp only
      cases PoolStatus.read listed.name output with
      | error failure => exact matches_pure rfl
      | ok status =>
        refine (h.matches_attempt hfigures).collecting_bind ?_
        rintro figures _ rfl
        exact matches_pure rfl
  | false =>
    obtain ⟨hstatus, hfigures⟩ := hmild hspares
    refine (matches_of_keeps (fun t => keeps_pool? (hstatus.left t) (hfigures.left t))
      fun s => keeps_pool? (hstatus.right s) (hfigures.right s)).mono ?_
    rintro _ _ ⟨⟨found, rfl, hfound⟩, other, rfl, hother⟩
    have hnone : ∀ found : Option Pool, (∀ pool ∈ found, pool.name = listed.name) →
        (found.toList.filter fun pool => sparesPool apart pool.name) = [] := by
      intro found hname
      refine List.filter_eq_nil_iff.mpr fun pool hpool => ?_
      rw [hname pool (Option.mem_toList.mp hpool), hspares]
      decide
    exact .ok (by rw [hnone found hfound, hnone other hother])

/-- Questions about some pools change no other pools. -/
theorem matches_readablePools (h : P.Alike apart) (listed : List ListedPool)
    (hmild : ∀ pool, sparesPool apart pool = false →
      P.Harmless (.poolStatus pool) ∧ P.Harmless (.vdevProperties pool)) :
    P.Matches (readablePools listed) (readablePools listed) (Agree fun found other =>
      (found.filter fun pool => sparesPool apart pool.name) =
        other.filter fun pool => sparesPool apart pool.name) := by
  induction listed with
  | nil => exact matches_pure rfl
  | cons pool rest ih =>
    refine (matches_pool? h pool (hmild pool.name)).collecting_bind fun found other hfound => ?_
    refine ih.collecting_bind fun pools others hrest => ?_
    exact matches_pure (by rw [List.filter_append, List.filter_append, hfound, hrest])

theorem matches_pools (h : P.Alike apart) (hconfined : Confined apart)
    (hmild : ∀ pool, sparesPool apart pool = false →
      P.Harmless (.poolStatus pool) ∧ P.Harmless (.vdevProperties pool)) :
    P.Matches pools pools (Agree fun found other =>
      (found.filter fun pool => sparesPool apart pool.name) =
        other.filter fun pool => sparesPool apart pool.name) := by
  rw [pools]
  refine (h.matches_require hconfined.listPools).collecting_bind ?_
  rintro output _ rfl
  refine (matches_liftM (readPoolList output)).collecting_bind ?_
  rintro listed _ rfl
  exact matches_readablePools h listed hmild

end Collection

end Pools

namespace Collection

section Assembly

variable {apart : List Query} {pools others : List Pool} {datasets rest : List Dataset}

theorem sparesPool_any {d : Dataset} (hd : sparesPool apart d.pool = true)
    (hpools : (pools.filter fun pool => sparesPool apart pool.name) =
      others.filter fun pool => sparesPool apart pool.name) :
    pools.any (·.name == d.pool) = others.any (·.name == d.pool) := by
  have hspared : ∀ found : List Pool, found.any (·.name == d.pool) =
      (found.filter fun pool => sparesPool apart pool.name).any (·.name == d.pool) := by
    intro found
    rw [List.any_filter]
    refine congrArg found.any (funext fun pool => ?_)
    by_cases hname : pool.name = d.pool <;> simp [hname, hd]
  rw [hspared, hspared others, hpools]

/-- Inventories of the same spared pools and datasets have the same ones. -/
theorem sameSpared_assemble
    (hpools : (pools.filter fun pool => sparesPool apart pool.name) =
      others.filter fun pool => sparesPool apart pool.name)
    (hdatasets : datasets.filter (sparesActivity apart) = rest.filter (sparesActivity apart)) :
    (assemble pools datasets).SameSpared apart (assemble others rest) where
  pools := by rw [assemble, assemble, filter_sortByName, filter_sortByName, hpools]
  datasets := by
    have hspared : ∀ (pools : List Pool) (datasets : List Dataset),
        ((datasets.filter fun d => pools.any (·.name == d.pool)).filter
          fun d => sparesPool apart d.pool && sparesActivity apart d) =
        (datasets.filter (sparesActivity apart)).filter
          fun d => sparesPool apart d.pool && pools.any (·.name == d.pool) := by
      intro pools datasets
      rw [List.filter_filter, List.filter_filter]
      refine List.filter_congr fun d _ => ?_
      cases sparesPool apart d.pool <;> cases sparesActivity apart d <;> simp
    rw [assemble, assemble, filter_sortByName, filter_sortByName, hspared, hspared, hdatasets]
    refine congrArg (List.mergeSort · _) (List.filter_congr fun d _ => ?_)
    cases hd : sparesPool apart d.pool with
    | false => rfl
    | true => rw [sparesPool_any hd hpools]

end Assembly

/-- Collections from sources that are alike but for questions about some pools and object sets fail
alike, or have the same inventories but for those. -/
theorem matches_inventory {σ τ : Type} {P : Pairing σ τ} {apart : List Query}
    (h : P.Alike apart) (hconfined : Confined apart)
    (hmild : ∀ pool, sparesPool apart pool = false →
      P.Harmless (.poolStatus pool) ∧ P.Harmless (.vdevProperties pool)) :
    P.Matches inventory inventory (Agree (Inventory.SameSpared apart)) := by
  refine (matches_pools h hconfined hmild).collecting_bind fun pools others hpools => ?_
  refine (matches_datasets h hconfined).collecting_bind fun datasets rest hdatasets => ?_
  exact Pairing.matches_pure (sameSpared_assemble hpools hdatasets)

/-- Two collections from sources that reply alike, except about the status and the figures of one
pool, where the query mechanism does not fail, end with the same failure or have the same pools and
datasets but for this pool and its datasets. Two collections from sources that reply alike, except
about the activity of one object set, whatever this reply is, end with the same failure or have the
same pools and the same datasets but for those of this object set. -/
theorem faults_isolated {σ τ : Type} (P : Pairing σ τ) :
    (∀ pool, P.Alike [.poolStatus pool, .vdevProperties pool] → P.Harmless (.poolStatus pool) →
      P.Harmless (.vdevProperties pool) → ∀ s t, P.related s t →
      Agree (fun found other =>
          found.pools.filter (·.name != pool) = other.pools.filter (·.name != pool) ∧
          found.datasets.filter (·.pool != pool) = other.datasets.filter (·.pool != pool))
        (inventory.run.run P.left s).result (inventory.run.run P.right t).result) ∧
    (∀ pool id, P.Alike [.objsetKstat pool id] → ∀ s t, P.related s t →
      Agree (fun found other =>
          found.pools = other.pools ∧
          (found.datasets.filter fun d => !(d.pool == pool && d.objsetId == some id)) =
            other.datasets.filter fun d => !(d.pool == pool && d.objsetId == some id))
        (inventory.run.run P.left s).result (inventory.run.run P.right t).result) := by
  refine ⟨fun pool halike hstatus hfigures s t hst => ?_, fun pool id halike s t hst => ?_⟩
  · have hspares : ∀ name, sparesPool [.poolStatus pool, .vdevProperties pool] name =
        (name != pool) := by
      intro name
      by_cases hname : name = pool <;> simp [sparesPool, hname]
    have hactivity : ∀ d, sparesActivity [.poolStatus pool, .vdevProperties pool] d = true := by
      intro d
      cases hid : d.objsetId <;> simp [sparesActivity, hid]
    have hmild : ∀ name, sparesPool [.poolStatus pool, .vdevProperties pool] name = false →
        P.Harmless (.poolStatus name) ∧ P.Harmless (.vdevProperties name) := by
      intro name hname
      obtain rfl : name = pool := by simpa [hspares] using hname
      exact ⟨hstatus, hfigures⟩
    refine ((matches_inventory halike ⟨by simp, by simp, by simp⟩ hmild) s t hst).1.mono ?_
    rintro found other ⟨hpools, hdatasets⟩
    simp only [hspares, hactivity, Bool.and_true] at hpools hdatasets
    exact ⟨hpools, hdatasets⟩
  · have hspares : ∀ name, sparesPool [.objsetKstat pool id] name = true := by
      simp [sparesPool]
    have hactivity : ∀ d, sparesActivity [.objsetKstat pool id] d =
        !(d.pool == pool && d.objsetId == some id) := by
      intro d
      cases hid : d.objsetId with
      | none => simp [sparesActivity, hid]
      | some other =>
        by_cases hpool : d.pool = pool <;> simp [sparesActivity, hid, hpool, beq_eq_decide]
    have hmild : ∀ name, sparesPool [.objsetKstat pool id] name = false →
        P.Harmless (.poolStatus name) ∧ P.Harmless (.vdevProperties name) := by
      intro name hname
      simp [hspares] at hname
    refine ((matches_inventory halike ⟨by simp, by simp, by simp⟩ hmild) s t hst).1.mono ?_
    rintro found other ⟨hpools, hdatasets⟩
    simp only [hspares, hactivity, Bool.true_and, List.filter_true] at hpools hdatasets
    exact ⟨hpools, hdatasets⟩

/-- What a host replies that has one readable pool with two datasets, and a pool without a status. -/
def oneLost (query : Query) : query.Reply :=
  Rehearsal.reply ⟨{
    pools := .ok "tank\tONLINE\nlost\tONLINE\n"
    datasets := .ok "tank/b\ntank/a\nlost/c\n"
    statuses := [("tank", .ok "\tNAME STATE\n\ttank ONLINE\n\t  sda ONLINE\n")]
    datasetProperties := [("tank/a", "tank/a\tobjsetid\t54\n"), ("tank/b", "tank/b\tused\t2\n"),
      ("lost/c", "lost/c\tused\t1\n")] }, []⟩ query

/-- The same host once the status of its other pool is told. -/
def noneLost : (query : Query) → query.Reply
  | .poolStatus pool =>
    if pool = "lost" then .ok "\tNAME STATE\n\tlost ONLINE\n" else oneLost (.poolStatus pool)
  | query => oneLost query

/-- The same host when it takes too long to read the statistics of an object set. -/
def oneSlow : (query : Query) → query.Reply
  | .objsetKstat pool id =>
    if pool = "tank" ∧ id = 54 then .error (.timeout "reading" ⟨1⟩)
    else oneLost (.objsetKstat pool id)
  | query => oneLost query

/-- A pool whose status is told adds itself; statistics that cannot be read in time take away their
dataset. Nothing else changes. -/
theorem faults_isolated_of_oneLost :
    ((pools.run.run (Source.fixed oneLost) ()).result.toOption.map (·.map Pool.name) =
        some ["tank"] ∧
      (pools.run.run (Source.fixed noneLost) ()).result.toOption.map (·.map Pool.name) =
        some ["tank", "lost"] ∧
      Agree (fun found other =>
          found.pools.filter (·.name != "lost") = other.pools.filter (·.name != "lost") ∧
          found.datasets.filter (·.pool != "lost") = other.datasets.filter (·.pool != "lost"))
        (inventory.run.run (Source.fixed oneLost) ()).result
        (inventory.run.run (Source.fixed noneLost) ()).result) ∧
    ((datasets.run.run (Source.fixed oneLost) ()).result.toOption.map (·.map Dataset.name) =
        some ["tank/b", "tank/a", "lost/c"] ∧
      (datasets.run.run (Source.fixed oneSlow) ()).result.toOption.map (·.map Dataset.name) =
        some ["tank/b", "lost/c"] ∧
      Agree (fun found other =>
          found.pools = other.pools ∧
          (found.datasets.filter fun d => !(d.pool == "tank" && d.objsetId == some 54)) =
            other.datasets.filter fun d => !(d.pool == "tank" && d.objsetId == some 54))
        (inventory.run.run (Source.fixed oneLost) ()).result
        (inventory.run.run (Source.fixed oneSlow) ()).result) := by
  refine ⟨⟨by decide +kernel, by decide +kernel, ?_⟩, by decide +kernel, by decide +kernel, ?_⟩
  · refine (faults_isolated (.fixed oneLost noneLost)).1 "lost" (Pairing.alike_fixed ?_)
      (Pairing.harmless_fixed ?_ ?_) (Pairing.harmless_fixed nofun nofun) () () trivial
    · intro query hquery
      cases query with
      | poolStatus pool => exact (if_neg fun hpool => hquery (by simp [hpool])).symm
      | _ => rfl
    · rintro failure ⟨⟩
      rfl
    · rw [noneLost, if_pos rfl]
      nofun
  · refine (faults_isolated (.fixed oneLost oneSlow)).2 "tank" 54 (Pairing.alike_fixed ?_)
      () () trivial
    intro query hquery
    cases query with
    | objsetKstat pool id => exact (if_neg fun hsame => hquery (by simp [hsame])).symm
    | _ => rfl

end Collection

end PoolGauge
