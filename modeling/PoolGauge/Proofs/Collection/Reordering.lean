import Mathlib.Data.List.ReduceOption
import PoolGauge.Proofs.Collection.Batches
import PoolGauge.Proofs.Collection.Containment

/-!
# The order of a list

Pools and datasets are found independently of each other, and an inventory is sorted by names. If
all names are different, then the lines of the lists can be in any order.
-/
namespace PoolGauge

section Permutations

variable {ε α β : Type} {f : α → Except ε β} {items others : List α} {results : List β}

/-- What is read item by item is the same in any order. -/
theorem exists_mapM_of_perm (h : items.Perm others) (hresults : items.mapM f = .ok results) :
    ∃ moved, others.mapM f = .ok moved ∧ results.Perm moved := by
  induction h generalizing results with
  | nil => exact ⟨results, hresults, .refl _⟩
  | @cons a items others _ ih =>
    rw [List.mapM_cons] at hresults ⊢
    obtain ⟨first, hfirst, hrest⟩ := bind_eq_ok hresults
    obtain ⟨rest, hitems, hresult⟩ := bind_eq_ok hrest
    obtain ⟨moved, hmoved, hperm⟩ := ih hitems
    obtain rfl := Except.ok.inj hresult
    exact ⟨first :: moved, by rw [hfirst, hmoved]; rfl, hperm.cons first⟩
  | swap a b items =>
    rw [List.mapM_cons] at hresults
    obtain ⟨first, hfirst, hrest⟩ := bind_eq_ok hresults
    obtain ⟨tail, htail, hresult⟩ := bind_eq_ok hrest
    obtain rfl := Except.ok.inj hresult
    rw [List.mapM_cons] at htail
    obtain ⟨second, hsecond, hothers⟩ := bind_eq_ok htail
    obtain ⟨rest, hitems, hlast⟩ := bind_eq_ok hothers
    obtain rfl := Except.ok.inj hlast
    refine ⟨second :: first :: rest, ?_, .swap second first rest⟩
    rw [List.mapM_cons, List.mapM_cons, hsecond, hfirst, hitems]
    rfl
  | trans _ _ ih ih' =>
    obtain ⟨middle, hmiddle, hperm⟩ := ih hresults
    obtain ⟨moved, hmoved, hperm'⟩ := ih' hmiddle
    exact ⟨moved, hmoved, hperm.trans hperm'⟩

/-- Items with different names are sorted by them in one way only. -/
theorem sortByName_eq_of_perm (name : α → String) (h : items.Perm others)
    (hnodup : (items.map name).Nodup) :
    (items.mergeSort fun a b => decide (name a ≤ name b)) =
      others.mergeSort fun a b => decide (name a ≤ name b) := by
  refine List.Perm.eq_of_pairwise ?_ (Text.pairwise_sortByName name items)
    (Text.pairwise_sortByName name others)
    (((List.mergeSort_perm _ _).trans h).trans (List.mergeSort_perm _ _).symm)
  intro a b ha hb hab hba
  exact List.inj_on_of_nodup_map hnodup (List.mem_mergeSort.mp ha)
    (h.mem_iff.mpr (List.mem_mergeSort.mp hb)) (le_antisymm hab hba)

end Permutations

section Lists

variable {output moved : String}

theorem perm_readDatasetList (h : (Text.lines output.toList).Perm (Text.lines moved.toList)) :
    (readDatasetList output).Perm (readDatasetList moved) :=
  (h.map _).filter _

theorem exists_readPoolList_of_perm {listed : List ListedPool}
    (h : (Text.lines output.toList).Perm (Text.lines moved.toList))
    (hlisted : readPoolList output = .ok listed) :
    ∃ others, readPoolList moved = .ok others ∧ listed.Perm others :=
  exists_mapM_of_perm ((h.map _).filter _) hlisted

end Lists

/-- Replies that differ in nothing but the order of the lines in the lists of pools and datasets. -/
structure Reordered (replies moved : (query : Query) → query.Reply) : Prop where
  poolLines : ∃ output other, replies .listPools = .ok output ∧ moved .listPools = .ok other ∧
    (Text.lines output.toList).Perm (Text.lines other.toList)
  datasetLines : ∃ output other, replies .listDatasets = .ok output ∧
    moved .listDatasets = .ok other ∧ (Text.lines output.toList).Perm (Text.lines other.toList)
  same : ∀ query, query ≠ .listPools → query ≠ .listDatasets → replies query = moved query

namespace Collection

open Inquiry Collecting Exchange

variable {replies moved : (query : Query) → query.Reply} {block : String → String}

theorem resultBy_readablePools (listed : List ListedPool) :
    resultBy replies (readablePools listed) = do
      let found ← listed.mapM fun pool => resultBy replies (pool? pool)
      return found.reduceOption := by
  induction listed with
  | nil => rfl
  | cons pool rest ih =>
    rw [readablePools, List.mapM_cons, resultBy_bind]
    cases resultBy replies (pool? pool) with
    | error failure => rfl
    | ok found =>
      change resultBy replies
        (readablePools rest >>= fun others => pure (found.toList ++ others)) = _
      rw [resultBy_bind, ih]
      cases rest.mapM fun pool => resultBy replies (pool? pool) with
      | error failure => rfl
      | ok others => cases found <;> rfl

theorem resultBy_pools {output : String} (h : replies .listPools = .ok output) :
    resultBy replies pools = do
      let listed ← readPoolList output
      let found ← listed.mapM fun pool => resultBy replies (pool? pool)
      return found.reduceOption := by
  rw [pools, resultBy_bind, resultBy_require, h]
  change resultBy replies (liftM (readPoolList output) >>= readablePools) = _
  rw [resultBy_bind, resultBy_liftM]
  exact bind_congr resultBy_readablePools

theorem pool?_name {listed : ListedPool} {pool : Pool}
    (h : resultBy replies (pool? listed) = .ok (some pool)) : pool.name = listed.name := by
  obtain ⟨visit, rfl, hvisit⟩ := exists_visit (yields_run (.fixed replies) (pool? listed).run ())
  rw [resultBy] at h
  rw [h] at hvisit
  obtain ⟨-, -, hfound⟩ := hvisit.of_ok
  exact (visit.name_of_pool? hfound.symm).1

/-- The pools that are found have names of the list. -/
theorem map_name_sublist {listed : List ListedPool} {found : List (Option Pool)}
    (h : (listed.mapM fun pool => resultBy replies (pool? pool)) = .ok found) :
    (found.reduceOption.map Pool.name).Sublist (listed.map ListedPool.name) := by
  induction listed generalizing found with
  | nil =>
    obtain rfl := Except.ok.inj h
    exact .slnil
  | cons pool rest ih =>
    rw [List.mapM_cons] at h
    obtain ⟨first, hfirst, hrest⟩ := bind_eq_ok h
    obtain ⟨others, hothers, hlast⟩ := bind_eq_ok hrest
    obtain rfl : first :: others = found := Except.ok.inj hlast
    cases first with
    | none => exact (ih hothers).cons pool.name
    | some p =>
      rw [List.reduceOption_cons_of_some, List.map_cons, List.map_cons, pool?_name hfirst]
      exact (ih hothers).cons_cons pool.name

theorem nodup_map_name_pools {found : List Pool} (h : resultBy replies pools = .ok found)
    (hnodup : ((listedPools (replies .listPools)).map ListedPool.name).Nodup) :
    (found.map Pool.name).Nodup := by
  cases hreply : replies .listPools with
  | error failure =>
    rw [pools, resultBy_bind, resultBy_require, hreply] at h
    contradiction
  | ok output =>
    rw [resultBy_pools hreply] at h
    obtain ⟨listed, hlisted, hpools⟩ := bind_eq_ok h
    obtain ⟨results, hresults, hlast⟩ := bind_eq_ok hpools
    obtain rfl : results.reduceOption = found := Except.ok.inj hlast
    rw [hreply, listedPools] at hnodup
    change (((readPoolList output).toOption.getD []).map ListedPool.name).Nodup at hnodup
    rw [hlisted] at hnodup
    exact hnodup.sublist (map_name_sublist hresults)

theorem nodup_map_name_inBlock? {names : List String} (h : names.Nodup) :
    ((names.filterMap (inBlock? replies block)).map Dataset.name).Nodup := by
  refine List.pairwise_map.mpr (List.Pairwise.filterMap _ ?_ h)
  intro name other hne d hd e he
  rw [inBlock?_name hd, inBlock?_name he]
  exact hne

/-- Pools and datasets with different names make one inventory in any order. -/
theorem assemble_eq_of_perm {pools otherPools : List Pool} {datasets otherDatasets : List Dataset}
    (hpools : pools.Perm otherPools) (hdatasets : datasets.Perm otherDatasets)
    (hpoolNames : (pools.map Pool.name).Nodup)
    (hdatasetNames : (datasets.map Dataset.name).Nodup) :
    assemble pools datasets = assemble otherPools otherDatasets := by
  have hpresent : ∀ d : Dataset, (otherPools.any fun p => p.name == d.pool) =
      pools.any fun p => p.name == d.pool := fun d => hpools.symm.any_eq
  have hfilter := hdatasets.filter fun d => pools.any (·.name == d.pool)
  simp only [assemble, hpresent]
  rw [sortByName_eq_of_perm Pool.name hpools hpoolNames,
    sortByName_eq_of_perm Dataset.name hfilter
      (hdatasetNames.sublist (List.filter_sublist.map Dataset.name))]

end Collection

namespace Reordered

open Collecting Collection

variable {replies moved : (query : Query) → query.Reply} {block : String → String}
  (h : Reordered replies moved)

include h

theorem resultBy_attempt (query : Query) (hpools : query ≠ .listPools)
    (hdatasets : query ≠ .listDatasets) :
    resultBy replies (attempt query) = resultBy moved (attempt query) := by
  rw [Collecting.resultBy_attempt, Collecting.resultBy_attempt, h.same query hpools hdatasets]

/-- A pool is found by its own questions. -/
theorem resultBy_pool? (listed : ListedPool) :
    resultBy replies (pool? listed) = resultBy moved (pool? listed) := by
  rw [pool?, resultBy_bind, resultBy_bind,
    h.resultBy_attempt (.poolStatus listed.name) (by simp) (by simp)]
  refine bind_congr fun output => ?_
  cases output with
  | none => rfl
  | some output =>
    simp only
    cases PoolStatus.read listed.name output with
    | error failure => rfl
    | ok status =>
      simp only
      rw [resultBy_bind, resultBy_bind,
        h.resultBy_attempt (.vdevProperties listed.name) (by simp) (by simp)]
      rfl

/-- The same pools are found, in some order. -/
theorem exists_pools {found : List Pool} (hfound : resultBy replies pools = .ok found) :
    ∃ others, resultBy moved pools = .ok others ∧ found.Perm others := by
  obtain ⟨output, other, hreplies, hmoved, hlines⟩ := h.poolLines
  rw [resultBy_pools hreplies] at hfound
  obtain ⟨listed, hlisted, hpools⟩ := bind_eq_ok hfound
  obtain ⟨results, hresults, hlast⟩ := bind_eq_ok hpools
  obtain rfl : results.reduceOption = found := Except.ok.inj hlast
  obtain ⟨others, hothers, hperm⟩ := exists_readPoolList_of_perm hlines hlisted
  obtain ⟨moves, hmoves, hsame⟩ := exists_mapM_of_perm hperm hresults
  simp only [h.resultBy_pool?] at hmoves
  refine ⟨moves.reduceOption, ?_, hsame.filterMap id⟩
  rw [resultBy_pools hmoved, hothers]
  change (others.mapM fun pool => resultBy moved (pool? pool)) >>=
    (fun found => pure found.reduceOption) = _
  rw [hmoves]
  rfl

theorem inBlock?_eq (name : String) :
    inBlock? replies block name = inBlock? moved block name := by
  have hsettled : ∀ d, settled? replies d = settled? moved d := by
    intro d
    cases hid : d.objsetId with
    | none => simp only [settled?, hid]
    | some id => simp only [settled?, hid, h.same (.objsetKstat d.pool id) (by simp) (by simp)]
  rw [inBlock?, inBlock?, funext hsettled]

/-- The same datasets are found, in some order. -/
theorem exists_datasets (hnodup : (listedDatasets (replies .listDatasets)).Nodup)
    (hblocks : Blockwise replies block (listedDatasets (replies .listDatasets))) :
    ∃ found others, resultBy replies datasets = .ok found ∧ resultBy moved datasets = .ok others ∧
      found.Perm others ∧ (found.map Dataset.name).Nodup := by
  obtain ⟨output, other, hreplies, hmoved, hlines⟩ := h.datasetLines
  have hperm := perm_readDatasetList hlines
  have hsize : 0 < batchSize := by decide
  rw [hreplies] at hnodup hblocks
  have hblocks' : Blockwise moved block (readDatasetList other) := by
    refine ⟨fun asked hasked => ?_,
      fun name hname => hblocks.isBlock name (hperm.mem_iff.mpr hname)⟩
    rw [← h.same (.datasetProperties asked) nofun nofun]
    exact hblocks.reply asked fun name hname => hperm.mem_iff.mpr (hasked hname)
  refine ⟨_, _, (resultBy_datasetsInBatches hreplies hnodup hblocks hsize).1,
    (resultBy_datasetsInBatches hmoved (hperm.nodup hnodup) hblocks' hsize).1, ?_,
    nodup_map_name_inBlock? hnodup⟩
  rw [← funext h.inBlock?_eq]
  exact hperm.filterMap _

theorem resultBy_inventory (hpools : ((listedPools (replies .listPools)).map ListedPool.name).Nodup)
    (hdatasets : (listedDatasets (replies .listDatasets)).Nodup)
    (hblocks : Blockwise replies block (listedDatasets (replies .listDatasets)))
    {found : Inventory} (hfound : resultBy replies inventory = .ok found) :
    resultBy moved inventory = .ok found := by
  obtain ⟨ds, otherDs, hds, hotherDs, hdsPerm, hdsNames⟩ := h.exists_datasets hdatasets hblocks
  have hfirst := hfound
  rw [inventory, resultBy_bind] at hfirst
  obtain ⟨ps, hps, -⟩ := bind_eq_ok hfirst
  obtain ⟨otherPs, hotherPs, hpsPerm⟩ := h.exists_pools hps
  rw [resultBy_assemble hps hds] at hfound
  obtain rfl : assemble ps ds = found := Except.ok.inj hfound
  rw [resultBy_assemble hotherPs hotherDs, assemble_eq_of_perm hpsPerm hdsPerm
    (nodup_map_name_pools hps hpools) hdsNames]

end Reordered

namespace Collection

/-- The order of the lists does not matter: if the names of the listed pools are all different and
so are those of the listed datasets, if the properties of datasets are told in one block for each,
and if no reply ends the collection, then a source whose lists have the same lines in another order
leads to the same inventory. -/
theorem inventory_of_reordered {σ τ : Type} {source : Source σ} {other : Source τ}
    {kind : σ → Prop} {like : τ → Prop} {replies moved : (query : Query) → query.Reply}
    {block : String → String} (hsource : source.Steady kind replies)
    (hother : other.Steady like moved) (horder : Reordered replies moved)
    (hpools : ((listedPools (replies .listPools)).map ListedPool.name).Nodup)
    (hdatasets : (listedDatasets (replies .listDatasets)).Nodup)
    (hblocks : Blockwise replies block (listedDatasets (replies .listDatasets)))
    {state : σ} {later : τ} (hstate : kind state) (hlater : like later)
    (hmild : ∀ e ∈ inventory.run.exchanges source state, e.fatal? = none) :
    ∃ found, (inventory.run.run source state).result = .ok found ∧
      (inventory.run.run other later).result = .ok found := by
  obtain ⟨course, -, hfound⟩ := exists_course_of_mild hmild
  refine ⟨course.inventory, hfound, ?_⟩
  rw [(hsource.collecting_eq inventory hstate).1] at hfound
  rw [(hother.collecting_eq inventory hlater).1]
  exact horder.resultBy_inventory hpools hdatasets hblocks hfound

/-- The host with the pool without a status, its lists the other way round. -/
def turnedRound : Script :=
  { partlyUnreadable with
    pools := .ok "lost\tONLINE\r\ntank\tONLINE"
    datasets := .ok "lost/c\ntank/a\ntank/b" }

/-- Its pool and its dataset are found whichever way its lists are. -/
theorem inventory_of_turnedRound : ∃ found : Inventory,
    (found.pools.map Pool.name, found.datasets.map Dataset.name) = (["tank"], ["tank/a"]) ∧
    (inventory.run.run Rehearsal.source ⟨partlyUnreadable, []⟩).result = .ok found ∧
    (inventory.run.run Rehearsal.source ⟨turnedRound, []⟩).result = .ok found := by
  have hnames : (inventory.run.run Rehearsal.source ⟨partlyUnreadable, []⟩).result.toOption.map
      (fun found => (found.pools.map Pool.name, found.datasets.map Dataset.name)) =
        some (["tank"], ["tank/a"]) := by decide +kernel
  have horder : Reordered (Rehearsal.reply { script := partlyUnreadable, asked := [] })
      (Rehearsal.reply { script := turnedRound, asked := [] }) := by
    refine ⟨⟨"tank\tONLINE\nlost\tONLINE\n", "lost\tONLINE\r\ntank\tONLINE", rfl, rfl, ?_⟩,
      ⟨"tank/b\ntank/a\nlost/c\n", "lost/c\ntank/a\ntank/b", rfl, rfl, ?_⟩, ?_⟩
    · decide +kernel
    · decide +kernel
    · intro query hpools hdatasets
      cases query with
      | listPools => exact absurd rfl hpools
      | listDatasets => exact absurd rfl hdatasets
      | _ => rfl
  have hblocks : Blockwise (Rehearsal.reply { script := partlyUnreadable, asked := [] })
      (fun name => (partlyUnreadable.datasetProperties.lookup name).getD "")
      (listedDatasets partlyUnreadable.datasets) :=
    ⟨fun _ _ => rfl, by decide +kernel⟩
  have hpools : ((listedPools partlyUnreadable.pools).map ListedPool.name).Nodup := by
    decide +kernel
  have hdatasets : (listedDatasets partlyUnreadable.datasets).Nodup := by decide +kernel
  have hmild : ∀ e ∈ inventory.run.exchanges Rehearsal.source ⟨partlyUnreadable, []⟩,
      e.fatal? = none := by decide +kernel
  have hscript : (Rehearsal.mk turnedRound []).script = turnedRound := rfl
  obtain ⟨found, hfound, hturned⟩ := inventory_of_reordered (Rehearsal.steady_source rfl)
    (Rehearsal.steady_source rfl) horder hpools hdatasets hblocks rfl hscript hmild
  rw [hfound] at hnames
  exact ⟨found, Option.some.inj hnames, hfound, hturned⟩

end Collection

end PoolGauge
