import PoolGauge.Proofs.Collection.Replies

/-!
# Batches leave no trace

If the properties of several datasets are told in one block for each, then every dataset is found
just as if it were asked for by itself, whatever the batches are. Each name is asked for once.
-/
namespace PoolGauge

/-- The properties of datasets with some names are told in blocks, one for each that is asked
for. -/
structure Blockwise (replies : (query : Query) → query.Reply) (block : String → String)
    (names : List String) : Prop where
  reply : ∀ asked ⊆ names,
    replies (.datasetProperties asked) = .ok (String.join (asked.map block))
  isBlock : ∀ name ∈ names, IsBlock name (block name)

namespace Collection

open Collecting

/-- A dataset that is asked for by itself, with its activity. -/
def dataset? (name : String) : Collecting (Option Dataset) := do
  let some output ← attempt (.datasetProperties [name]) | return none
  match (DatasetTable.read output).find? name with
  | none => return none
  | some d => withActivity? d

section Cut

variable {α : Type} {size : Nat} {items batch : List α}

theorem length_of_mem_batches (h : batch ∈ batches size items) :
    0 < batch.length ∧ batch.length ≤ size := by
  fun_induction batches size items with
  | case1 items hmore ih =>
    rcases List.mem_cons.mp h with rfl | hrest
    · rw [List.length_take]
      omega
    · exact ih hrest
  | case2 => contradiction

end Cut

variable {replies : (query : Query) → query.Reply} {block : String → String} {names : List String}

/-- The dataset that is found from its own block. -/
def inBlock? (replies : (query : Query) → query.Reply) (block : String → String)
    (name : String) : Option Dataset :=
  ((DatasetTable.read (block name)).find? name).bind (settled? replies)

theorem inBlock?_name {name : String} {d : Dataset} (h : inBlock? replies block name = some d) :
    d.name = name := by
  obtain ⟨known, hknown, hsettled⟩ := Option.bind_eq_some_iff.mp h
  rw [settled?_name hsettled]
  exact (DatasetTable.of_find?_read_eq_some hknown).1

theorem resultBy_dataset? (h : Blockwise replies block names) {name : String}
    (hname : name ∈ names) :
    resultBy replies (dataset? name) = .ok (inBlock? replies block name) := by
  have hreply : replies (.datasetProperties [name]) = .ok (block name) := by
    simpa [String.join] using h.reply [name] (by simpa using hname)
  rw [dataset?, resultBy_bind, resultBy_attempt, hreply, inBlock?]
  change resultBy replies (match (DatasetTable.read (block name)).find? name with
    | none => pure none
    | some d => withActivity? d) = _
  cases (DatasetTable.read (block name)).find? name with
  | none => rfl
  | some d => exact resultBy_withActivity? d

theorem pick_join (h : Blockwise replies block names) {asked : List String}
    (hasked : asked ⊆ names) (hnodup : asked.Nodup) :
    (DatasetTable.read (String.join (asked.map block))).pick asked =
      asked.filterMap fun name => (DatasetTable.read (block name)).find? name := by
  rw [DatasetTable.pick, eraseDups_of_nodup hnodup]
  exact List.filterMap_congr fun name hname =>
    find?_read_join (fun other hother => h.isBlock other (hasked hother)) hnodup hname

/-- A batch has the datasets that are found from the blocks of its names. -/
theorem resultBy_batch (h : Blockwise replies block names) {asked : List String}
    (hasked : asked ⊆ names) (hnodup : asked.Nodup) :
    resultBy replies (batchDatasets asked) = .ok (asked.filterMap (inBlock? replies block)) := by
  rw [resultBy_batchDatasets (h.reply asked hasked), pick_join h hasked hnodup,
    List.filterMap_filterMap]
  rfl

theorem resultBy_batches (h : Blockwise replies block names) {asked : List (List String)}
    (hasked : asked.flatten ⊆ names) (hnodup : asked.flatten.Nodup) :
    resultBy replies (batchesDatasets asked) =
        .ok (asked.flatten.filterMap (inBlock? replies block)) ∧
      propertyCalls (asksBy replies (batchesDatasets asked)) = asked := by
  induction asked with
  | nil => exact ⟨rfl, rfl⟩
  | cons batch rest ih =>
    rw [List.flatten_cons] at hasked hnodup
    obtain ⟨hbatch, hrest⟩ := List.append_subset.mp hasked
    obtain ⟨hfirst, hothers, -⟩ := List.nodup_append.mp hnodup
    obtain ⟨hresult, hcalls⟩ := ih hrest hothers
    have hfound := resultBy_batch h hbatch hfirst
    refine ⟨?_, ?_⟩
    · rw [List.flatten_cons, List.filterMap_append]
      exact resultBy_batchesDatasets_cons hfound hresult
    · rw [batchesDatasets, asksBy_bind hfound, asksBy_bind hresult, propertyCalls_append,
        propertyCalls_append, propertyCalls_batchDatasets (h.reply batch hbatch), hcalls,
        asksBy_pure]
      simp [propertyCalls]

/-- In batches of any size the datasets are those that are found from the blocks of the names, in
the order of the list, and the batches are the calls for properties. -/
theorem resultBy_datasetsInBatches {output : String} (hlist : replies .listDatasets = .ok output)
    (hnodup : (readDatasetList output).Nodup)
    (h : Blockwise replies block (readDatasetList output)) {size : Nat} (hsize : 0 < size) :
    resultBy replies (datasetsInBatches size) =
        .ok ((readDatasetList output).filterMap (inBlock? replies block)) ∧
      propertyCalls (asksBy replies (datasetsInBatches size)) =
        batches size (readDatasetList output) := by
  have hall := flatten_batches size hsize (readDatasetList output)
  have hsubset : (batches size (readDatasetList output)).flatten ⊆ readDatasetList output := by
    rw [hall]
    exact List.Subset.refl _
  obtain ⟨hresult, hcalls⟩ := resultBy_batches h hsubset (by rwa [hall])
  rw [hall] at hresult
  have hrequire : resultBy replies (require .listDatasets) = .ok output := hlist
  refine ⟨?_, ?_⟩
  · rw [resultBy_listed hlist, hresult]
  · rw [datasetsInBatches, asksBy_bind hrequire, propertyCalls_append, hcalls]
    rfl

/-- With a source that tells the properties of datasets in one block for each, the datasets are
those that are found when each listed name is asked for by itself, in the order of the list, and
batches of any other size lead to the same. Each name is asked for once, in order, in calls of
between 1 and 256 names. -/
theorem datasets_of_blocks {σ : Type} {source : Source σ} {kind : σ → Prop} {output : String}
    (h : source.Steady kind replies) (hlist : replies .listDatasets = .ok output)
    (hnodup : (readDatasetList output).Nodup)
    (hblocks : Blockwise replies block (readDatasetList output)) :
    ∃ found : String → Option Dataset,
      (∀ name ∈ readDatasetList output, ∀ state, kind state →
        ((dataset? name).run.run source state).result = .ok (found name)) ∧
      ∀ state, kind state →
        (datasets.run.run source state).result = .ok ((readDatasetList output).filterMap found) ∧
        (∀ size, 0 < size → ((datasetsInBatches size).run.run source state).result =
          (datasets.run.run source state).result) ∧
        (propertyCalls (datasets.run.run source state).queries).flatten = readDatasetList output ∧
        ∀ names ∈ propertyCalls (datasets.run.run source state).queries,
          1 ≤ names.length ∧ names.length ≤ 256 := by
  refine ⟨inBlock? replies block, fun name hname state hstate => ?_, fun state hstate => ?_⟩
  · rw [(h.collecting_eq (dataset? name) hstate).1]
    exact resultBy_dataset? hblocks hname
  · obtain ⟨hresult, hqueries⟩ := h.collecting_eq datasets hstate
    have hsize : 0 < batchSize := by decide
    obtain ⟨hfound, hcalls⟩ := resultBy_datasetsInBatches hlist hnodup hblocks hsize
    rw [← datasets] at hfound hcalls
    rw [hresult, hqueries, hfound, hcalls]
    refine ⟨rfl, fun size hsize => ?_, flatten_batches batchSize hsize _,
      fun names => length_of_mem_batches⟩
    rw [(h.collecting_eq (datasetsInBatches size) hstate).1]
    exact (resultBy_datasetsInBatches hlist hnodup hblocks hsize).1

/-- On the host with statistics that cannot be read, that dataset is left out by itself as well as
among the others. -/
theorem datasets_of_partlyUnreadable : ∃ found : String → Option Dataset,
    (∀ name ∈ ["tank/b", "tank/a", "lost/c"], ∀ state : Rehearsal, state.script = partlyUnreadable →
      ((dataset? name).run.run Rehearsal.source state).result = .ok (found name)) ∧
    ((dataset? "tank/b").run.run Rehearsal.source ⟨partlyUnreadable, []⟩).result.toOption.map
      Option.isNone = some true ∧
    (datasets.run.run Rehearsal.source ⟨partlyUnreadable, []⟩).result =
      .ok (["tank/b", "tank/a", "lost/c"].filterMap found) ∧
    ((datasetsInBatches 2).run.run Rehearsal.source ⟨partlyUnreadable, []⟩).result =
      (datasets.run.run Rehearsal.source ⟨partlyUnreadable, []⟩).result ∧
    (propertyCalls (datasets.run.run Rehearsal.source ⟨partlyUnreadable, []⟩).queries).flatten =
      ["tank/b", "tank/a", "lost/c"] := by
  have hnames : readDatasetList "tank/b\ntank/a\nlost/c\n" = ["tank/b", "tank/a", "lost/c"] := by
    decide +kernel
  have hblocks : Blockwise (Rehearsal.reply { script := partlyUnreadable, asked := [] })
      (fun name => (partlyUnreadable.datasetProperties.lookup name).getD "")
      (readDatasetList "tank/b\ntank/a\nlost/c\n") := by
    rw [hnames]
    exact ⟨fun _ _ => rfl, by decide +kernel⟩
  obtain ⟨found, hfound, hall⟩ := datasets_of_blocks (Rehearsal.steady_source rfl) rfl
    (by rw [hnames]; decide) hblocks
  rw [hnames] at hfound hall
  obtain ⟨hresult, hsize, hcalls, -⟩ := hall ⟨partlyUnreadable, []⟩ rfl
  exact ⟨found, hfound, by decide +kernel, hresult, hsize 2 (by decide), hcalls⟩

end Collection

end PoolGauge
