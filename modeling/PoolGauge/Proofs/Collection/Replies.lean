import PoolGauge.Proofs.Collection.Isolation
import PoolGauge.Proofs.Collection.Presence
import PoolGauge.Proofs.Dataset.Rows
import PoolGauge.Proofs.Source.Steady

/-!
# Collections from one reply to each question

When every question has one reply, an inquiry is no more than a calculation with the replies. It is
worked out here for each part of a collection.
-/
namespace PoolGauge

namespace Collecting

variable {α β : Type} (replies : (query : Query) → query.Reply)

def resultBy (x : Collecting α) : Except Failure α :=
  (x.run.run (.fixed replies) ()).result

def asksBy (x : Collecting α) : List Query :=
  (x.run.run (.fixed replies) ()).queries

variable {replies}

theorem resultBy_bind (x : Collecting α) (f : α → Collecting β) :
    resultBy replies (x >>= f) = resultBy replies x >>= fun a => resultBy replies (f a) := by
  change (Inquiry.run (.fixed replies) (Inquiry.bind x.run (ExceptT.bindCont f)) ()).result = _
  rw [Inquiry.run_bind]
  cases hx : (x.run.run (.fixed replies) ()).result <;> simp only [resultBy, hx] <;> rfl

theorem asksBy_bind {x : Collecting α} {a : α} (hx : resultBy replies x = .ok a)
    (f : α → Collecting β) :
    asksBy replies (x >>= f) = asksBy replies x ++ asksBy replies (f a) := by
  change (Inquiry.run (.fixed replies) (Inquiry.bind x.run (ExceptT.bindCont f)) ()).queries = _
  rw [Inquiry.run_bind, show (x.run.run (.fixed replies) ()).result = .ok a from hx]
  rfl

@[simp] theorem resultBy_pure (a : α) : resultBy replies (pure a) = .ok a := rfl

@[simp] theorem asksBy_pure (a : α) : asksBy replies (pure a) = [] := rfl

@[simp] theorem resultBy_liftM (x : Except Failure α) : resultBy replies (liftM x) = x := by
  cases x <;> rfl

@[simp] theorem resultBy_require (query : Query) :
    resultBy replies (require query) = replies query := rfl

theorem resultBy_attempt (query : Query) : resultBy replies (attempt query) =
    match replies query with
    | .ok payload => .ok (some payload)
    | .error failure => if failure.isTransient then .error failure else .ok none := rfl

end Collecting

/-- A steady source is asked for an inquiry what the replies call for, with the same result. -/
theorem Source.Steady.collecting_eq {σ α : Type} {source : Source σ} {kind : σ → Prop}
    {replies : (query : Query) → query.Reply} (h : source.Steady kind replies)
    (x : Collecting α) {state : σ} (hstate : kind state) :
    (x.run.run source state).result = x.resultBy replies ∧
      (x.run.run source state).queries = x.asksBy replies :=
  h.run_eq x.run hstate

/-- The names in each call for properties. -/
def propertyCalls (queries : List Query) : List (List String) :=
  queries.filterMap fun
    | .datasetProperties names => some names
    | _ => none

theorem propertyCalls_append (queries more : List Query) :
    propertyCalls (queries ++ more) = propertyCalls queries ++ propertyCalls more :=
  List.filterMap_append

namespace Collection

open Collecting

variable (replies : (query : Query) → query.Reply)

/-- The dataset with the activity that the replies tell. -/
def settled? (d : Dataset) : Option Dataset :=
  match d.objsetId with
  | none => some d
  | some id => (DatasetVisit.mk d (replies (.objsetKstat d.pool id))).dataset?

variable {replies}

theorem settled?_name {d found : Dataset} (h : settled? replies d = some found) :
    found.name = d.name := by
  unfold settled? at h
  split at h
  · rw [Option.some.inj h]
  · exact ((DatasetVisit.mk d _).dataset?_of_readable.2 h).1

theorem resultBy_withActivity? (d : Dataset) :
    resultBy replies (withActivity? d) = .ok (settled? replies d) := by
  cases hid : d.objsetId with
  | none => simp [withActivity?, settled?, hid]
  | some id =>
    rw [withActivity?_eq_ask hid, settled?]
    simp only [hid]
    rfl

theorem propertyCalls_withActivity? (d : Dataset) :
    propertyCalls (asksBy replies (withActivity? d)) = [] := by
  cases hid : d.objsetId with
  | none => simp [withActivity?, hid, propertyCalls]
  | some id =>
    rw [withActivity?_eq_ask hid]
    rfl

theorem resultBy_takeDatasets (t : DatasetTable) (names : List String) :
    resultBy replies (takeDatasets t names) =
      .ok ((t.pick names).filterMap (settled? replies)) := by
  induction names generalizing t with
  | nil => rfl
  | cons name rest ih =>
    rw [takeDatasets, DatasetTable.pick_cons]
    cases hfound : t.find? name with
    | none =>
      rw [DatasetTable.pick_erase_of_none hfound]
      exact ih t
    | some d =>
      simp only [resultBy_bind, resultBy_withActivity?, ih (t.erase name), resultBy_pure]
      rw [List.filterMap_append, Option.toList_some, filterMap_cons_eq_append, List.filterMap_nil,
        List.append_nil]
      rfl

theorem propertyCalls_takeDatasets (t : DatasetTable) (names : List String) :
    propertyCalls (asksBy replies (takeDatasets t names)) = [] := by
  induction names generalizing t with
  | nil => rfl
  | cons name rest ih =>
    rw [takeDatasets]
    cases hfound : t.find? name with
    | none => exact ih t
    | some d =>
      rw [asksBy_bind (resultBy_withActivity? d), asksBy_bind (resultBy_takeDatasets _ _)]
      simp [propertyCalls_append, propertyCalls_withActivity?, ih]

/-- A batch whose properties are told. -/
theorem resultBy_batchDatasets {names : List String} {output : String}
    (h : replies (.datasetProperties names) = .ok output) :
    resultBy replies (batchDatasets names) =
      .ok (((DatasetTable.read output).pick names).filterMap (settled? replies)) := by
  rw [batchDatasets, resultBy_bind, resultBy_attempt, h]
  exact resultBy_takeDatasets (.read output) names

theorem resultBy_batchesDatasets_cons {names : List String} {rest : List (List String)}
    {found others : List Dataset} (hfound : resultBy replies (batchDatasets names) = .ok found)
    (hothers : resultBy replies (batchesDatasets rest) = .ok others) :
    resultBy replies (batchesDatasets (names :: rest)) = .ok (found ++ others) := by
  rw [batchesDatasets, resultBy_bind, hfound]
  simp only [resultBy_bind, hothers]
  rfl

/-- The listed datasets are asked for in batches. -/
theorem resultBy_listed {output : String} (h : replies .listDatasets = .ok output) (size : Nat) :
    resultBy replies (datasetsInBatches size) =
      resultBy replies (batchesDatasets (batches size (readDatasetList output))) := by
  rw [datasetsInBatches, resultBy_bind, resultBy_require, h]
  rfl

theorem resultBy_assemble {ps : List Pool} {ds : List Dataset}
    (hpools : resultBy replies pools = .ok ps) (hdatasets : resultBy replies datasets = .ok ds) :
    resultBy replies inventory = .ok (assemble ps ds) := by
  rw [inventory, resultBy_bind, hpools]
  change resultBy replies (datasets >>= fun ds => pure (assemble ps ds)) = _
  rw [resultBy_bind, hdatasets]
  rfl

theorem propertyCalls_batchDatasets {names : List String} {output : String}
    (h : replies (.datasetProperties names) = .ok output) :
    propertyCalls (asksBy replies (batchDatasets names)) = [names] := by
  have hattempt : resultBy replies (attempt (.datasetProperties names)) = .ok (some output) := by
    rw [resultBy_attempt, h]
  rw [batchDatasets, asksBy_bind hattempt, propertyCalls_append]
  exact congrArg ([names] ++ ·) (propertyCalls_takeDatasets (.read output) names)

end Collection

end PoolGauge
