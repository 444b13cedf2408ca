import PoolGauge.Dataset.Activity
import PoolGauge.Dataset.Properties
import PoolGauge.Pool.Listing
import PoolGauge.Snapshot
import PoolGauge.Source.Query

/-!
# Collections

The inquiry that builds an inventory. It fails if pools or datasets cannot be listed, or if the
query mechanism itself fails; every other failure costs only the pool, batch or dataset it
concerns.
-/
namespace PoolGauge

/-- An inquiry that may fail as a whole. -/
abbrev Collecting : Type → Type :=
  ExceptT Failure Inquiry

namespace Collecting

/-- Asks a question; the whole inquiry fails with it. -/
def require (query : Query) : Collecting query.Payload :=
  Inquiry.put query

/-- Asks a question; the whole inquiry fails only if the query mechanism does. -/
def attempt (query : Query) : Collecting (Option query.Payload) :=
  Inquiry.ask query fun reply => .done <|
    match reply with
    | .ok payload => .ok (some payload)
    | .error failure => if failure.isTransient then .error failure else .ok none

/-- Asks a question; no failure of it fails the inquiry. -/
def tolerate (query : Query) : Collecting query.Reply :=
  Inquiry.ask query fun reply => .done (.ok reply)

end Collecting

namespace Collection

open Collecting

/-- A listed pool with its status and figures. A pool whose status is refused or cannot be
understood is left out; one whose figures are refused is kept without them. -/
def pool? (listed : ListedPool) : Collecting (Option Pool) := do
  let some output ← attempt (.poolStatus listed.name) | return none
  let .ok status := PoolStatus.read listed.name output | return none
  let figures ← attempt (.vdevProperties listed.name)
  return some (.ofStatus listed.name listed.state status (figures.map VdevProperties.read))

def readablePools : List ListedPool → Collecting (List Pool)
  | [] => return []
  | listed :: rest => do
    let found ← pool? listed
    let others ← readablePools rest
    return found.toList ++ others

def pools : Collecting (List Pool) := do
  let output ← require .listPools
  let listed ← readPoolList output
  readablePools listed

/-- The dataset with its activity. A dataset without an object set or without statistics keeps
zeros; one whose statistics cannot be read or understood is left out. -/
def withActivity? (d : Dataset) : Collecting (Option Dataset) :=
  match d.objsetId with
  | none => return some d
  | some id => do
    match ← tolerate (.objsetKstat d.pool id) with
    | .error _ => return none
    | .ok none => return some d
    | .ok (some statistics) =>
      match d.stats.readActivity d.name statistics with
      | .error _ => return none
      | .ok stats => return some { d with stats }

/-- The datasets with some names, each taken out of the table once. -/
def takeDatasets : DatasetTable → List String → Collecting (List Dataset)
  | _, [] => return []
  | table, name :: rest =>
    match table.find? name with
    | none => takeDatasets table rest
    | some d => do
      let found ← withActivity? d
      let others ← takeDatasets (table.erase name) rest
      return found.toList ++ others

/-- The datasets of a batch of names. A refused batch is left out. -/
def batchDatasets (names : List String) : Collecting (List Dataset) := do
  let some output ← attempt (.datasetProperties names) | return []
  takeDatasets (.read output) names

/-- Cuts a list into batches of a size, the last of which may be smaller. -/
def batches {α : Type} (size : Nat) (items : List α) : List (List α) :=
  if 0 < size ∧ 0 < items.length then items.take size :: batches size (items.drop size) else []
termination_by items.length
decreasing_by simp only [List.length_drop]; omega

def batchesDatasets : List (List String) → Collecting (List Dataset)
  | [] => return []
  | batch :: rest => do
    let found ← batchDatasets batch
    let others ← batchesDatasets rest
    return found ++ others

def datasetsInBatches (size : Nat) : Collecting (List Dataset) := do
  let output ← require .listDatasets
  batchesDatasets (batches size (readDatasetList output))

def batchSize : Nat := 256

def datasets : Collecting (List Dataset) :=
  datasetsInBatches batchSize

/-- Pools and datasets put in order; datasets of pools that were not read are left out. -/
def assemble (pools : List Pool) (datasets : List Dataset) : Inventory :=
  { pools := pools.mergeSort fun a b => decide (a.name ≤ b.name)
    datasets := (datasets.filter fun d => pools.any (·.name == d.pool)).mergeSort
      fun a b => decide (a.name ≤ b.name) }

def inventory : Collecting Inventory := do
  let pools ← pools
  let datasets ← datasets
  return assemble pools datasets

end Collection

end PoolGauge
