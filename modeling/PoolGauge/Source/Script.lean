import PoolGauge.Source.Query

/-!
# Scripted sources

A source whose replies and delays are written down beforehand. It remembers the questions asked.
-/
namespace PoolGauge

/-- The milliseconds that each kind of question takes. -/
structure Delays where
  listPools : Nat := 0
  poolStatus : Nat := 0
  vdevProperties : Nat := 0
  listDatasets : Nat := 0
  datasetProperties : Nat := 0
  objsetKstat : Nat := 0
deriving DecidableEq, Repr

def Delays.of (d : Delays) : Query → Nat
  | .listPools => d.listPools
  | .poolStatus _ => d.poolStatus
  | .vdevProperties _ => d.vdevProperties
  | .listDatasets => d.listDatasets
  | .datasetProperties _ => d.datasetProperties
  | .objsetKstat .. => d.objsetKstat

/-- The statistics of an object set in a script. -/
structure ScriptedKstat where
  pool : String
  id : UInt64
  reply : Except Failure String

/-- The replies of a source. The properties of datasets are texts to put one after the other, but
the failure at the place of a call among such calls goes before them. -/
structure Script where
  pools : Except Failure String := .ok ""
  datasets : Except Failure String := .ok ""
  statuses : List (String × Except Failure String) := []
  vdevProperties : List (String × Except Failure String) := []
  datasetProperties : List (String × String) := []
  datasetFailures : List (Option Failure) := []
  kstats : List ScriptedKstat := []
  delays : Delays := {}

/-- A script with the questions asked so far, the latest first. -/
structure Rehearsal where
  script : Script
  asked : List Query

namespace Rehearsal

/-- The number of calls for properties of datasets so far. -/
def batchCalls (r : Rehearsal) : Nat :=
  r.asked.countP fun
    | .datasetProperties _ => true
    | _ => false

def poolListCalls (r : Rehearsal) : Nat :=
  r.asked.count .listPools

def batchFailure? (r : Rehearsal) : Option Failure :=
  (r.script.datasetFailures[r.batchCalls - 1]?).join

/-- The reply that the script has for a question, which has been asked already. -/
def reply (r : Rehearsal) : (query : Query) → query.Reply
  | .listPools => r.script.pools
  | .listDatasets => r.script.datasets
  | .poolStatus pool =>
    (r.script.statuses.lookup pool).getD (.error (.command "zpool status" "no such pool"))
  | .vdevProperties pool => (r.script.vdevProperties.lookup pool).getD (.ok "")
  | .datasetProperties names =>
    match r.batchFailure? with
    | some failure => .error failure
    | none => .ok (String.join (names.map fun name =>
        (r.script.datasetProperties.lookup name).getD ""))
  | .objsetKstat pool id =>
    match r.script.kstats.find? fun entry => entry.pool == pool && entry.id == id with
    | some entry => entry.reply.map some
    | none => .ok none

def source : Source Rehearsal where
  call query r := (r.script.delays.of query, { r with asked := query :: r.asked })
  reply query r := (r.reply query, r)

end Rehearsal

end PoolGauge
