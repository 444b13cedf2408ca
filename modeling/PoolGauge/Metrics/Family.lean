import PoolGauge.Number.Shortest
import PoolGauge.Number.Binary64

/-!
# Metric families

A family is a metric with its series, one for each set of label values. Series are told apart by
their label values written one after the other, so two label sets that read the same that way
share a series. Setting a gauge again replaces its value, setting a counter again adds to it.
-/
namespace PoolGauge.Metrics

/-- Label values, in the order in which the family declares its labels, and a value. -/
structure Sample (α : Type) where
  labels : List String
  value : α
deriving Repr

/-- What tells series apart: the label values without anything between them. -/
def seriesKey (labels : List String) : String :=
  String.join labels

/-- Writes a sample into the series with its key, or opens a series. -/
def record {α : Type} (combine : α → α → α) :
    List (Sample α) → Sample α → List (Sample α)
  | [], new => [new]
  | series :: rest, new =>
    if seriesKey series.labels = seriesKey new.labels then
      { series with value := combine series.value new.value } :: rest
    else series :: record combine rest new

/-- The series that samples make, in the order in which they are opened. -/
def gather {α : Type} (combine : α → α → α) (samples : List (Sample α)) : List (Sample α) :=
  samples.foldl (record combine) []

/-- How the values of a family come from what is exposed: a gauge shows the latest value, a
counter the sum of all, wrapping at the end of its word. -/
inductive Measure (ε : Type) where
  | gauge (samples : ε → List (Sample Float))
  | counter (samples : ε → List (Sample UInt64))

def Measure.word {ε : Type} : Measure ε → String
  | gauge _ => "gauge"
  | counter _ => "counter"

/-- The series of the measure; counts become the nearest doubles. -/
def Measure.series {ε : Type} : Measure ε → ε → List (Sample Float)
  | gauge samples, source => gather (fun _ new => new) (samples source)
  | counter samples, source =>
    (gather (· + ·) (samples source)).map fun s => ⟨s.labels, Number.ofWord s.value⟩

/-- A metric with its explanation and the names of its labels. -/
structure Family (ε : Type) where
  name : String
  help : String
  labels : List String
  measure : Measure ε

structure LabelPair where
  name : String
  value : String
deriving DecidableEq, Repr

/-- The labels of a sample in the order of their names. -/
def labelPairs (names values : List String) : List LabelPair :=
  (List.zipWith LabelPair.mk names values).mergeSort fun a b => decide (a.name ≤ b.name)

/-- Whether one set of labels comes before another, by their values in the order of the names. -/
def pairsLe (a b : List LabelPair) : Bool :=
  !(b.map LabelPair.value).lex (a.map LabelPair.value)

structure Series where
  labels : List LabelPair
  value : Float
deriving Repr

/-- The series of a family as they are exposed, in the order of their label values. -/
def Family.series {ε : Type} (family : Family ε) (source : ε) : List Series :=
  ((family.measure.series source).map fun s =>
      Series.mk (labelPairs family.labels s.labels) s.value).mergeSort
    fun a b => pairsLe a.labels b.labels

end PoolGauge.Metrics
