import PoolGauge.Dataset.Basic
import PoolGauge.Text.Split

/-!
# Properties of datasets

Rows of dataset, property and value, gathered into one record per dataset. A value that is not a
number makes its figure zero, and of two rows for one property the later counts.
-/
namespace PoolGauge

def readDatasetList (output : String) : List String :=
  (Text.lines output.toList).map (fun line => String.ofList (Text.trim line)) |>.filter
    fun name => name != "" && name != "no datasets available"

/-- A property of a dataset. -/
structure DatasetRow where
  name : String
  property : String
  value : List Char
deriving DecidableEq, Repr

def DatasetRow.read? (line : List Char) : Option DatasetRow :=
  match Text.fields line with
  | name :: property :: value :: _ =>
    let name := Text.trim name
    if name.isEmpty then none
    else some
      ⟨String.ofList name, String.ofList (Text.trim property), Text.trim value⟩
  | _ => none

namespace DatasetStats

/-- A count, zero if the text is none. -/
def readCount (text : List Char) : UInt64 :=
  (Number.readWord text).getD 0

/-- A ratio, which may end in the letter `x`. It is zero unless it is a finite number that is not
negative. -/
def readRatio (text : List Char) : Float :=
  let zero := Number.nearest 0 1
  match Number.readFloat (text.reverse.dropWhile (· == 'x')).reverse with
  | some ratio => if ratio.isFinite && zero ≤ ratio then ratio else zero
  | none => zero

end DatasetStats

namespace Dataset

/-- The dataset with the property of a row; properties that are not exposed change nothing. -/
def withProperty (d : Dataset) (property : String) (value : List Char) : Dataset :=
  let count := DatasetStats.readCount value
  match property with
  | "objsetid" => { d with objsetId := Number.readWord value }
  | "available" => { d with stats := { d.stats with available := count } }
  | "used" => { d with stats := { d.stats with used := count } }
  | "usedbychildren" => { d with stats := { d.stats with usedByChildren := count } }
  | "usedbydataset" => { d with stats := { d.stats with usedByDataset := count } }
  | "usedbyrefreservation" => { d with stats := { d.stats with usedByRefReservation := count } }
  | "usedbysnapshots" => { d with stats := { d.stats with usedBySnapshots := count } }
  | "referenced" => { d with stats := { d.stats with referenced := count } }
  | "logicalused" => { d with stats := { d.stats with logicalUsed := count } }
  | "logicalreferenced" => { d with stats := { d.stats with logicalReferenced := count } }
  | "compressratio" =>
    { d with stats := { d.stats with compressRatio := DatasetStats.readRatio value } }
  | "refcompressratio" =>
    { d with stats := { d.stats with refCompressRatio := DatasetStats.readRatio value } }
  | _ => d

end Dataset

/-- Datasets in the order of their names, one for each name. -/
structure DatasetTable where
  datasets : List Dataset
deriving Repr

namespace DatasetTable

def empty : DatasetTable := ⟨[]⟩

/-- Changes the dataset with a name, which begins as one that nothing is known about. -/
def upsert (name : String) (change : Dataset → Dataset) : List Dataset → List Dataset
  | [] => [change (.named name)]
  | d :: rest =>
    if name < d.name then change (.named name) :: d :: rest
    else if d.name = name then change d :: rest
    else d :: upsert name change rest

def addRow (t : DatasetTable) (row : DatasetRow) : DatasetTable :=
  ⟨upsert row.name (·.withProperty row.property row.value) t.datasets⟩

def read (output : String) : DatasetTable :=
  ((Text.lines output.toList).filterMap DatasetRow.read?).foldl addRow empty

def find? (t : DatasetTable) (name : String) : Option Dataset :=
  t.datasets.find? (·.name == name)

def erase (t : DatasetTable) (name : String) : DatasetTable :=
  ⟨t.datasets.filter (·.name != name)⟩

end DatasetTable

end PoolGauge
