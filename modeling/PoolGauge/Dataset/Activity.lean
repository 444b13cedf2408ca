import PoolGauge.Dataset.Basic
import PoolGauge.Dataset.Properties
import PoolGauge.Failure

/-!
# Activity of datasets

The kernel's statistics of an object set: some lines, the titles `name type data`, then one row
for each counter. A row whose data is not a number makes its counter zero.
-/
namespace PoolGauge

structure ActivityRow where
  name : String
  data : List Char
deriving DecidableEq, Repr

namespace ActivityRow

def read? (line : List Char) : Option ActivityRow :=
  match Text.words line with
  | name :: _ :: data :: _ => some ⟨String.ofList name, data⟩
  | _ => none

def isTitle (line : List Char) : Bool :=
  match Text.words line with
  | name :: type :: data :: _ =>
    String.ofList name == "name" && String.ofList type == "type" && String.ofList data == "data"
  | _ => false

end ActivityRow

namespace DatasetStats

/-- The figures with the counter of a row; rows that are no counter change nothing. -/
def withActivity (s : DatasetStats) (row : ActivityRow) : DatasetStats :=
  let count := readCount row.data
  match row.name with
  | "writes" => { s with writes := count }
  | "nwritten" => { s with bytesWritten := count }
  | "reads" => { s with reads := count }
  | "nread" => { s with bytesRead := count }
  | "nunlinks" => { s with unlinks := count }
  | "nunlinked" => { s with unlinked := count }
  | _ => s

def missingTitles (dataset : String) : Failure :=
  .parse ("objset kstat of " ++ dataset) "missing `name type data` header"

/-- The figures with the counters of a text of statistics, which must have the titles. -/
def readActivity (s : DatasetStats) (dataset statistics : String) :
    Except Failure DatasetStats :=
  match (Text.lines statistics.toList).dropWhile (!ActivityRow.isTitle ·) with
  | [] => .error (missingTitles dataset)
  | _ :: rows => .ok ((rows.filterMap ActivityRow.read?).foldl withActivity s)

end DatasetStats

end PoolGauge
