import PoolGauge.Text.Split
import PoolGauge.Vdev.Tree

/-!
# Properties of vdevs

Rows of vdev, property and value. A row counts if its value is a counter; of two rows for one
property the later counts. The figures are attached to the vdevs of a tree by label.
-/
namespace PoolGauge

structure PropertyRow where
  label : String
  property : String
  value : UInt64
deriving DecidableEq, Repr

def PropertyRow.read? (line : List Char) : Option PropertyRow :=
  match Text.fields line with
  | label :: property :: value :: _ =>
    (Number.readWord (Text.trim value)).map fun n =>
      ⟨String.ofList (Text.trim label), String.ofList (Text.trim property), n⟩
  | _ => none

/-- The figures of the vdevs of a pool, in the order of their rows. -/
structure VdevProperties where
  rows : List PropertyRow
deriving DecidableEq, Repr

namespace VdevProperties

def read (output : String) : VdevProperties :=
  ⟨(Text.lines output.toList).filterMap PropertyRow.read?⟩

def covers (p : VdevProperties) (label : String) : Bool :=
  p.rows.any (·.label == label)

/-- The figure of a vdev, from the last row that gives it. -/
def get? (p : VdevProperties) (label property : String) : Option UInt64 :=
  (p.rows.findRev? fun row => row.label == label && row.property == property).map
    PropertyRow.value

/-- The labels under which the figures of a vdev may stand, the best first. -/
def keysOf (v : Vdev) : List String :=
  if v.kind = .root then ["root-0", "root", v.label] else [v.label]

def keyOf? (p : VdevProperties) (v : Vdev) : Option String :=
  (keysOf v).find? p.covers

/-- The vdev with its operations, bytes and space. The counts of errors stay, and so does a vdev
without any figure. -/
def attach (p : VdevProperties) (v : Vdev) : Vdev :=
  match p.keyOf? v with
  | none => v
  | some key =>
    let figure (property : String) : UInt64 := (p.get? key property).getD 0
    { v with stats :=
      { v.stats with
        readOps := figure "read_ops"
        writeOps := figure "write_ops"
        readBytes := figure "read_bytes"
        writeBytes := figure "write_bytes"
        allocSpace := figure "allocated"
        totalSpace := figure "size" } }

end VdevProperties

end PoolGauge
