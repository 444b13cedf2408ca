import PoolGauge.Number.Reading

/-!
# Datasets

Filesystems and volumes with their space and activity. A figure that does not apply is zero.
-/
namespace PoolGauge

structure DatasetStats where
  available : UInt64 := 0
  used : UInt64 := 0
  usedByChildren : UInt64 := 0
  usedByDataset : UInt64 := 0
  usedByRefReservation : UInt64 := 0
  usedBySnapshots : UInt64 := 0
  referenced : UInt64 := 0
  logicalUsed : UInt64 := 0
  logicalReferenced : UInt64 := 0
  compressRatio : Float := Number.nearest 0 1
  refCompressRatio : Float := Number.nearest 0 1
  reads : UInt64 := 0
  writes : UInt64 := 0
  bytesRead : UInt64 := 0
  bytesWritten : UInt64 := 0
  unlinks : UInt64 := 0
  unlinked : UInt64 := 0
deriving Repr

/-- A filesystem or volume. Its object set is known while it is mounted. -/
structure Dataset where
  name : String
  pool : String
  objsetId : Option UInt64
  stats : DatasetStats
deriving Repr

namespace Dataset

/-- The pool that a dataset name belongs to, its first component. -/
def poolOf (name : String) : String :=
  String.ofList (name.toList.takeWhile (· != '/'))

/-- The dataset with a name, nothing being known about it yet. -/
def named (name : String) : Dataset :=
  ⟨name, poolOf name, none, {}⟩

end Dataset

end PoolGauge
