import PoolGauge.Dataset.Basic
import PoolGauge.Duration
import PoolGauge.Pool.Basic

/-!
# Snapshots

The pools and datasets of a host at one point in time.
-/
namespace PoolGauge

/-- What a collection finds: pools and datasets, each in the order of their names. -/
structure Inventory where
  pools : List Pool
  datasets : List Dataset
deriving Repr

/-- An inventory with the time it was finished and the time it took. -/
structure Snapshot extends Inventory where
  collectedAt : Timestamp
  duration : Duration
deriving Repr

namespace Inventory

def pool? (inventory : Inventory) (name : String) : Option Pool :=
  inventory.pools.find? (·.name == name)

def dataset? (inventory : Inventory) (name : String) : Option Dataset :=
  inventory.datasets.find? (·.name == name)

end Inventory

end PoolGauge
