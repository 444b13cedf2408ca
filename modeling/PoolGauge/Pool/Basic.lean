import PoolGauge.Pool.Status
import PoolGauge.Vdev.Properties

/-!
# Pools

A pool with its state, its tree of vdevs and the number of errors in its data.
-/
namespace PoolGauge

structure Pool where
  name : String
  state : PoolState
  errorCount : UInt64
  vdevs : VdevTree
deriving DecidableEq, Repr

namespace Pool

/-- The pool with a listed state and a status, its vdevs with their figures if there are any. -/
def ofStatus (name : String) (state : PoolState) (status : PoolStatus)
    (properties : Option VdevProperties) : Pool :=
  { name
    state
    errorCount := status.errorCount
    vdevs := match properties with
      | some p => status.vdevs.map p.attach
      | none => status.vdevs }

@[simp] theorem size_ofStatus (name : String) (state : PoolState) (status : PoolStatus)
    (properties : Option VdevProperties) :
    (ofStatus name state status properties).vdevs.size = status.vdevs.size := by
  cases properties <;> simp [ofStatus]

end Pool

end PoolGauge
