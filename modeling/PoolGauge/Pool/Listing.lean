import PoolGauge.Failure
import PoolGauge.Health
import PoolGauge.Text.Quoted
import PoolGauge.Text.Split

/-!
# The list of pools

One line per imported pool with its name and health, separated by a tab.
-/
namespace PoolGauge

/-- A pool as the list names it. -/
structure ListedPool where
  name : String
  state : PoolState
deriving DecidableEq, Repr

/-- Whether the line lists no pool: it is empty or says that there are none. -/
def isEmptyListing (line : List Char) : Bool :=
  line.isEmpty || String.ofList line == "no pools available"

def emptyPoolName (line : List Char) : Failure :=
  .parse "zpool list" ("empty pool name in " ++ String.ofList (Text.quoted line))

/-- Reads a line of the list, which has no blanks at its end. A pool without a health word is in
an unknown state. -/
def ListedPool.read (line : List Char) : Except Failure ListedPool :=
  let cells := Text.fields line
  let name := Text.trim (cells.headD [])
  if name.isEmpty then .error (emptyPoolName line)
  else .ok
    { name := String.ofList name
      state := match cells[1]? with
        | some health => .ofHealth (String.ofList health)
        | none => .unknown }

def readPoolList (output : String) : Except Failure (List ListedPool) :=
  ((Text.lines output.toList).map Text.trimEnd |>.filter (!isEmptyListing ·)).mapM
    ListedPool.read

end PoolGauge
