import PoolGauge.Health
import PoolGauge.Vdev.Kind

/-!
# Vdev trees

The vdevs of a pool in one array, linked by index. The root is at index zero, a child comes after
its parent, and the path-like name of a vdev begins with its parent's name.
-/
namespace PoolGauge

structure VdevStats where
  readOps : UInt64 := 0
  writeOps : UInt64 := 0
  readBytes : UInt64 := 0
  writeBytes : UInt64 := 0
  readErrors : UInt64 := 0
  writeErrors : UInt64 := 0
  checksumErrors : UInt64 := 0
  allocSpace : UInt64 := 0
  totalSpace : UInt64 := 0
deriving DecidableEq, Repr

structure Vdev where
  label : String
  name : String
  kind : VdevKind
  state : VdevState
  stats : VdevStats
  parent : Option Nat
  children : List Nat
deriving DecidableEq, Repr

/-- The last component of a path-like label. -/
def baseName (label : String) : String :=
  String.ofList (label.toList.reverse.takeWhile (· != '/')).reverse

/-- The label without the slashes it starts with. -/
def relativeLabel (label : String) : String :=
  String.ofList (label.toList.dropWhile (· == '/'))

/-- The name of a new child: the last component of its label below the parent's name, the whole
label if a sibling has that name, and with the index of the child if one has that too. -/
def childName (parent : String) (siblings : List String) (label : String) (index : Nat) :
    String :=
  let short := parent ++ "/" ++ baseName label
  let full := parent ++ "/" ++ relativeLabel label
  if short ∉ siblings then short
  else if full ∉ siblings then full
  else full ++ "#" ++ index.repr

/-- A tree of vdevs with at least the root. -/
structure VdevTree where
  nodes : Array Vdev
  nonempty : 0 < nodes.size
deriving DecidableEq, Repr

namespace VdevTree

def single (pool : String) (state : VdevState) (stats : VdevStats) : VdevTree :=
  ⟨#[⟨pool, pool, .root, state, stats, none, []⟩], by simp⟩

def size (t : VdevTree) : Nat :=
  t.nodes.size

def get? (t : VdevTree) (i : Nat) : Option Vdev :=
  t.nodes[i]?

def root (t : VdevTree) : Vdev :=
  have := t.nonempty
  t.nodes[0]

/-- The vdevs, parents before their children. -/
def toList (t : VdevTree) : List Vdev :=
  t.nodes.toList

def leaves (t : VdevTree) : List Vdev :=
  t.toList.filter (·.kind.isLeaf)

def find? (t : VdevTree) (name : String) : Option Nat :=
  t.toList.findIdx? (·.name == name)

def childNames (t : VdevTree) (v : Vdev) : List String :=
  v.children.filterMap fun i => (t.get? i).map Vdev.name

/-- The new child of a vdev, with the next free index. -/
def newChild (t : VdevTree) (parent : Nat) (above : Vdev) (label : String) (kind : VdevKind)
    (state : VdevState) (stats : VdevStats) : Vdev :=
  ⟨label, childName above.name (t.childNames above) label t.size, kind, state, stats,
    some parent, []⟩

/-- Adds a vdev below an existing one. There is no result if the parent is not in the tree. -/
def push? (t : VdevTree) (parent : Nat) (label : String) (kind : VdevKind) (state : VdevState)
    (stats : VdevStats) : Option VdevTree :=
  (t.get? parent).map fun above =>
    ⟨(t.nodes.push (t.newChild parent above label kind state stats)).modify parent
        fun v => { v with children := v.children ++ [t.size] }, by simp⟩

def map (t : VdevTree) (f : Vdev → Vdev) : VdevTree :=
  ⟨t.nodes.map f, by simpa using t.nonempty⟩

@[simp] theorem size_single (pool : String) (state : VdevState) (stats : VdevStats) :
    (single pool state stats).size = 1 := rfl

@[simp] theorem size_map (t : VdevTree) (f : Vdev → Vdev) : (t.map f).size = t.size := by
  simp [map, size]

@[simp] theorem get?_map (t : VdevTree) (f : Vdev → Vdev) (i : Nat) :
    (t.map f).get? i = (t.get? i).map f := by
  simp [map, get?]

theorem push?_eq_none_iff {t : VdevTree} {parent : Nat} {label : String} {kind : VdevKind}
    {state : VdevState} {stats : VdevStats} :
    t.push? parent label kind state stats = none ↔ t.size ≤ parent := by
  simp [push?, get?, size]

theorem size_push? {t u : VdevTree} {parent : Nat} {label : String} {kind : VdevKind}
    {state : VdevState} {stats : VdevStats} (h : t.push? parent label kind state stats = some u) :
    u.size = t.size + 1 := by
  simp only [push?, Option.map_eq_some_iff] at h
  obtain ⟨above, -, rfl⟩ := h
  simp [size]

end VdevTree

end PoolGauge
