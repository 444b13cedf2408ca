import PoolGauge.Proofs.Vdev.Forest
import PoolGauge.Proofs.Vdev.Names

/-!
# Trees built by additions

Whatever is added to a root, one vdev after the other, the links make a tree. An addition below a
vdev puts a new one at the next index, and of the others only its parent changes, which lists it; an
addition below no vdev changes nothing. The same comes of changing an array of vdevs in place, where
a vdev that is missed stops the addition before anything has changed.
-/
namespace PoolGauge

/-- A vdev to be added, and the index of the vdev that it goes below. -/
structure Addition extends VdevEntry where
  parent : Nat
deriving DecidableEq, Repr

namespace VdevTree

/-- The tree with an addition, if there is a vdev for it to go below. -/
def added? (t : VdevTree) (a : Addition) : Option VdevTree :=
  t.push? a.parent a.label a.kind a.state a.stats

def add (t : VdevTree) (a : Addition) : VdevTree :=
  (t.added? a).getD t

/-- The tree that a root and some additions make. -/
def build (pool : String) (state : VdevState) (stats : VdevStats) (additions : List Addition) :
    VdevTree :=
  additions.foldl add (single pool state stats)

/-- The links make a tree: no two vdevs share a child, no vdev is below itself, and all are below
the root. -/
structure Rooted (t : VdevTree) : Prop extends t.Linked where
  unshared : ∀ {p q i : Nat} {above other : Vdev}, t.get? p = some above → t.get? q = some other →
    i ∈ above.children → i ∈ other.children → p = q
  acyclic : ∀ i, ¬ t.AncestorOf i i
  reached : ∀ i, 0 < i → i < t.size → t.AncestorOf 0 i

/-- Every vdev but the root has the name of its parent, a slash and the end of its own label for a
name. Where elder siblings have both names that it could get so, its index follows. -/
def NamedByLabels (t : VdevTree) : Prop :=
  ∀ (p i : Nat) (above v : Vdev), t.get? i = some v → v.parent = some p → t.get? p = some above →
    ∃ text, text <:+ v.label.toList ∧
      (v.name = above.name ++ "/" ++ String.ofList text ∨
        t.ElderName p i (plainName above.name v.label) ∧
          t.ElderName p i (longName above.name v.label) ∧
          v.name = above.name ++ "/" ++ String.ofList text ++ "#" ++ i.repr)

/-- The vdevs of a tree stay in another one, with perhaps more children. -/
def StaysIn (t u : VdevTree) : Prop :=
  ∀ (i : Nat) (v : Vdev), t.get? i = some v →
    ∃ more, u.get? i = some { v with children := v.children ++ more }

/-- A tree has what is added to another one at the next index, as the last child of its parent, and
is that other one elsewhere. -/
structure Extends (t : VdevTree) (a : Addition) (u : VdevTree) : Prop where
  size : u.size = t.size + 1
  child : ∃ name, u.get? t.size =
    some ⟨a.label, name, a.kind, a.state, a.stats, some a.parent, []⟩
  parent : ∀ {v : Vdev}, t.get? a.parent = some v →
    u.get? a.parent = some { v with children := v.children ++ [t.size] }
  others : ∀ {i : Nat}, i ≠ t.size → i ≠ a.parent → u.get? i = t.get? i

variable {pool : String} {t u w : VdevTree} {a : Addition} {i p : Nat}

section Links

theorem ParentOf.lt (l : t.Linked) (h : t.ParentOf p i) : p < i := by
  obtain ⟨v, hv, hp⟩ := h
  exact l.parent_lt hv hp

/-- An ancestor comes before what is below it. -/
theorem AncestorOf.lt (l : t.Linked) (h : t.AncestorOf p i) : p < i := by
  induction h with
  | single hparent => exact hparent.lt l
  | tail _ hparent ih => exact ih.trans (hparent.lt l)

theorem Linked.ancestorOf_zero (l : t.Linked) (hpos : 0 < i) (hi : i < t.size) :
    t.AncestorOf 0 i := by
  induction i using Nat.strong_induction_on with
  | _ i ih =>
    obtain ⟨v, hv⟩ := exists_get? hi
    obtain ⟨p, hp, hparent⟩ := l.parent hv (by omega)
    rcases Nat.eq_zero_or_pos p with rfl | hppos
    · exact .single ⟨v, hv, hparent⟩
    · exact .tail (ih p hp hppos (by omega)) ⟨v, hv, hparent⟩

theorem Linked.rooted (l : t.Linked) : t.Rooted where
  toLinked := l
  unshared := by
    intro p q i above other hp hq hi hj
    obtain ⟨v, hv, hvp⟩ := (l.children hp i).mp hi
    obtain ⟨w, hw, hwq⟩ := (l.children hq i).mp hj
    obtain rfl := Option.some.inj (hv.symm.trans hw)
    exact Option.some.inj (hvp.symm.trans hwq)
  acyclic i h := (AncestorOf.lt l h).false
  reached _ := l.ancestorOf_zero

end Links

section Labels

theorem baseName_suffix (label : String) : (baseName label).toList <:+ label.toList := by
  rw [baseName, String.toList_ofList, ← List.reverse_prefix, List.reverse_reverse]
  exact List.takeWhile_prefix _

theorem relativeLabel_suffix (label : String) : (relativeLabel label).toList <:+ label.toList := by
  rw [relativeLabel, String.toList_ofList]
  exact List.dropWhile_suffix _

theorem Named.namedByLabels (n : t.Named pool) : t.NamedByLabels := by
  intro p i above v hv hp habove
  obtain ⟨siblings, hsiblings, hname⟩ := n.child hv hp habove
  by_cases hplain : plainName above.name v.label ∈ siblings
  · rw [childName_of_mem hplain] at hname
    refine ⟨_, relativeLabel_suffix v.label, ?_⟩
    rw [String.ofList_toList]
    split at hname
    · rename_i hlong
      exact .inr ⟨(hsiblings _).mp hplain, (hsiblings _).mp hlong, hname⟩
    · exact .inl hname
  · refine ⟨_, baseName_suffix v.label, .inl ?_⟩
    rw [hname, childName_eq_plainName_iff.mpr hplain, String.ofList_toList]
    rfl

end Labels

section Additions

theorem StaysIn.refl (t : VdevTree) : t.StaysIn t :=
  fun _ _ hv => ⟨[], by rw [hv, List.append_nil]⟩

theorem StaysIn.trans (h : t.StaysIn u) (h' : u.StaysIn w) : t.StaysIn w := by
  intro i v hv
  obtain ⟨more, hu⟩ := h i v hv
  obtain ⟨others, hw⟩ := h' i _ hu
  exact ⟨more ++ others, by rw [hw, List.append_assoc]⟩

theorem extends_of_added? (h : t.added? a = some u) : t.Extends a u := by
  obtain ⟨above, habove, hget⟩ := get?_push? h
  have hparent := lt_size_of_get? habove
  constructor
  case size => exact size_push? h
  case child => exact ⟨_, (hget _).trans (if_pos rfl)⟩
  case parent =>
    intro v hv
    rw [hget, if_neg hparent.ne, hv, Option.map_some, if_pos rfl]
  case others =>
    intro i hnew hold
    rw [hget, if_neg hnew, if_neg hold]
    simp

theorem Extends.staysIn (h : t.Extends a u) : t.StaysIn u := by
  intro i v hv
  by_cases hi : i = a.parent
  · subst hi
    exact ⟨_, h.parent hv⟩
  · have hnew := (lt_size_of_get? hv).ne
    exact ⟨[], by rw [h.others hnew hi, hv, List.append_nil]⟩

theorem added?_eq_none (h : t.size ≤ a.parent) : t.added? a = none :=
  push?_eq_none_iff.mpr h

theorem added?_eq_some (h : a.parent < t.size) : t.added? a = some (t.add a) := by
  cases hadded : t.added? a with
  | none =>
    have := push?_eq_none_iff.mp hadded
    omega
  | some u => rw [add, hadded, Option.getD_some]

theorem add_of_refused (h : t.added? a = none) : t.add a = t := by
  rw [add, h]
  rfl

theorem build_append (pool : String) (state : VdevState) (stats : VdevStats)
    (additions more : List Addition) :
    build pool state stats (additions ++ more) =
      more.foldl add (build pool state stats additions) :=
  List.foldl_append

theorem staysIn_add (t : VdevTree) (a : Addition) : t.StaysIn (t.add a) := by
  cases h : t.added? a with
  | none => rw [add_of_refused h]; exact .refl t
  | some u =>
    rw [add, h]
    exact (extends_of_added? h).staysIn

theorem Grown.add (g : t.Grown pool) (a : Addition) : (t.add a).Grown pool := by
  cases h : t.added? a with
  | none => rwa [add_of_refused h]
  | some u =>
    rw [VdevTree.add, h]
    exact g.push h

theorem grown_foldl_add (g : t.Grown pool) (additions : List Addition) :
    (additions.foldl VdevTree.add t).Grown pool := by
  induction additions generalizing t with
  | nil => exact g
  | cons a rest ih => exact ih (g.add a)

theorem grown_build (pool : String) (state : VdevState) (stats : VdevStats)
    (additions : List Addition) : (build pool state stats additions).Grown pool :=
  grown_foldl_add (.single state stats) additions

theorem staysIn_foldl_add (t : VdevTree) (additions : List Addition) :
    t.StaysIn (additions.foldl add t) := by
  induction additions generalizing t with
  | nil => exact .refl t
  | cons a rest ih => exact (staysIn_add t a).trans (ih (t.add a))

end Additions

end VdevTree

/-- Steps that read and change an array of vdevs. One that misses a vdev ends them, with its index
and the array as it is then. -/
abbrev Steps := EStateM Nat (Array Vdev)

namespace Steps

def vdevAt (i : Nat) : Steps Vdev := do
  match (← get)[i]? with
  | some v => return v
  | none => throw i

def isTaken (above : Vdev) (name : String) : Steps Bool :=
  above.children.anyM fun i => return (← vdevAt i).name == name

def chooseName (parent : Nat) (label : String) (index : Nat) : Steps String := do
  let above ← vdevAt parent
  if ← isTaken above (plainName above.name label) then
    if ← isTaken above (longName above.name label) then
      return longName above.name label ++ "#" ++ index.repr
    else return longName above.name label
  else return plainName above.name label

def listChild (parent index : Nat) : Steps Unit := do
  let _ ← vdevAt parent
  modify (·.modify parent fun v => { v with children := v.children ++ [index] })

/-- Adds a vdev and gives its index. The vdev comes first, then its parent lists it. -/
def add (a : Addition) : Steps Nat := do
  let index := (← get).size
  let name ← chooseName a.parent a.label index
  modify (·.push ⟨a.label, name, a.kind, a.state, a.stats, some a.parent, []⟩)
  listChild a.parent index
  return index

variable {t : VdevTree} {above v : Vdev} {vdevs : Array Vdev} {a : Addition} {i p : Nat}

theorem run_bind_of_ok {α β : Type} {first : Steps α} {next : α → Steps β} {found : α}
    {changed : Array Vdev} (h : first.run vdevs = .ok found changed) :
    (first >>= next).run vdevs = (next found).run changed := by
  rw [EStateM.run_bind, h]

theorem run_bind_of_error {α β : Type} {first : Steps α} {next : α → Steps β} {missed : Nat}
    {changed : Array Vdev} (h : first.run vdevs = .error missed changed) :
    (first >>= next).run vdevs = .error missed changed := by
  rw [EStateM.run_bind, h]

theorem run_vdevAt (h : vdevs[i]? = some v) : (vdevAt i).run vdevs = .ok v vdevs := by
  simp [vdevAt, h]

theorem run_vdevAt_of_none (h : vdevs[i]? = none) : (vdevAt i).run vdevs = .error i vdevs := by
  rw [vdevAt, run_bind_of_ok (EStateM.run_get vdevs)]
  simp only [h]
  rfl

/-- Questions that change nothing are asked until one is answered with yes. -/
theorem run_anyM {ask : Nat → Steps Bool} {answer : Nat → Bool} {indices : List Nat}
    (h : ∀ i ∈ indices, (ask i).run vdevs = .ok (answer i) vdevs) :
    (indices.anyM ask).run vdevs = .ok (indices.any answer) vdevs := by
  induction indices with
  | nil => rfl
  | cons i rest ih =>
    obtain ⟨hi, hrest⟩ := List.forall_mem_cons.mp h
    rw [List.anyM, run_bind_of_ok hi, List.any_cons]
    cases answer i with
    | true => rfl
    | false => exact ih hrest

/-- The children of a vdev are all there to be asked for their names. -/
theorem run_isTaken (l : t.Linked) (h : t.get? p = some above) (name : String) :
    (isTaken above name).run t.nodes = .ok (decide (name ∈ t.childNames above)) t.nodes := by
  have hchild : ∀ i ∈ above.children,
      ((return (← vdevAt i).name == name : Steps Bool)).run t.nodes =
        .ok ((t.get? i).any (·.name == name)) t.nodes := by
    intro i hi
    obtain ⟨v, hv, -⟩ := (l.children h i).mp hi
    rw [run_bind_of_ok (run_vdevAt hv), hv]
    rfl
  rw [isTaken, run_anyM hchild]
  congr 1
  rw [Bool.eq_iff_iff, decide_eq_true_iff, List.any_eq_true, VdevTree.childNames,
    List.mem_filterMap]
  simp [Option.any_eq_true]

theorem run_chooseName (l : t.Linked) (h : t.get? p = some above) (label : String) (index : Nat) :
    (chooseName p label index).run t.nodes =
      .ok (childName above.name (t.childNames above) label index) t.nodes := by
  have hplain := run_isTaken l h (plainName above.name label)
  have hlong := run_isTaken l h (longName above.name label)
  rw [chooseName, run_bind_of_ok (run_vdevAt h), run_bind_of_ok hplain]
  by_cases hp : plainName above.name label ∈ t.childNames above
  · rw [childName_of_mem hp, if_pos (decide_eq_true hp), run_bind_of_ok hlong]
    by_cases hl : longName above.name label ∈ t.childNames above
    · rw [if_pos hl, if_pos (decide_eq_true hl)]
      rfl
    · rw [if_neg hl, if_neg (by simpa using hl)]
      rfl
  · rw [childName_eq_plainName_iff.mpr hp, if_neg (by simpa using hp)]
    rfl

theorem run_listChild (h : vdevs[p]? = some above) (index : Nat) :
    (listChild p index).run vdevs = .ok ()
      (vdevs.modify p fun v => { v with children := v.children ++ [index] }) :=
  run_bind_of_ok (run_vdevAt h)

/-- An addition in place goes from one tree to the next, and one below no vdev ends before anything
has changed. -/
theorem run_add (l : t.Linked) (a : Addition) :
    (add a).run t.nodes = match t.added? a with
      | some u => .ok t.size u.nodes
      | none => .error a.parent t.nodes := by
  cases h : t.get? a.parent with
  | none =>
    have hnone : t.added? a = none := by rw [VdevTree.added?, VdevTree.push?, h]; rfl
    have hmissed : (chooseName a.parent a.label t.size).run t.nodes = .error a.parent t.nodes :=
      run_bind_of_error (run_vdevAt_of_none h)
    rw [hnone, add, run_bind_of_ok (EStateM.run_get t.nodes)]
    exact run_bind_of_error hmissed
  | some above =>
    let child := t.newChild a.parent above a.label a.kind a.state a.stats
    have hadded : t.added? a = some ⟨(t.nodes.push child).modify a.parent
        fun v => { v with children := v.children ++ [t.size] }, by simp⟩ := by
      rw [VdevTree.added?, VdevTree.push?, h]
      rfl
    have hne : a.parent ≠ t.nodes.size := (VdevTree.lt_size_of_get? h).ne
    have hpushed : (t.nodes.push child)[a.parent]? = some above := by
      rw [Array.getElem?_push, if_neg hne]
      exact h
    rw [hadded, add, run_bind_of_ok (EStateM.run_get t.nodes),
      run_bind_of_ok (run_chooseName l h a.label t.nodes.size),
      run_bind_of_ok (EStateM.run_modify _ _)]
    exact run_bind_of_ok (run_listChild hpushed t.size)

end Steps

namespace VdevTree

/-- Whatever is added to a root, the links make a tree and the names follow the labels, and what a
vdev is stays when others are added. An addition below no vdev ends before anything has changed, and
any other changes only its parent, besides the new vdev. -/
theorem additions_make_tree (pool : String) (state : VdevState) (stats : VdevStats)
    (additions : List Addition) :
    let t := build pool state stats additions
    t.Rooted ∧ t.NamedByLabels ∧
    (∀ more, t.StaysIn (build pool state stats (additions ++ more))) ∧
    ∀ a : Addition,
      (t.size ≤ a.parent → t.added? a = none ∧ t.add a = t ∧
        (Steps.add a).run t.nodes = .error a.parent t.nodes) ∧
      (a.parent < t.size → t.added? a = some (t.add a) ∧ t.Extends a (t.add a) ∧
        (Steps.add a).run t.nodes = .ok t.size (t.add a).nodes) := by
  intro t
  have grown : t.Grown pool := grown_build pool state stats additions
  refine ⟨grown.linked.rooted, grown.named.namedByLabels, fun more => ?_,
    fun a => ⟨fun hrefused => ?_, fun htaken => ?_⟩⟩
  · rw [build_append]
    exact staysIn_foldl_add t more
  · have hnone := added?_eq_none hrefused
    refine ⟨hnone, add_of_refused hnone, ?_⟩
    rw [Steps.run_add grown.linked, hnone]
  · have hsome := added?_eq_some htaken
    refine ⟨hsome, extends_of_added? hsome, ?_⟩
    rw [Steps.run_add grown.linked, hsome]

/-- Two disks of one label below the same vdev, and an addition below no vdev between them. -/
theorem additions_make_mirror :
    let disk (label : String) (parent : Nat) : Addition := ⟨⟨label, .disk, .online, {}⟩, parent⟩
    let t := build "tank" .online {}
      [⟨⟨"mirror-0", .mirror, .online, {}⟩, 0⟩, disk "/a/x" 1, disk "/b/x" 7, disk "/b/x" 1]
    t.names = ["tank", "tank/mirror-0", "tank/mirror-0/x", "tank/mirror-0/b/x"] ∧ t.Rooted ∧
      (Steps.add (disk "/b/x" 4)).run t.nodes = .error 4 t.nodes ∧
      t.Extends (disk "/b/x" 1) (t.add (disk "/b/x" 1)) := by
  intro disk t
  obtain ⟨rooted, -, -, hadd⟩ := additions_make_tree "tank" .online {}
    [⟨⟨"mirror-0", .mirror, .online, {}⟩, 0⟩, disk "/a/x" 1, disk "/b/x" 7, disk "/b/x" 1]
  have hsize : t.size = 4 := by decide +kernel
  obtain ⟨-, -, hstopped⟩ := (hadd (disk "/b/x" 4)).1 hsize.le
  obtain ⟨-, hextends, -⟩ := (hadd (disk "/b/x" 1)).2 (by rw [hsize]; decide)
  exact ⟨by decide +kernel, rooted, hstopped, hextends⟩

/-- The second of two disks of one label has its index in its name, which is not of its label. -/
theorem index_in_name_of_second_disk :
    let disk : Addition := ⟨⟨"sda", .disk, .online, {}⟩, 0⟩
    let t := build "tank" .online {} [disk, disk]
    ∃ above v, t.get? 0 = some above ∧ t.get? 2 = some v ∧ v.parent = some 0 ∧
      ∀ text : List Char, (∀ c ∈ text, c ∈ v.label.toList) →
        v.name ≠ above.name ++ "/" ++ String.ofList text := by
  intro disk t
  have hroot : t.get? 0 = some ⟨"tank", "tank", .root, .online, {}, none, [1, 2]⟩ := by
    decide +kernel
  have hdisk : t.get? 2 = some ⟨"sda", "tank/sda#2", .disk, .online, {}, some 0, []⟩ := by
    decide +kernel
  refine ⟨_, _, hroot, hdisk, rfl, fun text htext hname => ?_⟩
  have hlist : "tank/".toList ++ "sda#2".toList = "tank/".toList ++ text := by
    simpa using congrArg String.toList hname
  have hmark : '#' ∈ text := by
    rw [← List.append_cancel_left hlist]
    decide
  exact absurd (htext '#' hmark) (by decide)

end VdevTree

end PoolGauge
