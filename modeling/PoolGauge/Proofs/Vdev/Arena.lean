import Mathlib.Data.List.Nodup
import Mathlib.Logic.Relation
import PoolGauge.Vdev.Tree

/-!
# Trees that grow by adding children

A tree starts as its root and gets one child at a time. The links stay in step: a vdev is listed
as a child exactly by its parent, and comes after it. Every child is named against the siblings
that came before it, and neither its name nor its label changes afterwards.
-/
namespace PoolGauge.VdevTree

/-- The trees that a root named after the pool grows into. Figures may be replaced at any time. -/
inductive Grown (pool : String) : VdevTree → Prop
  | single (state : VdevState) (stats : VdevStats) : Grown pool (.single pool state stats)
  | push {t u : VdevTree} {parent : Nat} {label : String} {kind : VdevKind} {state : VdevState}
      {stats : VdevStats} (grown : Grown pool t)
      (pushed : t.push? parent label kind state stats = some u) : Grown pool u
  | refigure {t : VdevTree} (figures : Vdev → VdevStats) (grown : Grown pool t) :
      Grown pool (t.map fun v => { v with stats := figures v })

def names (t : VdevTree) : List String :=
  t.toList.map Vdev.name

def ParentOf (t : VdevTree) (p i : Nat) : Prop :=
  ∃ v, t.get? i = some v ∧ v.parent = some p

/-- A vdev is an ancestor of another one: parents lead from that one to it. -/
def AncestorOf (t : VdevTree) : Nat → Nat → Prop :=
  Relation.TransGen t.ParentOf

variable {t u : VdevTree} {parent : Nat} {label : String} {kind : VdevKind} {state : VdevState}
  {stats : VdevStats}

theorem get?_eq_none_iff {i : Nat} : t.get? i = none ↔ t.size ≤ i := by
  simp [get?, size]

theorem get?_zero (t : VdevTree) : t.get? 0 = some t.root := by
  simp [get?, root, t.nonempty]

theorem lt_size_of_get? {i : Nat} {v : Vdev} (h : t.get? i = some v) : i < t.size := by
  by_contra hi
  rw [get?_eq_none_iff.mpr (by omega)] at h
  contradiction

theorem exists_get? {i : Nat} (h : i < t.size) : ∃ v, t.get? i = some v :=
  ⟨_, Array.getElem?_eq_getElem h⟩

theorem get?_single (pool : String) (i : Nat) :
    (single pool state stats).get? i =
      if i = 0 then some ⟨pool, pool, .root, state, stats, none, []⟩ else none := by
  cases i <;> simp [single, get?]

theorem mem_toList_iff {v : Vdev} : v ∈ t.toList ↔ ∃ i, t.get? i = some v := by
  simp [toList, get?, Array.mem_iff_getElem?]

theorem names_getElem? (i : Nat) : t.names[i]? = (t.get? i).map Vdev.name := by
  simp [names, toList, get?]

/-- All that adding a child does: the child takes the next index, its parent lists it, and every
other vdev stays. -/
theorem get?_push? (h : t.push? parent label kind state stats = some u) :
    ∃ above, t.get? parent = some above ∧ ∀ i, u.get? i =
      if i = t.size then some (t.newChild parent above label kind state stats)
      else (t.get? i).map fun v =>
        { v with children := v.children ++ if i = parent then [t.size] else [] } := by
  simp only [push?, Option.map_eq_some_iff] at h
  obtain ⟨above, habove, rfl⟩ := h
  refine ⟨above, habove, fun i => ?_⟩
  have hparent : parent ≠ t.nodes.size := Nat.ne_of_lt (lt_size_of_get? habove)
  simp only [get?, size] at habove ⊢
  rw [Array.getElem?_modify, Array.getElem?_push]
  by_cases hsize : i = t.nodes.size
  · simp [hsize, hparent]
  · by_cases hi : parent = i
    · subst hi
      simp [hsize, habove]
    · simp [hsize, hi, Ne.symm hi]

/-- The links of a tree are in step: only the root has no parent, a parent comes before its
children, and it lists just them, in order. -/
structure Linked (t : VdevTree) : Prop where
  root : ∀ {v : Vdev}, t.get? 0 = some v → v.parent = none
  parent : ∀ {i : Nat} {v : Vdev}, t.get? i = some v → i ≠ 0 → ∃ p < i, v.parent = some p
  children : ∀ {p : Nat} {above : Vdev}, t.get? p = some above →
    ∀ i, i ∈ above.children ↔ ∃ v, t.get? i = some v ∧ v.parent = some p
  sorted : ∀ {p : Nat} {above : Vdev}, t.get? p = some above → above.children.Pairwise (· < ·)

theorem linked_single (pool : String) : (single pool state stats).Linked := by
  constructor <;> simp [get?_single]

theorem Linked.parent_lt (l : t.Linked) {i p : Nat} {v : Vdev} (h : t.get? i = some v)
    (hp : v.parent = some p) : p < i := by
  have hi : i ≠ 0 := by
    rintro rfl
    simp [l.root h] at hp
  obtain ⟨q, hq, hvq⟩ := l.parent h hi
  rw [hp, Option.some.injEq] at hvq
  omega

theorem Linked.lt_size_of_mem_children (l : t.Linked) {p i : Nat} {above : Vdev}
    (h : t.get? p = some above) (hi : i ∈ above.children) : i < t.size := by
  obtain ⟨v, hv, -⟩ := (l.children h i).mp hi
  exact lt_size_of_get? hv

/-- A vdev of a tree with a child more is that child, or an old vdev with perhaps a child more. -/
theorem eq_of_get?_push? (h : t.push? parent label kind state stats = some u) {i : Nat} {w : Vdev}
    (hw : u.get? i = some w) :
    (i = t.size ∧ w.parent = some parent ∧ w.children = []) ∨
    ∃ v, t.get? i = some v ∧
      w = { v with children := v.children ++ if i = parent then [t.size] else [] } := by
  obtain ⟨above, -, hget⟩ := get?_push? h
  rw [hget] at hw
  by_cases hi : i = t.size
  · rw [if_pos hi, Option.some.injEq] at hw
    subst hw
    exact .inl ⟨hi, rfl, rfl⟩
  · rw [if_neg hi, Option.map_eq_some_iff] at hw
    obtain ⟨v, hv, rfl⟩ := hw
    exact .inr ⟨v, hv, rfl⟩

/-- The children of a vdev after an addition are the new one, if it is the parent, and those that it
had. -/
theorem exists_parent_push?_iff (h : t.push? parent label kind state stats = some u) (p i : Nat) :
    (∃ v, u.get? i = some v ∧ v.parent = some p) ↔
      (i = t.size ∧ p = parent) ∨ ∃ v, t.get? i = some v ∧ v.parent = some p := by
  obtain ⟨above, -, hget⟩ := get?_push? h
  rw [hget]
  by_cases hi : i = t.size
  · have hnone : t.get? i = none := get?_eq_none_iff.mpr (by omega)
    simp [hi, hi ▸ hnone, newChild, eq_comm]
  · simp [hi]

theorem Linked.push? (l : t.Linked) (h : t.push? parent label kind state stats = some u) :
    u.Linked := by
  obtain ⟨above, habove, -⟩ := get?_push? h
  have hparent := lt_size_of_get? habove
  constructor
  case root =>
    intro w hw
    obtain ⟨hi, -⟩ | ⟨v, hv, rfl⟩ := eq_of_get?_push? h hw
    · omega
    · change v.parent = none
      exact l.root hv
  case parent =>
    intro i w hw hi
    obtain ⟨rfl, hw, -⟩ | ⟨v, hv, rfl⟩ := eq_of_get?_push? h hw
    · exact ⟨parent, hparent, hw⟩
    · change ∃ p < i, v.parent = some p
      exact l.parent hv hi
  case children =>
    intro p w hw i
    rw [exists_parent_push?_iff h]
    obtain ⟨rfl, -, hnone⟩ | ⟨v, hv, rfl⟩ := eq_of_get?_push? h hw
    · rw [hnone]
      constructor
      · simp
      · rintro (⟨-, hp⟩ | ⟨v, hv, hvp⟩)
        · omega
        · have := l.parent_lt hv hvp
          have := lt_size_of_get? hv
          omega
    · rw [List.mem_append, l.children hv i, or_comm]
      split <;> simp_all
  case sorted =>
    intro p w hw
    obtain ⟨rfl, -, hnone⟩ | ⟨v, hv, rfl⟩ := eq_of_get?_push? h hw
    · rw [hnone]
      exact List.Pairwise.nil
    · refine List.pairwise_append.mpr ⟨l.sorted hv, by split <;> simp, fun i hi j hj => ?_⟩
      have := l.lt_size_of_mem_children hv hi
      split at hj <;> simp_all

theorem Linked.refigure (l : t.Linked) (figures : Vdev → VdevStats) :
    (t.map fun v => { v with stats := figures v }).Linked := by
  constructor <;> simp only [get?_map, Option.map_eq_some_iff]
  case root =>
    rintro _ ⟨v, hv, rfl⟩
    exact (l.root hv :)
  case parent =>
    rintro i _ ⟨v, hv, rfl⟩ hi
    exact (l.parent hv hi :)
  case children =>
    rintro p _ ⟨v, hv, rfl⟩ i
    rw [l.children hv i]
    simp
  case sorted =>
    rintro p _ ⟨v, hv, rfl⟩
    exact (l.sorted hv :)

theorem Grown.linked {pool : String} (g : t.Grown pool) : t.Linked := by
  induction g with
  | single state stats => exact linked_single pool
  | push _ pushed ih => exact ih.push? pushed
  | refigure figures _ ih => exact ih.refigure figures

end PoolGauge.VdevTree
