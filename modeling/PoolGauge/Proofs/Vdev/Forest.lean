import PoolGauge.Proofs.Vdev.Arena

/-!
# Forests of vdevs

A vdev tree as it is drawn: vdevs side by side, each with the vdevs below it. Numbering the vdevs in
pre-order turns a forest into entries with links, which is how the tree keeps them. A tree that gets
the vdevs of a forest one by one, each below its parent, ends up with these entries.
-/
namespace PoolGauge

/-- Vdevs side by side, each with those below it. -/
inductive Forest (α : Type) where
  | nil
  | cons (vdev : α) (below beside : Forest α)
deriving DecidableEq, Repr

/-- What a vdev is apart from its name and its links. -/
structure VdevEntry where
  label : String
  kind : VdevKind
  state : VdevState
  stats : VdevStats
deriving DecidableEq, Repr

structure Placed extends VdevEntry where
  parent : Option Nat
  children : List Nat
deriving DecidableEq, Repr

def Placed.addChildren (indices : List Nat) (p : Placed) : Placed :=
  { p with children := p.children ++ indices }

def Vdev.entry (v : Vdev) : VdevEntry :=
  ⟨v.label, v.kind, v.state, v.stats⟩

/-- The vdev but for its name. -/
def Vdev.placed (v : Vdev) : Placed :=
  ⟨v.entry, v.parent, v.children⟩

def VdevTree.placed (t : VdevTree) : List Placed :=
  t.toList.map Vdev.placed

namespace Forest

variable {α β : Type}

def size : Forest α → Nat
  | nil => 0
  | cons _ below beside => below.size + 1 + beside.size

def map (f : α → β) : Forest α → Forest β
  | nil => nil
  | cons v below beside => cons (f v) (below.map f) (beside.map f)

def append : Forest α → Forest α → Forest α
  | nil, other => other
  | cons v below beside, other => cons v below (beside.append other)

/-- The vdevs in pre-order, each with its level; the topmost are on a given one. -/
def levels (level : Nat) : Forest α → List (Nat × α)
  | nil => []
  | cons v below beside => (level, v) :: (below.levels (level + 1) ++ beside.levels level)

/-- The indices of the topmost vdevs if all are numbered in pre-order from a first index on. -/
def roots (first : Nat) : Forest α → List Nat
  | nil => []
  | cons _ below beside => first :: beside.roots (first + 1 + below.size)

/-- The entries with their links if they are numbered in pre-order from a first index on and the
topmost are put below a parent. -/
def place (parent : Option Nat) (first : Nat) : Forest VdevEntry → List Placed
  | nil => []
  | cons e below beside =>
    ⟨e, parent, below.roots (first + 1)⟩ ::
      (below.place (some first) (first + 1) ++ beside.place parent (first + 1 + below.size))

theorem map_map {γ : Type} (g : β → γ) (f : α → β) (forest : Forest α) :
    (forest.map f).map g = forest.map fun v => g (f v) := by
  induction forest with
  | nil => rfl
  | cons v below beside ihbelow ihbeside => simp [map, ihbelow, ihbeside]

@[simp] theorem length_place (parent : Option Nat) (first : Nat) (forest : Forest VdevEntry) :
    (forest.place parent first).length = forest.size := by
  induction forest generalizing parent first with
  | nil => rfl
  | cons e below beside ihbelow ihbeside =>
    simp only [place, size, List.length_cons, List.length_append, ihbelow, ihbeside]
    omega

theorem levels_map (f : α → β) (level : Nat) (forest : Forest α) :
    (forest.map f).levels level = (forest.levels level).map (Prod.map id f) := by
  induction forest generalizing level with
  | nil => rfl
  | cons v below beside ihbelow ihbeside => simp [map, levels, ihbelow, ihbeside]

theorem roots_append (first : Nat) (f g : Forest α) :
    (f.append g).roots first = f.roots first ++ g.roots (first + f.size) := by
  induction f generalizing first with
  | nil => rfl
  | cons v below beside _ ih =>
    simp only [append, roots, ih, size, List.cons_append]
    congr 3
    omega

theorem place_append (parent : Option Nat) (first : Nat) (f g : Forest VdevEntry) :
    (f.append g).place parent first =
      f.place parent first ++ g.place parent (first + f.size) := by
  induction f generalizing first with
  | nil => rfl
  | cons e below beside _ ih =>
    simp only [append, place, ih, size, List.cons_append, List.append_assoc]
    congr 4
    omega

end Forest

section Modify

variable {α : Type} (f : α → α) (a : List α) (x : α) (b : List α)

theorem modify_append_of_lt {i : Nat} (h : i < a.length) :
    (a ++ b).modify i f = a.modify i f ++ b := by
  induction a generalizing i with
  | nil => contradiction
  | cons y a ih =>
    cases i with
    | zero => rfl
    | succ i => simp [ih (Nat.lt_of_succ_lt_succ h)]

theorem modify_append_length : (a ++ x :: b).modify a.length f = a ++ f x :: b := by
  induction a with
  | nil => rfl
  | cons y a ih => simp [ih]

end Modify

theorem Placed.addChildren_addChildren (m n : List Nat) (p : Placed) :
    (p.addChildren m).addChildren n = p.addChildren (m ++ n) := by
  simp [addChildren]

namespace VdevTree

variable {t u w : VdevTree} {parent : Nat} {e : VdevEntry} {f g : Forest VdevEntry}

@[simp] theorem length_placed (t : VdevTree) : t.placed.length = t.size := by
  simp [placed, toList, size]

theorem placed_getElem? (t : VdevTree) (i : Nat) : t.placed[i]? = (t.get? i).map Vdev.placed := by
  simp [placed, toList, get?]

/-- What is new after the vdevs of a forest were put below a vdev: their entries at the end, and
the topmost among the children of that vdev. -/
def GrownBy (t u : VdevTree) (parent : Nat) (f : Forest VdevEntry) : Prop :=
  u.placed = t.placed.modify parent (Placed.addChildren (f.roots t.size)) ++
    f.place (some parent) t.size

theorem GrownBy.size (h : t.GrownBy u parent f) : u.size = t.size + f.size := by
  rw [← length_placed, h]
  simp

theorem grownBy_nil (t : VdevTree) (parent : Nat) : t.GrownBy t parent .nil := by
  have hsame : Placed.addChildren [] = id := by
    funext p
    simp [Placed.addChildren]
  simp [GrownBy, Forest.roots, Forest.place, hsame]

theorem grownBy_push? (h : t.push? parent e.label e.kind e.state e.stats = some u) :
    t.GrownBy u parent (.cons e .nil .nil) := by
  obtain ⟨above, -, hget⟩ := get?_push? h
  refine List.ext_getElem? fun i => ?_
  rw [placed_getElem?, hget, List.getElem?_append, List.length_modify, length_placed]
  by_cases hi : i < t.size
  · rw [if_neg (by omega), if_pos hi, List.getElem?_modify, placed_getElem?]
    cases hv : t.get? i with
    | none => rfl
    | some v =>
      by_cases hparent : i = parent <;>
        simp [hparent, eq_comm (a := parent), Vdev.placed, Vdev.entry, Placed.addChildren,
          Forest.roots]
  · by_cases hlast : i = t.size
    · subst hlast
      simp [Forest.place, Forest.roots, newChild, Vdev.placed, Vdev.entry]
    · rw [if_neg hlast, if_neg hi, get?_eq_none_iff.mpr (by omega), List.getElem?_eq_none]
      · rfl
      · simp [Forest.place]
        omega

/-- A vdev, then the forest below it, then the forest beside it. -/
theorem grownBy_cons {below beside : Forest VdevEntry} {v : VdevTree} (hparent : parent < t.size)
    (hpush : t.GrownBy u parent (.cons e .nil .nil)) (hbelow : u.GrownBy v t.size below)
    (hbeside : v.GrownBy w parent beside) : t.GrownBy w parent (.cons e below beside) := by
  have husize : u.size = t.size + 1 := hpush.size
  have hvsize : v.size = t.size + 1 + below.size := by rw [hbelow.size, husize]
  have hu : u.placed = t.placed.modify parent (Placed.addChildren [t.size]) ++
      [⟨e, some parent, []⟩] := hpush
  have hv : v.placed = t.placed.modify parent (Placed.addChildren [t.size]) ++
      ⟨e, some parent, below.roots (t.size + 1)⟩ :: below.place (some t.size) (t.size + 1) := by
    have hmodify := modify_append_length (Placed.addChildren (below.roots (t.size + 1)))
      (t.placed.modify parent (Placed.addChildren [t.size])) ⟨e, some parent, []⟩ []
    rw [List.length_modify, length_placed] at hmodify
    rw [hbelow, husize, hu, hmodify]
    simp [Placed.addChildren]
  rw [GrownBy, hbeside, hvsize, hv, modify_append_of_lt _ _ _ (by simpa using hparent),
    List.modify_modify_eq, List.append_assoc]
  have hroots : Placed.addChildren (beside.roots (t.size + 1 + below.size)) ∘
      Placed.addChildren [t.size] =
        Placed.addChildren ((Forest.cons e below beside).roots t.size) := by
    funext p
    exact Placed.addChildren_addChildren ..
  rw [hroots]
  rfl

theorem GrownBy.append (h : t.GrownBy u parent f) (hparent : parent < t.size)
    (h' : u.GrownBy w parent g) : t.GrownBy w parent (f.append g) := by
  rw [GrownBy, h', h.size, h, modify_append_of_lt _ _ _ (by simpa using hparent),
    List.modify_modify_eq, Forest.roots_append, Forest.place_append, List.append_assoc]
  congr 2
  funext p
  exact Placed.addChildren_addChildren ..

/-- A root that got a forest is laid out like the forest with the root above it. -/
theorem placed_of_grownBy_single {pool : String} {state : VdevState} {stats : VdevStats}
    (h : (single pool state stats).GrownBy u 0 f) :
    u.placed = (Forest.cons ⟨pool, .root, state, stats⟩ f .nil).place none 0 := by
  rw [h, size_single]
  simp [placed, single, toList, Vdev.placed, Vdev.entry, Placed.addChildren, Forest.place]

/-- A walk through the subtrees at some indices, depth first and each vdev before its children,
visits the vdevs with these indices in this order. -/
inductive Walk (t : VdevTree) : List Nat → List Nat → Prop
  | nil : Walk t [] []
  | cons {i : Nat} {v : Vdev} {rest inside outside : List Nat} (found : t.get? i = some v)
      (below : Walk t v.children inside) (beside : Walk t rest outside) :
      Walk t (i :: rest) (i :: (inside ++ outside))

/-- A forest that is part of a tree is walked through from its first index to its last. -/
theorem walk_of_placed {before after : List Placed} {p : Option Nat} {first : Nat}
    (h : t.placed = before ++ (f.place p first ++ after)) (hfirst : before.length = first) :
    t.Walk (f.roots first) (List.range' first f.size) := by
  induction f generalizing before after p first with
  | nil => exact .nil
  | cons e below beside ihbelow ihbeside =>
    let node : Placed := ⟨e, p, below.roots (first + 1)⟩
    have hcons : t.placed = (before ++ [node]) ++ (below.place (some first) (first + 1) ++
        (beside.place p (first + 1 + below.size) ++ after)) := by
      simp [h, node, Forest.place]
    have hnext : (before ++ [node]).length = first + 1 := by simp [hfirst]
    obtain ⟨v, hv, hnode⟩ : ∃ v, t.get? first = some v ∧ v.placed = node := by
      rw [← Option.map_eq_some_iff, ← placed_getElem?, hcons, ← hfirst]
      simp
    have hbelow := ihbelow hcons hnext
    rw [← List.append_assoc] at hcons
    have hbeside := ihbeside hcons (by rw [List.length_append, hnext, Forest.length_place])
    rw [← show v.children = below.roots (first + 1) from congrArg Placed.children hnode] at hbelow
    have hwalk := Walk.cons hv hbelow hbeside
    rw [List.range'_append_1] at hwalk
    have hsize : (Forest.cons e below beside).size = below.size + beside.size + 1 := by
      rw [Forest.size]
      omega
    rw [hsize, List.range'_succ]
    exact hwalk

theorem walk_of_placed_root (h : t.placed = (Forest.cons e f .nil).place none 0) :
    t.Walk [0] (List.range t.size) := by
  have hpart : t.placed = [] ++ ((Forest.cons e f .nil).place none 0 ++ []) := by
    rw [h, List.append_nil, List.nil_append]
  have hwalk := walk_of_placed hpart List.length_nil
  rw [← Forest.length_place none 0, ← h, length_placed, ← List.range_eq_range'] at hwalk
  exact hwalk

end VdevTree

end PoolGauge
