import Mathlib.Data.List.TakeWhile
import PoolGauge.Proofs.Vdev.Arena

/-!
# Names of vdevs

A child is called after the last component of its label, below its parent's name. Names of that
plain form never clash. A label whose plain name is taken by a sibling gets a longer name, and
only such a name can be one that another vdev has.
-/
namespace PoolGauge

theorem takeWhile_ne_slash {x : List Char} (h : '/' ∉ x) (y : List Char) :
    (x ++ '/' :: y).takeWhile (· != '/') = x := by
  have hx : ∀ c ∈ x, (c != '/') = true := by
    intro c hc
    rw [bne_iff_ne]
    rintro rfl
    exact h hc
  rw [List.takeWhile_append_of_pos hx]
  simp

/-- Where two texts are equal, so are their parts before and after the first slash. -/
theorem append_slash_inj {x₁ x₂ y₁ y₂ : List Char} (h₁ : '/' ∉ x₁) (h₂ : '/' ∉ x₂)
    (h : x₁ ++ '/' :: y₁ = x₂ ++ '/' :: y₂) : x₁ = x₂ ∧ y₁ = y₂ := by
  have hx : x₁ = x₂ := by
    rw [← takeWhile_ne_slash h₁ y₁, h, takeWhile_ne_slash h₂]
  subst hx
  exact ⟨rfl, by simpa using h⟩

theorem slash_notMem_baseName (label : String) : '/' ∉ (baseName label).toList := by
  intro h
  simp only [baseName, String.toList_ofList, List.mem_reverse] at h
  simpa using List.mem_takeWhile_imp h

/-- The whole label is at least as long as its last component. -/
theorem length_baseName_le (label : String) :
    (baseName label).toList.length ≤ (relativeLabel label).toList.length := by
  have hcut : label.toList.reverse = (relativeLabel label).toList.reverse ++
      (label.toList.takeWhile (· == '/')).reverse := by
    rw [← List.reverse_append, relativeLabel, String.toList_ofList,
      List.takeWhile_append_dropWhile]
  have hslash : (label.toList.takeWhile (· == '/')).reverse.takeWhile (· != '/') = [] := by
    rw [List.takeWhile_eq_nil_iff]
    intro h
    have := List.mem_takeWhile_imp (List.mem_reverse.mp (List.get_mem _ ⟨0, h⟩))
    simpa using this
  rw [baseName, String.toList_ofList, hcut, List.takeWhile_append, hslash, List.length_reverse]
  split
  · simp
  · rw [← @List.length_reverse _ (relativeLabel label).toList]
    exact (List.takeWhile_prefix _).length_le

/-- The name of a child of the plain form: the last component of its label below its parent. -/
def plainName (parent label : String) : String :=
  parent ++ "/" ++ baseName label

theorem plainName_inj {p q l m : String} (h : plainName p l = plainName q m) :
    p = q ∧ baseName l = baseName m := by
  have hlist : p.toList ++ '/' :: (baseName l).toList = q.toList ++ '/' :: (baseName m).toList := by
    simpa [plainName] using congrArg String.toList h
  have hreverse : (baseName l).toList.reverse ++ '/' :: p.toList.reverse =
      (baseName m).toList.reverse ++ '/' :: q.toList.reverse := by
    simpa using congrArg List.reverse hlist
  obtain ⟨hbase, hparent⟩ := append_slash_inj (by simpa using slash_notMem_baseName l)
    (by simpa using slash_notMem_baseName m) hreverse
  exact ⟨String.toList_inj.mp (List.reverse_injective hparent),
    String.toList_inj.mp (List.reverse_injective hbase)⟩

theorem exists_childName_eq (parent : String) (siblings : List String) (label : String)
    (index : Nat) : ∃ rest, childName parent siblings label index = parent ++ "/" ++ rest := by
  simp only [childName]
  split
  · exact ⟨_, rfl⟩
  · split
    · exact ⟨_, rfl⟩
    · exact ⟨relativeLabel label ++ "#" ++ index.repr, by simp [String.append_assoc]⟩

/-- A child has the plain name just when no sibling has it already. -/
theorem childName_eq_plainName_iff {parent : String} {siblings : List String} {label : String}
    {index : Nat} :
    childName parent siblings label index = plainName parent label ↔
      plainName parent label ∉ siblings := by
  change (if plainName parent label ∉ siblings then plainName parent label
    else if parent ++ "/" ++ relativeLabel label ∉ siblings then
      parent ++ "/" ++ relativeLabel label
    else parent ++ "/" ++ relativeLabel label ++ "#" ++ index.repr) = _ ↔ _
  by_cases hplain : plainName parent label ∈ siblings
  · rw [if_neg (not_not.mpr hplain), iff_false_right (not_not.mpr hplain)]
    split
    · rename_i hfull
      exact fun h => hfull (h ▸ hplain)
    · intro h
      have hlength := congrArg (fun s : String => s.toList.length) h
      have := length_baseName_le label
      simp [plainName] at hlength
      omega
  · simp [hplain]

/-- The name of a child by its whole label. -/
def longName (parent label : String) : String :=
  parent ++ "/" ++ relativeLabel label

theorem childName_of_mem {parent : String} {siblings : List String} {label : String} {index : Nat}
    (h : plainName parent label ∈ siblings) :
    childName parent siblings label index =
      if longName parent label ∈ siblings then longName parent label ++ "#" ++ index.repr
      else longName parent label := by
  change (if plainName parent label ∉ siblings then _ else
    if longName parent label ∉ siblings then _ else _) = _
  rw [if_neg (not_not.mpr h), ite_not]
  rfl

namespace VdevTree

/-- The name is that of a child that came before an index. -/
def ElderName (t : VdevTree) (p i : Nat) (name : String) : Prop :=
  ∃ j < i, ∃ w, t.get? j = some w ∧ w.parent = some p ∧ w.name = name

/-- Every vdev has the name that it got when it was added: the root that of the pool, a child one
chosen against the names of its elder siblings. -/
structure Named (pool : String) (t : VdevTree) : Prop where
  root : ∀ {v : Vdev}, t.get? 0 = some v → v.name = pool
  child : ∀ {i p : Nat} {v above : Vdev}, t.get? i = some v → v.parent = some p →
    t.get? p = some above → ∃ siblings, (∀ name, name ∈ siblings ↔ t.ElderName p i name) ∧
      v.name = childName above.name siblings v.label i

variable {pool : String} {t u : VdevTree}

theorem named_single (state : VdevState) (stats : VdevStats) :
    (single pool state stats).Named pool := by
  constructor
  case root => simp [get?_single]
  case child =>
    intro i p v above hv hp
    simp only [get?_single, Option.ite_none_right_eq_some, Option.some.injEq] at hv
    obtain ⟨-, rfl⟩ := hv
    contradiction

theorem mem_childNames_iff (l : t.Linked) {p : Nat} {above : Vdev} (h : t.get? p = some above)
    (name : String) : name ∈ t.childNames above ↔ t.ElderName p t.size name := by
  simp only [childNames, List.mem_filterMap, Option.map_eq_some_iff, l.children h]
  constructor
  · rintro ⟨i, ⟨v, hv, hp⟩, w, hw, rfl⟩
    exact ⟨i, lt_size_of_get? hv, w, hw, by grind, rfl⟩
  · rintro ⟨j, -, w, hw, hp, rfl⟩
    exact ⟨j, ⟨w, hw, hp⟩, w, hw, rfl⟩

theorem Named.push? {parent : Nat} {label : String} {kind : VdevKind} {state : VdevState}
    {stats : VdevStats} (l : t.Linked) (n : t.Named pool)
    (h : t.push? parent label kind state stats = some u) : u.Named pool := by
  obtain ⟨above, habove, hget⟩ := get?_push? h
  have hparent := lt_size_of_get? habove
  -- vdevs that were there keep their names, labels and parents
  have helder : ∀ {p i : Nat}, i ≤ t.size →
      ∀ name, u.ElderName p i name ↔ t.ElderName p i name := by
    intro p i hi name
    refine exists_congr fun j => and_congr_right fun hj => ?_
    rw [hget, if_neg (by omega)]
    simp
  constructor
  case root =>
    intro v hv
    rw [hget, if_neg (by omega), Option.map_eq_some_iff] at hv
    obtain ⟨v, hv, rfl⟩ := hv
    exact (n.root hv :)
  case child =>
    intro i p w v hw hp hv
    rw [hget] at hw hv
    by_cases hi : i = t.size
    · -- the new child, whose siblings are those that its parent lists
      subst hi
      rw [if_pos rfl, Option.some.injEq] at hw
      subst hw
      obtain rfl : parent = p := by simpa [newChild] using hp
      rw [if_neg hparent.ne, habove, Option.map_some, Option.some.injEq] at hv
      subst hv
      refine ⟨t.childNames above, fun name => ?_, rfl⟩
      rw [helder le_rfl]
      exact mem_childNames_iff l habove name
    · rw [if_neg hi, Option.map_eq_some_iff] at hw
      obtain ⟨w, hw, rfl⟩ := hw
      have hwt := lt_size_of_get? hw
      have hpi : p < i := l.parent_lt hw hp
      rw [if_neg (by omega), Option.map_eq_some_iff] at hv
      obtain ⟨v, hv, rfl⟩ := hv
      obtain ⟨siblings, hsiblings, hname⟩ := n.child hw hp hv
      exact ⟨siblings, fun name => by rw [hsiblings, helder (by omega)], hname⟩

theorem Named.refigure (n : t.Named pool) (figures : Vdev → VdevStats) :
    (t.map fun v => { v with stats := figures v }).Named pool := by
  constructor <;> simp only [get?_map, Option.map_eq_some_iff]
  case root =>
    rintro _ ⟨v, hv, rfl⟩
    exact (n.root hv :)
  case child =>
    rintro i p _ _ ⟨w, hw, rfl⟩ hp ⟨v, hv, rfl⟩
    obtain ⟨siblings, hsiblings, hname⟩ := n.child hw hp hv
    exact ⟨siblings, fun name => by simp [hsiblings, ElderName], hname⟩

theorem Grown.named (g : t.Grown pool) : t.Named pool := by
  induction g with
  | single state stats => exact named_single state stats
  | push grown pushed ih => exact ih.push? grown.linked pushed
  | refigure figures _ ih => exact ih.refigure figures

/-- Every vdev but the root has a parent in the tree, and a name below the parent's. -/
theorem Grown.exists_parent (g : t.Grown pool) {i : Nat} {v : Vdev} (h : t.get? i = some v)
    (hi : i ≠ 0) : ∃ p < i, ∃ above, v.parent = some p ∧ t.get? p = some above ∧
      ∃ rest, v.name = above.name ++ "/" ++ rest := by
  obtain ⟨p, hp, hparent⟩ := g.linked.parent h hi
  obtain ⟨above, habove⟩ := exists_get? (hp.trans (lt_size_of_get? h))
  obtain ⟨siblings, -, hname⟩ := g.named.child h hparent habove
  obtain ⟨rest, hrest⟩ := exists_childName_eq above.name siblings v.label i
  exact ⟨p, hp, above, hparent, habove, rest, hname.trans hrest⟩

/-- Every name is that of the pool or stands below it. -/
theorem Grown.name_eq (g : t.Grown pool) {i : Nat} {v : Vdev} (h : t.get? i = some v) :
    (i = 0 ∧ v.name = pool) ∨ (i ≠ 0 ∧ ∃ rest, v.name = pool ++ "/" ++ rest) := by
  induction i using Nat.strong_induction_on generalizing v with
  | _ i ih =>
    by_cases hi : i = 0
    · exact .inl ⟨hi, g.named.root (hi ▸ h)⟩
    · obtain ⟨p, hp, above, -, habove, rest, hname⟩ := g.exists_parent h hi
      refine .inr ⟨hi, ?_⟩
      obtain ⟨-, hroot⟩ | ⟨-, middle, hmiddle⟩ := ih p hp habove
      · exact ⟨rest, hroot ▸ hname⟩
      · exact ⟨middle ++ "/" ++ rest, by rw [hname, hmiddle]; simp [String.append_assoc]⟩

theorem Grown.name_eq_pool_iff (g : t.Grown pool) {i : Nat} {v : Vdev} (h : t.get? i = some v) :
    v.name = pool ↔ i = 0 := by
  obtain ⟨hi, hname⟩ | ⟨hi, rest, hname⟩ := g.name_eq h
  · simp [hi, hname]
  · simp only [hi, iff_false, hname]
    intro heq
    have hlength := congrArg (fun s : String => s.toList.length) heq
    simp at hlength

/-- The plain name of the vdev is one that an elder sibling has. -/
def Crowded (t : VdevTree) (i : Nat) : Prop :=
  ∃ v p above, t.get? i = some v ∧ v.parent = some p ∧ t.get? p = some above ∧
    t.ElderName p i (plainName above.name v.label)

/-- The name for a vdev whose plain name is taken: the one by its whole label, followed by its index
if an elder sibling has that one too. -/
def LongerName (t : VdevTree) (i : Nat) (name : String) : Prop :=
  ∃ v p above, t.get? i = some v ∧ v.parent = some p ∧ t.get? p = some above ∧
    (t.ElderName p i (longName above.name v.label) ∧
        name = longName above.name v.label ++ "#" ++ i.repr ∨
      ¬ t.ElderName p i (longName above.name v.label) ∧ name = longName above.name v.label)

/-- No vdev has the longer name of a crowded one. -/
def CrowdedApart (t : VdevTree) : Prop :=
  ∀ {i j : Nat} {name : String} {w : Vdev}, t.Crowded i → t.LongerName i name →
    t.get? j = some w → w.name = name → i = j

/-- No two children of one vdev have labels with the same last component. -/
def SiblingsApart (t : VdevTree) : Prop :=
  ∀ {i j : Nat} {v w : Vdev}, t.get? i = some v → t.get? j = some w → v.parent = w.parent →
    baseName v.label = baseName w.label → i = j

theorem names_nodup_iff_get? : t.names.Nodup ↔ ∀ {i j : Nat} {v w : Vdev},
    t.get? i = some v → t.get? j = some w → v.name = w.name → i = j := by
  constructor
  · intro hnodup i j v w hv hw hname
    have hi : t.names[i]? = t.names[j]? := by simp [names_getElem?, hv, hw, hname]
    have hlt : i < t.names.length := by simpa [names, toList, size] using lt_size_of_get? hv
    exact (List.getElem?_inj hlt hnodup).mp hi
  · intro hinj
    rw [List.nodup_iff_getElem?_ne_getElem?]
    intro i j hij hj heq
    rw [List.getElem?_eq_getElem hj] at heq
    obtain ⟨v, hv, hname⟩ := Option.map_eq_some_iff.mp ((names_getElem? i).symm.trans heq)
    obtain ⟨w, hw, hname'⟩ := Option.map_eq_some_iff.mp
      ((names_getElem? j).symm.trans (List.getElem?_eq_getElem hj))
    have := hinj hv hw (hname.trans hname'.symm)
    omega

theorem Grown.name_eq_plainName (g : t.Grown pool) {i p : Nat} {v above : Vdev}
    (h : t.get? i = some v) (hp : v.parent = some p) (habove : t.get? p = some above)
    (hi : ¬ t.Crowded i) : v.name = plainName above.name v.label := by
  obtain ⟨siblings, hsiblings, hname⟩ := g.named.child h hp habove
  rw [hname, childName_eq_plainName_iff, hsiblings]
  exact fun helder => hi ⟨v, p, above, h, hp, habove, helder⟩

/-- A crowded vdev has its longer name and no other. -/
theorem Grown.longerName_iff (g : t.Grown pool) {i : Nat} {v : Vdev} (h : t.get? i = some v)
    (hi : t.Crowded i) (name : String) : t.LongerName i name ↔ v.name = name := by
  obtain ⟨v, p, above, hv, hp, habove, helder⟩ := hi
  obtain rfl := Option.some.inj (hv.symm.trans h)
  obtain ⟨siblings, hsiblings, hname⟩ := g.named.child hv hp habove
  rw [childName_of_mem ((hsiblings _).mpr helder)] at hname
  have hlonger : t.LongerName i name ↔
      t.ElderName p i (longName above.name v.label) ∧
          name = longName above.name v.label ++ "#" ++ i.repr ∨
        ¬ t.ElderName p i (longName above.name v.label) ∧ name = longName above.name v.label := by
    simp [LongerName, hv, hp, habove]
  rw [hlonger, hname]
  by_cases hlong : t.ElderName p i (longName above.name v.label)
  · simp [hlong, (hsiblings _).mpr hlong, eq_comm]
  · simp [hlong, mt (hsiblings _).mp hlong, eq_comm]

/-- Names are pairwise distinct exactly if no vdev has the longer name of a crowded one. -/
theorem Grown.names_nodup_iff (g : t.Grown pool) : t.names.Nodup ↔ t.CrowdedApart := by
  rw [names_nodup_iff_get?]
  constructor
  · intro hinj i j name w hcrowded hlonger hw hname
    obtain ⟨v, -, -, hv, -⟩ := id hcrowded
    have hvname := (g.longerName_iff hv hcrowded name).mp hlonger
    exact hinj hv hw (hvname.trans hname.symm)
  · intro happart i
    -- plain names are equal only below equal parents' names, and parents come earlier
    induction i using Nat.strong_induction_on with
    | _ i ih =>
      intro j v w hv hw hname
      by_cases hcrowded : t.Crowded i
      · exact happart hcrowded ((g.longerName_iff hv hcrowded _).mpr rfl) hw hname.symm
      by_cases hcrowded' : t.Crowded j
      · exact (happart hcrowded' ((g.longerName_iff hw hcrowded' _).mpr rfl) hv hname).symm
      by_cases hi : i = 0
      · rw [(g.name_eq_pool_iff hv).mpr hi, eq_comm, g.name_eq_pool_iff hw] at hname
        omega
      · have hj : j ≠ 0 := by
          rintro rfl
          exact hi ((g.name_eq_pool_iff hv).mp (hname.trans (g.named.root hw)))
        obtain ⟨p, hp, above, hvp, habove, -⟩ := g.exists_parent hv hi
        obtain ⟨q, -, below, hwq, hbelow, -⟩ := g.exists_parent hw hj
        have hplain := g.name_eq_plainName hv hvp habove hcrowded
        have hplain' := g.name_eq_plainName hw hwq hbelow hcrowded'
        obtain ⟨hparents, -⟩ := plainName_inj (hplain.symm.trans (hname.trans hplain'))
        obtain rfl : p = q := ih p hp habove hbelow hparents
        obtain rfl : above = below := Option.some.inj (habove.symm.trans hbelow)
        rcases Nat.lt_trichotomy i j with hlt | heq | hlt
        · exact absurd ⟨w, p, above, hw, hwq, hbelow, i, hlt, v, hv, hvp,
            hname.trans hplain'⟩ hcrowded'
        · exact heq
        · exact absurd ⟨v, p, above, hv, hvp, habove, j, hlt, w, hw, hwq,
            hname.symm.trans hplain⟩ hcrowded

/-- Nothing is crowded where the labels of siblings have different last components. -/
theorem Grown.not_crowded (g : t.Grown pool) (h : t.SiblingsApart) (i : Nat) : ¬ t.Crowded i := by
  induction i using Nat.strong_induction_on with
  | _ i ih =>
    rintro ⟨v, p, above, hv, hp, habove, j, hj, w, hw, hwp, hname⟩
    rw [g.name_eq_plainName hw hwp habove (ih j hj)] at hname
    have := h hw hv (hwp.trans hp.symm) (plainName_inj hname).2
    omega

end VdevTree

end PoolGauge
