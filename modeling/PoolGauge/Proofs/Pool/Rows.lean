import Mathlib.Data.List.Sort
import PoolGauge.Proofs.Pool.Topology

/-!
# The rows of a status table and the tree

The path of a table leads to the nearest row above on each level. So a row below the root's level
is put below the nearest row above it that is one level further left, and the rows between two
sections stay in the branch of the first.
-/
namespace PoolGauge

/-- A row stands on a level and is the nearest such row above another one. -/
structure NearestAbove (depths : List Nat) (level i p : Nat) : Prop where
  above : p < i
  onLevel : depths[p]? = some level
  nearest : ∀ j, p < j → j < i → depths[j]? ≠ some level

namespace NearestAbove

variable {depths : List Nat} {level i p q : Nat}

theorem append (h : NearestAbove depths level i p) (hi : i ≤ depths.length) (more : List Nat) :
    NearestAbove (depths ++ more) level i p where
  above := h.above
  onLevel := by
    have := h.above
    rw [List.getElem?_append_left (by omega), h.onLevel]
  nearest j hp hj := by
    rw [List.getElem?_append_left (by omega)]
    exact h.nearest j hp hj

/-- The nearest row stays the nearest until a row on its level comes. -/
theorem push (h : NearestAbove depths level depths.length p) {depth : Nat}
    (hdepth : depth ≠ level) :
    NearestAbove (depths ++ [depth]) level (depths ++ [depth]).length p where
  above := by have := h.above; simp; omega
  onLevel := (h.append (Nat.le_refl _) _).onLevel
  nearest j hp hj := by
    rw [List.length_append, List.length_singleton] at hj
    by_cases hlast : j = depths.length
    · simp [hlast, hdepth]
    · exact (h.append (Nat.le_refl _) _).nearest j hp (by omega)

theorem last (depths : List Nat) (depth : Nat) :
    NearestAbove (depths ++ [depth]) depth (depths ++ [depth]).length depths.length where
  above := by simp
  onLevel := by simp
  nearest j hp hj := by simp at hj; omega

theorem le_of_level (h : NearestAbove depths level i p) (hq : depths[q]? = some level)
    (hi : q < i) : q ≤ p :=
  Nat.le_of_not_lt fun hpq => h.nearest q hpq hi hq

end NearestAbove

namespace VdevTree

/-- The tree has one vdev for each row of a table, in their order. The first row is the root's; a
later one on its level is a section below the root; any other is below the nearest row above it
that is one level further left. -/
structure Follows (t : VdevTree) (pool : String) (rows : List StatusRow) : Prop where
  size : t.size = rows.length
  root : ∃ row, rows[0]? = some row ∧ row.depth = 0 ∧ row.label = pool ∧
    ∃ v, t.get? 0 = some v ∧ v.entry = ⟨pool, .root, row.health, row.errors⟩ ∧ v.parent = none
  opened : ∀ {i : Nat} {row : StatusRow}, rows[i]? = some row → i ≠ 0 → row.depth = 0 →
    ∃ v kind, t.get? i = some v ∧ VdevKind.ofSection? row.label = some kind ∧
      v.entry = row.sectionEntry kind t.root.state ∧ v.parent = some 0
  nested : ∀ {i above : Nat} {row : StatusRow}, rows[i]? = some row → row.depth = above + 1 →
    ∃ v p, t.get? i = some v ∧ v.entry = row.entry ∧ v.parent = some p ∧
      NearestAbove (rows.map StatusRow.depth) above i p

variable {t u : VdevTree} {pool : String} {rows : List StatusRow}

theorem follows_single {row : StatusRow} (hdepth : row.depth = 0) :
    (single row.label row.health row.errors).Follows row.label [row] where
  size := rfl
  root := ⟨row, rfl, hdepth, rfl, _, rfl, rfl, rfl⟩
  opened := by
    intro i other hi hne
    rw [List.getElem?_singleton, if_neg hne] at hi
    contradiction
  nested := by
    intro i above other hi habove
    rw [List.getElem?_singleton] at hi
    split at hi
    · obtain rfl := Option.some.inj hi
      omega
    · contradiction

/-- Adding a vdev keeps what the others are, and where they hang. -/
theorem get?_push?_of_some {parent i : Nat} {e : VdevEntry} {v : Vdev}
    (h : t.push? parent e.label e.kind e.state e.stats = some u) (hv : t.get? i = some v) :
    ∃ w, u.get? i = some w ∧ w.entry = v.entry ∧ w.parent = v.parent := by
  obtain ⟨above, -, hget⟩ := get?_push? h
  have hi : i ≠ t.size := Nat.ne_of_lt (lt_size_of_get? hv)
  rw [hget, if_neg hi, hv, Option.map_some]
  exact ⟨_, rfl, rfl, rfl⟩

theorem get?_push?_size {parent : Nat} {e : VdevEntry}
    (h : t.push? parent e.label e.kind e.state e.stats = some u) :
    ∃ w, u.get? t.size = some w ∧ w.entry = e ∧ w.parent = some parent := by
  obtain ⟨above, -, hget⟩ := get?_push? h
  rw [hget, if_pos rfl]
  exact ⟨_, rfl, rfl, rfl⟩

/-- A row more, and a vdev more that is put where this row belongs. -/
theorem Follows.push (f : t.Follows pool rows) {row : StatusRow} {parent : Nat} {e : VdevEntry}
    (h : t.push? parent e.label e.kind e.state e.stats = some u)
    (hopened : row.depth = 0 → parent = 0 ∧ ∃ kind, VdevKind.ofSection? row.label = some kind ∧
      e = row.sectionEntry kind t.root.state)
    (hnested : ∀ above, row.depth = above + 1 → e = row.entry ∧
      NearestAbove (rows.map StatusRow.depth) above rows.length parent) :
    u.Follows pool (rows ++ [row]) := by
  have hstate : u.root.state = t.root.state :=
    StatusTable.root_state_of_grownBy (grownBy_push? h)
  obtain ⟨w, hw, hentry, hparent⟩ := get?_push?_size h
  rw [f.size] at hw
  -- a row of the longer table is an old one, or the new one at the end
  have hrow : ∀ {i : Nat} {other : StatusRow}, (rows ++ [row])[i]? = some other →
      (i < rows.length ∧ rows[i]? = some other) ∨ (i = rows.length ∧ row = other) := by
    intro i other hi
    rw [List.getElem?_append] at hi
    split at hi
    · exact .inl ⟨‹_›, hi⟩
    · rw [List.getElem?_singleton] at hi
      split at hi
      · exact .inr ⟨by omega, Option.some.inj hi⟩
      · contradiction
  constructor
  case size => rw [size_push? h, f.size, List.length_append, List.length_singleton]
  case root =>
    obtain ⟨first, hfirst, hdepth, hlabel, v, hv, hroot⟩ := f.root
    obtain ⟨w, hw, hentry, hparent⟩ := get?_push?_of_some h hv
    have hlt : 0 < rows.length := (List.getElem?_eq_some_iff.mp hfirst).1
    exact ⟨first, by rw [List.getElem?_append_left hlt, hfirst], hdepth, hlabel, w, hw,
      hentry.trans hroot.1, hparent.trans hroot.2⟩
  case opened =>
    intro i other hi hne hdepth
    rw [hstate]
    obtain ⟨-, hi⟩ | ⟨rfl, rfl⟩ := hrow hi
    · obtain ⟨v, kind, hv, hkind, hsection, hroot⟩ := f.opened hi hne hdepth
      obtain ⟨w, hw, hentry, hparent⟩ := get?_push?_of_some h hv
      exact ⟨w, kind, hw, hkind, hentry.trans hsection, hparent.trans hroot⟩
    · obtain ⟨rfl, kind, hkind, hsection⟩ := hopened hdepth
      exact ⟨w, kind, hw, hkind, hentry.trans hsection, hparent⟩
  case nested =>
    intro i above other hi hdepth
    rw [List.map_append]
    obtain ⟨hlt, hi⟩ | ⟨rfl, rfl⟩ := hrow hi
    · obtain ⟨v, p, hv, hmember, hp, hnearest⟩ := f.nested hi hdepth
      obtain ⟨w, hw, hentry, hparent⟩ := get?_push?_of_some h hv
      exact ⟨w, p, hw, hentry.trans hmember, hparent.trans hp,
        hnearest.append (by rw [List.length_map]; omega) _⟩
    · obtain ⟨hmember, hnearest⟩ := hnested above hdepth
      exact ⟨w, parent, hw, hentry.trans hmember, hparent,
        hnearest.append (by rw [List.length_map]) _⟩

end VdevTree

namespace StatusTable

variable {t u : StatusTable} {pool : String} {rows : List StatusRow} {row : StatusRow}

/-- The table after some rows: its tree follows them, and its path leads on each level to the
nearest row above the next one. -/
structure After (t : StatusTable) (pool : String) (rows : List StatusRow) : Prop where
  tree : t.tree.Follows pool rows
  path : ∀ {level p : Nat}, t.path[level]? = some p →
    NearestAbove (rows.map StatusRow.depth) level rows.length p

theorem ofRoot_eq_ok (h : ofRoot pool row = .ok t) :
    row.depth = 0 ∧ row.label = pool ∧ t = ⟨.single pool row.health row.errors, [0]⟩ := by
  unfold ofRoot at h
  split at h
  · exact ⟨‹_ ∧ _›.1, ‹_ ∧ _›.2, (Except.ok.inj h).symm⟩
  · contradiction

theorem after_ofRoot (h : ofRoot pool row = .ok t) : t.After pool [row] := by
  obtain ⟨hdepth, rfl, rfl⟩ := ofRoot_eq_ok h
  refine ⟨VdevTree.follows_single hdepth, ?_⟩
  intro level p hp
  rw [List.getElem?_singleton] at hp
  split at hp
  · obtain rfl := Option.some.inj hp
    subst level
    simpa [hdepth] using NearestAbove.last [] 0
  · contradiction

theorem After.addRow (a : t.After pool rows) (h : t.addRow row = .ok u) :
    u.After pool (rows ++ [row]) := by
  have hdepth : row.depth ≤ t.path.length := (depth_le_of_addRow h).1
  obtain ⟨hpath, hcase⟩ := addRow_eq_ok h
  constructor
  case tree =>
    obtain ⟨hzero, kind, hkind, hpush⟩ | ⟨above, parent, habove, hparent, hpush⟩ := hcase
    · refine a.tree.push (e := row.sectionEntry kind t.tree.root.state) hpush
        (fun _ => ⟨rfl, kind, hkind, rfl⟩) fun above habove => ?_
      omega
    · refine a.tree.push (e := row.entry) hpush (fun hzero => ?_) fun level hlevel => ⟨rfl, ?_⟩
      · omega
      · obtain rfl : above = level := by omega
        exact a.path hparent
  case path =>
    intro level p hp
    have hlength : (rows.map StatusRow.depth).length = rows.length := List.length_map ..
    rw [hpath] at hp
    have hnew : NearestAbove ((rows.map StatusRow.depth) ++ [row.depth]) level
        ((rows.map StatusRow.depth) ++ [row.depth]).length p := by
      rw [List.getElem?_append, List.length_take, Nat.min_eq_left hdepth] at hp
      split at hp
      · -- the levels above the new row are left alone
        rw [List.getElem?_take_of_lt ‹_›] at hp
        have hold := a.path hp
        rw [← hlength] at hold
        exact hold.push (by omega)
      · rw [List.getElem?_singleton] at hp
        split at hp
        · obtain rfl := Option.some.inj hp
          obtain rfl : level = row.depth := by omega
          rw [a.tree.size, ← hlength]
          exact NearestAbove.last _ _
        · contradiction
    simpa using hnew

theorem After.foldlM {more : List StatusRow} (a : t.After pool rows)
    (h : more.foldlM StatusTable.addRow t = .ok u) : u.After pool (rows ++ more) := by
  induction more generalizing t rows with
  | nil =>
    obtain rfl := Except.ok.inj h
    rwa [List.append_nil]
  | cons row more ih =>
    rw [List.foldlM_cons] at h
    obtain ⟨middle, hrow, hmore⟩ := bind_eq_ok h
    simpa using ih (a.addRow hrow) hmore

end StatusTable

section Branches

/-- A row that is not on the root's level opens no branch; nested rows come level by level. -/
theorem Nested.depth_le_succ {rows : List StatusRow} {bound i depth next : Nat}
    (h : Nested bound rows) (hi : (rows.map StatusRow.depth)[i]? = some depth)
    (hnext : (rows.map StatusRow.depth)[i + 1]? = some next) : next ≤ depth + 1 := by
  induction rows generalizing bound i with
  | nil => contradiction
  | cons row rest ih =>
    cases i with
    | zero =>
      cases rest with
      | nil => contradiction
      | cons second rest =>
        obtain rfl : row.depth = depth := by simpa using hi
        obtain rfl : second.depth = next := by simpa using hnext
        exact h.2.1
    | succ i => exact ih h.2 hi hnext

/-- From a row on the root's level to a later one, every level above that one is met. -/
theorem Nested.exists_onLevel {rows : List StatusRow} {bound s i level depth : Nat}
    (h : Nested bound rows) (hs : (rows.map StatusRow.depth)[s]? = some 0) (hi : s < i)
    (hdepth : (rows.map StatusRow.depth)[i]? = some depth) (hlevel : level < depth) :
    ∃ j, s ≤ j ∧ j < i ∧ (rows.map StatusRow.depth)[j]? = some level := by
  induction i generalizing depth with
  | zero => omega
  | succ n ih =>
    have hlength : n + 1 < (rows.map StatusRow.depth).length :=
      (List.getElem?_eq_some_iff.mp hdepth).1
    have hn : (rows.map StatusRow.depth)[n]? = some (rows.map StatusRow.depth)[n] :=
      List.getElem?_eq_getElem _
    have hstep := h.depth_le_succ hn hdepth
    by_cases heq : (rows.map StatusRow.depth)[n] = level
    · exact ⟨n, by omega, by omega, heq ▸ hn⟩
    · have hne : s ≠ n := by
        rintro rfl
        have := Option.some.inj (hn.symm.trans hs)
        omega
      obtain ⟨j, hj, hjn, hjlevel⟩ := ih (by omega) hn (by omega)
      exact ⟨j, hj, by omega, hjlevel⟩

namespace VdevTree.Follows

variable {t : VdevTree} {pool : String} {rows : List StatusRow} {s i above : Nat}

/-- The parent of a row is not above the nearest row on the root's level. -/
theorem exists_parent (f : t.Follows pool rows) (h : Nested 0 rows)
    (hs : NearestAbove (rows.map StatusRow.depth) 0 i s)
    (hi : (rows.map StatusRow.depth)[i]? = some (above + 1)) : ∃ p, t.ParentOf p i ∧ s ≤ p ∧
      p < i ∧ (rows.map StatusRow.depth)[p]? = some above ∧ ∀ q, t.ParentOf q i → q = p := by
  rw [List.getElem?_map, Option.map_eq_some_iff] at hi
  obtain ⟨row, hrow, hdepth⟩ := hi
  obtain ⟨v, p, hv, -, hp, hnearest⟩ := f.nested hrow hdepth
  obtain ⟨j, hj, hji, hlevel⟩ := h.exists_onLevel hs.onLevel hs.above
    (by rw [List.getElem?_map, hrow, Option.map_some, hdepth]) (Nat.lt_succ_self above)
  refine ⟨p, ⟨v, hv, hp⟩, Nat.le_trans hj (hnearest.le_of_level hlevel hji), hnearest.above,
    hnearest.onLevel, ?_⟩
  rintro q ⟨w, hw, hq⟩
  obtain rfl := Option.some.inj (hw.symm.trans hv)
  exact Option.some.inj (hq.symm.trans hp)

/-- A row between the opening of a branch and this row, if it is not the opening itself, stands in
the branch. -/
theorem nearestAbove_of_between {p : Nat} (hs : NearestAbove (rows.map StatusRow.depth) 0 i s)
    (hp : s < p) (hpi : p < i) (hlevel : (rows.map StatusRow.depth)[p]? = some above) :
    NearestAbove (rows.map StatusRow.depth) 0 p s ∧ ∃ upper, above = upper + 1 := by
  refine ⟨⟨hp, hs.onLevel, fun j hj hjp => hs.nearest j hj (by omega)⟩, above - 1, ?_⟩
  have hne : above ≠ 0 := by
    rintro rfl
    exact hs.nearest p hp hpi hlevel
  omega

/-- The rows of a branch are below the row that opens it. -/
theorem ancestorOf_opening (f : t.Follows pool rows) (h : Nested 0 rows)
    (hs : NearestAbove (rows.map StatusRow.depth) 0 i s)
    (hi : (rows.map StatusRow.depth)[i]? = some (above + 1)) : t.AncestorOf s i := by
  induction i using Nat.strongRecOn generalizing above with
  | _ i ih =>
    obtain ⟨p, hparent, hsp, hpi, hlevel, -⟩ := f.exists_parent h hs hi
    by_cases heq : s = p
    · subst heq
      exact .single hparent
    · obtain ⟨hbetween, upper, rfl⟩ := nearestAbove_of_between hs (by omega) hpi hlevel
      exact .tail (ih p hpi hbetween hlevel) hparent

/-- Only the root is above a section. -/
theorem ancestorOf_section (f : t.Follows pool rows) (hne : s ≠ 0)
    (hs : (rows.map StatusRow.depth)[s]? = some 0) {a : Nat} (ha : t.AncestorOf a s) : a = 0 := by
  obtain ⟨-, -, -, -, top, htop, -, hnone⟩ := f.root
  have hroot : ∀ {q}, ¬ t.ParentOf q 0 := by
    rintro q ⟨v, hv, hq⟩
    obtain rfl := Option.some.inj (hv.symm.trans htop)
    simp [hnone] at hq
  have hparent : ∀ {q}, t.ParentOf q s → q = 0 := by
    rintro q ⟨v, hv, hq⟩
    rw [List.getElem?_map, Option.map_eq_some_iff] at hs
    obtain ⟨row, hrow, hdepth⟩ := hs
    obtain ⟨w, -, hw, -, -, hzero⟩ := f.opened hrow hne hdepth
    obtain rfl := Option.some.inj (hv.symm.trans hw)
    exact Option.some.inj (hq.symm.trans hzero)
  cases ha with
  | single h => exact hparent h
  | tail hfurther h =>
    obtain rfl := hparent h
    cases hfurther with
    | single h => exact absurd h hroot
    | tail _ h => exact absurd h hroot

/-- What is above a row of a section is the root, the section, or a row of the section. -/
theorem ancestorOf_member (f : t.Follows pool rows) (h : Nested 0 rows) (hne : s ≠ 0)
    (hs : NearestAbove (rows.map StatusRow.depth) 0 i s)
    (hi : (rows.map StatusRow.depth)[i]? = some (above + 1)) {a : Nat} (ha : t.AncestorOf a i) :
    a = 0 ∨ s ≤ a := by
  induction i using Nat.strongRecOn generalizing above with
  | _ i ih =>
    obtain ⟨p, -, hsp, hpi, hlevel, hunique⟩ := f.exists_parent h hs hi
    cases ha with
    | single hparent => exact .inr (hunique a hparent ▸ hsp)
    | @tail middle _ hbefore hparent =>
      obtain rfl : middle = p := hunique _ hparent
      by_cases heq : s = middle
      · subst heq
        exact .inl (f.ancestorOf_section hne hs.onLevel hbefore)
      · obtain ⟨hbetween, upper, rfl⟩ := nearestAbove_of_between hs (by omega) hpi hlevel
        exact ih _ hpi hbetween hlevel hbefore

end VdevTree.Follows

end Branches

namespace VdevTree

/-- The vdevs with a parent, in the order of their indices. -/
def childrenOf (t : VdevTree) (p : Nat) : List Nat :=
  (List.range t.size).filter fun i => (t.get? i).bind Vdev.parent = some p

theorem Linked.children_eq {t : VdevTree} (l : t.Linked) {p : Nat} {above : Vdev}
    (h : t.get? p = some above) : above.children = t.childrenOf p := by
  refine (l.sorted h).eq_of_mem_iff (List.pairwise_lt_range.filter _) fun i => ?_
  rw [l.children h, childrenOf, List.mem_filter, List.mem_range, decide_eq_true_eq,
    Option.bind_eq_some_iff]
  exact ⟨fun ⟨v, hv, hp⟩ => ⟨lt_size_of_get? hv, v, hv, hp⟩, fun ⟨_, hv⟩ => hv⟩

end VdevTree

namespace PoolStatus

/-- The lines of the table: what follows the titles, from the first line that is not blank up to
the next blank one. -/
def tableLines (output : String) : List (List Char) :=
  (((afterTitle? (Text.lines output.toList)).getD []).dropWhile isBlankLine).takeWhile
    (!isBlankLine ·)

/-- The level of a line: half the number of spaces after the tab. -/
def indentation (line : List Char) : Nat :=
  ((line.drop 1).takeWhile (· == ' ')).length / 2

theorem depth_of_read? {line : List Char} {row : StatusRow} (h : StatusRow.read? line = some row) :
    row.depth = indentation line := by
  obtain ⟨rest, label, cells, rfl, -, rfl⟩ := StatusRow.read?_eq_some h
  rfl

theorem depths_of_read? {lines : List (List Char)} {rows : List StatusRow}
    (h : lines.map StatusRow.read? = rows.map some) :
    rows.map StatusRow.depth = lines.map indentation := by
  induction lines generalizing rows with
  | nil =>
    obtain rfl : rows = [] := by simpa using h.symm
    rfl
  | cons line lines ih =>
    cases rows with
    | nil => contradiction
    | cons row rows =>
      obtain ⟨hline, hlines⟩ := List.cons.inj h
      rw [List.map_cons, List.map_cons, depth_of_read? hline, ih hlines]

/-- An accepted status has a row of the root, and rows that were added to it. -/
theorem exists_rows_of_parse {pool output : String} {status : PoolStatus}
    (h : parse pool output = .ok status) :
    ∃ (root : StatusRow) (rest : List StatusRow) (first last : StatusTable),
      (tableLines output).map StatusRow.read? = (root :: rest).map some ∧
      StatusTable.ofRoot pool root = .ok first ∧ rest.foldlM StatusTable.addRow first = .ok last ∧
      last.tree = status.vdevs := by
  unfold parse at h
  split at h
  case h_1 => contradiction
  case h_2 lines hafter =>
    unfold ofLines at h
    split at h
    case h_1 => contradiction
    case h_2 line rest hlines =>
      obtain ⟨first, hfirst, h⟩ := bind_eq_ok h
      obtain ⟨root, hread, hroot⟩ := bind_eq_ok hfirst
      obtain ⟨last, hlast, h⟩ := bind_eq_ok h
      obtain rfl := Except.ok.inj h
      obtain ⟨rows, hrows, hadded⟩ := StatusTable.exists_rows_of_foldlM hlast
      have hnonblank : isBlankLine line = false := by
        have := List.head?_dropWhile_not isBlankLine lines
        simpa [hlines] using this
      refine ⟨root, rows, first, last, ?_, hroot, hadded, rfl⟩
      rw [tableLines, hafter, Option.getD_some, hlines,
        List.takeWhile_cons_of_pos (by simp [hnonblank]), List.map_cons, List.map_cons, hrows,
        StatusRow.read?_of_read hread]

theorem parse_of_read {pool output : String} {status : PoolStatus}
    (h : read pool output = .ok status) : parse pool output = .ok status := by
  cases hparse : parse pool output with
  | error fault => simp [read, hparse, Except.mapError] at h
  | ok parsed => simpa [read, hparse, Except.mapError] using h

/-- The tree of an accepted status follows the nested rows of its table, and is laid out like a
forest below the root. -/
theorem exists_follows_of_read {pool output : String} {status : PoolStatus}
    (h : read pool output = .ok status) : ∃ rows : List StatusRow,
      (tableLines output).map StatusRow.read? = rows.map some ∧ Nested 0 rows ∧
      status.vdevs.Follows pool rows ∧
      ∃ e f, status.vdevs.placed = (Forest.cons e f .nil).place none 0 := by
  obtain ⟨root, rest, first, last, hread, hroot, hrest, hlast⟩ :=
    exists_rows_of_parse (parse_of_read h)
  have hfollows := ((StatusTable.after_ofRoot hroot).foldlM hrest).tree
  obtain ⟨hdepth, -, rfl⟩ := StatusTable.ofRoot_eq_ok hroot
  obtain ⟨data, sections, entries, -, -, hplaced⟩ := StatusTable.exists_topology hrest
  rw [hlast] at hfollows hplaced
  exact ⟨root :: rest, hread,
    ⟨Nat.le_of_eq hdepth, hdepth ▸ StatusTable.nested_of_foldlM hrest⟩, hfollows, _, _, hplaced⟩

/-- The tree of an accepted status follows the rows of its table, whose levels are what the lines
are indented by. The rows of a section are below it and below no other vdev but the root. A walk
through the tree, depth first, meets the vdevs in the order of the rows, and so are the children of
every vdev. -/
theorem follows_rows_of_read {pool output : String} {status : PoolStatus}
    (h : read pool output = .ok status) : ∃ rows : List StatusRow,
      (tableLines output).map StatusRow.read? = rows.map some ∧
      rows.map StatusRow.depth = (tableLines output).map indentation ∧
      status.vdevs.Follows pool rows ∧
      (∀ {s i above : Nat}, s ≠ 0 → NearestAbove (rows.map StatusRow.depth) 0 i s →
        (rows.map StatusRow.depth)[i]? = some (above + 1) → status.vdevs.AncestorOf s i ∧
          ∀ a, status.vdevs.AncestorOf a i → a = 0 ∨ s ≤ a) ∧
      status.vdevs.Walk [0] (List.range status.vdevs.size) ∧
      ∀ {p : Nat} {above : Vdev}, status.vdevs.get? p = some above →
        above.children = status.vdevs.childrenOf p := by
  obtain ⟨rows, hread, hnested, hfollows, _, _, hplaced⟩ := exists_follows_of_read h
  refine ⟨rows, hread, depths_of_read? hread, hfollows, fun hne hs hi => ?_,
    VdevTree.walk_of_placed_root hplaced, fun hp => (grown_of_read h).linked.children_eq hp⟩
  exact ⟨hfollows.ancestorOf_opening hnested hs hi,
    fun a => hfollows.ancestorOf_member hnested hne hs hi⟩

/-- A table with odd indentation, a fall by two levels, and a section that occurs twice. -/
theorem follows_rows_of_ragged_table : ∃ status rows,
    read "tank" ("\tNAME STATE\n\ttank ONLINE\n\t   mirror-0 ONLINE\n\t    spare-0 ONLINE\n" ++
      "\t       sda ONLINE\n\t  sdb ONLINE\n\tlogs\n\t  sdc ONLINE\n\tlogs\n\t  sdd ONLINE\n") =
      .ok status ∧
    rows.map StatusRow.depth = [0, 1, 2, 3, 1, 0, 1, 0, 1] ∧ status.vdevs.Follows "tank" rows := by
  obtain ⟨status, hread, -⟩ := exists_read_eq_ok "tank"
    ("\tNAME STATE\n\ttank ONLINE\n\t   mirror-0 ONLINE\n\t    spare-0 ONLINE\n" ++
      "\t       sda ONLINE\n\t  sdb ONLINE\n\tlogs\n\t  sdc ONLINE\n\tlogs\n\t  sdd ONLINE\n")
    ["tank", "tank/mirror-0", "tank/mirror-0/spare-0", "tank/mirror-0/spare-0/sda", "tank/sdb",
      "tank/logs", "tank/logs/sdc", "tank/logs#7", "tank/logs#7/sdd"] (by decide +kernel)
  obtain ⟨rows, -, hdepths, hfollows, -⟩ := follows_rows_of_read hread
  exact ⟨status, rows, hread, by rw [hdepths]; decide +kernel, hfollows⟩

end PoolStatus

end PoolGauge
