import PoolGauge.Proofs.Pool.Table
import PoolGauge.Proofs.Vdev.Forest

/-!
# Topologies in a status table

The rows below the root draw two forests: the data vdevs from the first level on, and the sections
with their members. Adding the rows of such a drawing builds the tree that it shows, and every
accepted table is such a drawing.
-/
namespace PoolGauge

def StatusRow.entry (row : StatusRow) : VdevEntry :=
  ⟨row.label, .ofLabel row.label, row.health, row.errors⟩

/-- What the row of a section of some kind says if the root is in a state. -/
def StatusRow.sectionEntry (row : StatusRow) (kind : VdevKind) (rootState : VdevState) :
    VdevEntry :=
  ⟨row.label, kind, if row.state.isSome then row.health else rootState, row.errors⟩

namespace Forest

/-- The rows that draw a forest, the topmost on a given level. -/
def rows (level : Nat) (f : Forest StatusRow) : List StatusRow :=
  (f.levels level).map fun e => { e.2 with depth := e.1 }

@[simp] theorem rows_nil (level : Nat) : (nil : Forest StatusRow).rows level = [] := rfl

@[simp] theorem rows_cons (level : Nat) (row : StatusRow) (below beside : Forest StatusRow) :
    (cons row below beside).rows level =
      { row with depth := level } :: (below.rows (level + 1) ++ beside.rows level) := by
  simp [rows, levels]

/-- The topmost rows open sections, which have these entries. -/
inductive Sections (rootState : VdevState) : Forest StatusRow → Forest VdevEntry → Prop
  | nil : Sections rootState .nil .nil
  | cons {row : StatusRow} {members others : Forest StatusRow} {entries : Forest VdevEntry}
      {kind : VdevKind} (opens : VdevKind.ofSection? row.label = some kind)
      (rest : Sections rootState others entries) :
      Sections rootState (.cons row members others)
        (.cons (row.sectionEntry kind rootState) (members.map StatusRow.entry) entries)

end Forest

/-- No row is more than one level below the row before it, and the first is not below a level. -/
def Nested : Nat → List StatusRow → Prop
  | _, [] => True
  | bound, row :: rest => row.depth ≤ bound ∧ Nested (row.depth + 1) rest

theorem Nested.of_head {bound level : Nat} {rows : List StatusRow} (h : Nested bound rows)
    (hhead : ∀ row ∈ rows.head?, row.depth ≤ level) : Nested level rows := by
  cases rows with
  | nil => trivial
  | cons row rest => exact ⟨hhead row (by simp), h.2⟩

/-- Nested rows draw a forest on their first level, up to the first row above it. -/
theorem Nested.exists_forest {rows : List StatusRow} {level : Nat} (h : Nested level rows) :
    ∃ (f : Forest StatusRow) (rest : List StatusRow), rows = f.rows level ++ rest ∧
      Nested level rest ∧ ∀ row ∈ rest.head?, row.depth < level := by
  induction hlength : rows.length using Nat.strongRecOn generalizing rows level with
  | _ n ih =>
    cases rows with
    | nil => exact ⟨.nil, [], rfl, trivial, nofun⟩
    | cons row tail =>
      by_cases hdepth : row.depth < level
      · exact ⟨.nil, row :: tail, rfl, h, by simpa using hdepth⟩
      · obtain rfl : row.depth = level := Nat.le_antisymm h.1 (Nat.le_of_not_lt hdepth)
        -- first what is drawn below the row, then what is drawn beside it
        obtain ⟨below, rest, rfl, hrest, hhead⟩ := ih tail.length (by simp [← hlength]) h.2 rfl
        have hshorter : rest.length < n := by
          rw [← hlength, List.length_cons, List.length_append]
          omega
        obtain ⟨beside, last, rfl, hlast⟩ := ih rest.length hshorter
          (hrest.of_head fun r hr => Nat.le_of_lt_succ (hhead r hr)) rfl
        exact ⟨.cons row below beside, last, by simp, hlast⟩

/-- All that a line with a row consists of. -/
theorem StatusRow.read?_eq_some {line : List Char} {row : StatusRow} (h : read? line = some row) :
    ∃ (rest label : List Char) (cells : List (List Char)), line = '\t' :: rest ∧
      Text.words rest = label :: cells ∧
      row = { depth := (rest.takeWhile (· == ' ')).length / 2
              label := String.ofList label
              state := cells[0]?.map String.ofList
              errors := { readErrors := count cells[1]?
                          writeErrors := count cells[2]?
                          checksumErrors := count cells[3]? } } := by
  unfold read? at h
  split at h
  · rename_i rest
    split at h
    · contradiction
    · rename_i label cells hwords
      exact ⟨rest, label, cells, rfl, hwords, (Option.some.inj h).symm⟩
  · contradiction

theorem StatusRow.read?_of_read {line : List Char} {row : StatusRow} (h : read line = .ok row) :
    read? line = some row := by
  cases hread : read? line with
  | none => simp [read, hread] at h
  | some found => simpa [read, hread] using h

namespace StatusTable

variable {t u : StatusTable} {row : StatusRow} {above parent : Nat}

theorem addRow_of_path {tree : VdevTree} (hdepth : row.depth = above + 1)
    (hpath : t.path[above]? = some parent)
    (hpush : t.tree.push? parent row.label (.ofLabel row.label) row.health row.errors =
      some tree) :
    t.addRow row = .ok ⟨tree, t.path.take (above + 1) ++ [t.tree.size]⟩ := by
  simp [addRow, hdepth, hpath, attach?, hpush]

theorem addRow_of_section {tree : VdevTree} {kind : VdevKind} (hdepth : row.depth = 0)
    (hkind : VdevKind.ofSection? row.label = some kind)
    (hpush : t.tree.push? 0 row.label kind
      (if row.state.isSome then row.health else t.tree.root.state) row.errors = some tree) :
    t.addRow row = .ok ⟨tree, [t.tree.size]⟩ := by
  simp [addRow, hdepth, addSection, hkind, attach?, hpush]

theorem exists_push? (h : parent < t.tree.size) (label : String) (kind : VdevKind)
    (state : VdevState) (stats : VdevStats) :
    ∃ tree, t.tree.push? parent label kind state stats = some tree := by
  rw [← Option.ne_none_iff_exists', Ne, VdevTree.push?_eq_none_iff]
  omega

/-- An accepted row is at most one level below the one before it. -/
theorem depth_le_of_addRow (h : t.addRow row = .ok u) :
    row.depth ≤ t.path.length ∧ u.path.length = row.depth + 1 := by
  obtain ⟨hpath, hcase⟩ := addRow_eq_ok h
  have hdepth : row.depth ≤ t.path.length := by
    obtain ⟨hdepth, -⟩ | ⟨above, parent, hdepth, hparent, -⟩ := hcase
    · omega
    · have := (List.getElem?_eq_some_iff.mp hparent).1
      omega
  rw [hpath]
  simp [hdepth]

theorem nested_of_foldlM {rows : List StatusRow} (h : rows.foldlM addRow t = .ok u) :
    Nested t.path.length rows := by
  induction rows generalizing t with
  | nil => trivial
  | cons row rest ih =>
    rw [List.foldlM_cons] at h
    obtain ⟨middle, hrow, hrest⟩ := bind_eq_ok h
    obtain ⟨hdepth, hlength⟩ := depth_le_of_addRow hrow
    exact ⟨hdepth, hlength ▸ ih hrest⟩

/-- Rows that draw a forest below the newest vdev of the level above add this forest to it. -/
theorem foldlM_rows (f : Forest StatusRow) (t : StatusTable) (above parent : Nat)
    (hpath : t.path[above]? = some parent) (hparent : parent < t.tree.size) :
    ∃ u, (f.rows (above + 1)).foldlM addRow t = .ok u ∧
      t.tree.GrownBy u.tree parent (f.map StatusRow.entry) ∧
      u.path.take (above + 1) = t.path.take (above + 1) := by
  induction f generalizing t above parent with
  | nil => exact ⟨t, rfl, t.tree.grownBy_nil parent, rfl⟩
  | cons row below beside ihbelow ihbeside =>
    obtain ⟨tree, hpush⟩ :=
      exists_push? hparent row.label (.ofLabel row.label) row.health row.errors
    have hrow : t.addRow { row with depth := above + 1 } =
        .ok ⟨tree, t.path.take (above + 1) ++ [t.tree.size]⟩ := addRow_of_path rfl hpath hpush
    have hlength : (t.path.take (above + 1)).length = above + 1 := by
      have := (List.getElem?_eq_some_iff.mp hpath).1
      simp
      omega
    have hsize : tree.size = t.tree.size + 1 := VdevTree.size_push? hpush
    obtain ⟨u, hbelow, hgrown, htake⟩ := ihbelow
      ⟨tree, t.path.take (above + 1) ++ [t.tree.size]⟩ (above + 1) t.tree.size (by simp [hlength])
      (by simp [hsize])
    have hsame : u.path.take (above + 1) = t.path.take (above + 1) := by
      have := congrArg (List.take (above + 1)) htake
      rwa [List.take_take, List.take_take, Nat.min_eq_left (by omega),
        List.take_left' hlength] at this
    obtain ⟨w, hbeside, hgrown', htake'⟩ := ihbeside u above parent
      (by rw [← List.getElem?_take_of_lt (Nat.lt_succ_self above), hsame,
        List.getElem?_take_of_lt (Nat.lt_succ_self above), hpath])
      (by rw [hgrown.size, hsize]; omega)
    refine ⟨w, ?_, VdevTree.grownBy_cons hparent (VdevTree.grownBy_push? hpush) hgrown hgrown',
      htake'.trans hsame⟩
    rw [Forest.rows_cons, List.foldlM_cons, hrow]
    change (below.rows (above + 1 + 1) ++ beside.rows (above + 1)).foldlM addRow _ = _
    rw [List.foldlM_append, hbelow]
    exact hbeside

theorem root_state_of_grownBy {v w : VdevTree} {f : Forest VdevEntry} (h : v.GrownBy w parent f) :
    w.root.state = v.root.state := by
  have hroot : ∀ t : VdevTree, t.placed[0]? = some t.root.placed := fun t => by
    rw [VdevTree.placed_getElem?, t.get?_zero, Option.map_some]
  have hw := hroot w
  rw [h, List.getElem?_append_left (by simp [VdevTree.size, v.nonempty]), List.getElem?_modify,
    hroot v] at hw
  have hstate := congrArg (fun p : Placed => p.state) (Option.some.inj hw)
  split at hstate <;> exact hstate.symm

/-- The row of a section and those of its members add a branch below the root. -/
theorem foldlM_section (t : StatusTable) {row : StatusRow} (members : Forest StatusRow)
    {kind : VdevKind} (hkind : VdevKind.ofSection? row.label = some kind) (hdepth : row.depth = 0) :
    ∃ u, (row :: members.rows 1).foldlM addRow t = .ok u ∧ ∃ v : VdevTree,
      t.tree.GrownBy v 0 (.cons (row.sectionEntry kind t.tree.root.state) .nil .nil) ∧
      v.GrownBy u.tree t.tree.size (members.map StatusRow.entry) := by
  obtain ⟨tree, hpush⟩ := exists_push? (t := t) t.tree.nonempty row.label kind
    (if row.state.isSome then row.health else t.tree.root.state) row.errors
  have hsize : tree.size = t.tree.size + 1 := VdevTree.size_push? hpush
  obtain ⟨u, hrows, hgrown, -⟩ := foldlM_rows members ⟨tree, [t.tree.size]⟩ 0 t.tree.size rfl
    (by simp [hsize])
  refine ⟨u, ?_, tree, VdevTree.grownBy_push? hpush, hgrown⟩
  rw [List.foldlM_cons, addRow_of_section hdepth hkind hpush]
  exact hrows

/-- Rows that draw sections add them below the root. -/
theorem foldlM_sections {f : Forest StatusRow} {entries : Forest VdevEntry}
    (h : f.Sections t.tree.root.state entries) :
    ∃ u, (f.rows 0).foldlM addRow t = .ok u ∧ t.tree.GrownBy u.tree 0 entries := by
  generalize hstate : t.tree.root.state = state at h
  induction h generalizing t with
  | nil => exact ⟨t, rfl, t.tree.grownBy_nil 0⟩
  | @cons row members others entries kind hkind _ ih =>
    obtain ⟨u, hsection, v, hpush, hmembers⟩ :=
      foldlM_section t members
        (show VdevKind.ofSection? { row with depth := 0 }.label = _ from hkind)
        rfl
    have hroot : u.tree.root.state = state := by
      rw [root_state_of_grownBy hmembers, root_state_of_grownBy hpush, hstate]
    obtain ⟨w, hothers, hgrown⟩ := ih hroot
    refine ⟨w, ?_, VdevTree.grownBy_cons t.tree.nonempty (hstate ▸ hpush) hmembers hgrown⟩
    rw [Forest.rows_cons, ← List.cons_append, List.foldlM_append, hsection]
    exact hothers

/-- Rows that draw sections and are accepted open known sections. -/
theorem exists_sections {f : Forest StatusRow} (h : (f.rows 0).foldlM addRow t = .ok u) :
    ∃ entries, f.Sections t.tree.root.state entries := by
  induction f generalizing t with
  | nil => exact ⟨Forest.nil, .nil⟩
  | cons row members others _ ih =>
    rw [Forest.rows_cons, ← List.cons_append, List.foldlM_append] at h
    obtain ⟨v, hsection, hothers⟩ := bind_eq_ok h
    obtain ⟨first, hrow, -⟩ := bind_eq_ok hsection
    obtain ⟨-, ⟨-, kind, hkind, -⟩ | ⟨above, parent, hdepth, -⟩⟩ := addRow_eq_ok hrow
    · obtain ⟨w, hw, tree, hpush, hmembers⟩ := foldlM_section t members hkind rfl
      obtain rfl : w = v := Except.ok.inj (hw.symm.trans hsection)
      obtain ⟨entries, hentries⟩ := ih hothers
      rw [root_state_of_grownBy hmembers, root_state_of_grownBy hpush] at hentries
      exact ⟨_, .cons hkind hentries⟩
    · contradiction

section Root

variable {state : VdevState} {sections : Forest StatusRow} {entries : Forest VdevEntry}

/-- The table of a root alone takes the rows of a topology, and shows it then. -/
theorem foldlM_topology (pool : String) (stats : VdevStats) (data : Forest StatusRow)
    (h : sections.Sections state entries) :
    ∃ u, (data.rows 1 ++ sections.rows 0).foldlM addRow ⟨.single pool state stats, [0]⟩ = .ok u ∧
      u.tree.placed = (Forest.cons ⟨pool, .root, state, stats⟩
        ((data.map StatusRow.entry).append entries) .nil).place none 0 := by
  obtain ⟨v, hdata, hgrown, -⟩ :=
    foldlM_rows data ⟨.single pool state stats, [0]⟩ 0 0 rfl (by simp)
  have hsame : sections.Sections v.tree.root.state entries := by
    rw [root_state_of_grownBy hgrown]
    exact h
  obtain ⟨u, hsections, hgrown'⟩ := foldlM_sections hsame
  refine ⟨u, ?_, VdevTree.placed_of_grownBy_single (hgrown.append (by simp) hgrown')⟩
  rw [List.foldlM_append, hdata]
  exact hsections

/-- The rows that the table of a root alone takes are those of a topology. -/
theorem exists_topology {pool : String} {stats : VdevStats} {rows : List StatusRow}
    (h : rows.foldlM addRow ⟨.single pool state stats, [0]⟩ = .ok u) :
    ∃ data sections entries, rows = Forest.rows 1 data ++ Forest.rows 0 sections ∧
      sections.Sections state entries ∧
      u.tree.placed = (Forest.cons ⟨pool, .root, state, stats⟩
        ((data.map StatusRow.entry).append entries) .nil).place none 0 := by
  obtain ⟨data, rest, rfl, hrest, hhead⟩ := (nested_of_foldlM h).exists_forest
  obtain ⟨sections, last, rfl, -, hnone⟩ :=
    (hrest.of_head fun row hrow => Nat.le_of_lt_succ (hhead row hrow)).exists_forest
  obtain rfl : last = [] := by
    cases last with
    | nil => rfl
    | cons row rest => exact absurd (hnone row (by simp)) (Nat.not_lt_zero _)
  rw [List.append_nil] at h ⊢
  have hsplit := h
  rw [List.foldlM_append] at hsplit
  obtain ⟨v, hdata, hsections⟩ := bind_eq_ok hsplit
  obtain ⟨w, hw, hgrown, -⟩ :=
    foldlM_rows data ⟨.single pool state stats, [0]⟩ 0 0 rfl (by simp)
  obtain rfl : w = v := Except.ok.inj (hw.symm.trans hdata)
  obtain ⟨entries, hentries⟩ := exists_sections hsections
  rw [root_state_of_grownBy hgrown] at hentries
  obtain ⟨w, hw, hplaced⟩ := foldlM_topology pool stats data hentries
  obtain rfl : w = u := Except.ok.inj (hw.symm.trans h)
  exact ⟨data, sections, entries, rfl, hentries, hplaced⟩

end Root

theorem foldlM_addLine {lines : List (List Char)} {rows : List StatusRow}
    (h : lines.map StatusRow.read? = rows.map some) (t : StatusTable) :
    lines.foldlM addLine t = rows.foldlM addRow t := by
  induction lines generalizing t rows with
  | nil =>
    obtain rfl : rows = [] := by simpa using h.symm
    rfl
  | cons line lines ih =>
    cases rows with
    | nil => contradiction
    | cons row rows =>
      obtain ⟨hline, hrest⟩ := List.cons.inj h
      have hread : StatusRow.read line = .ok row := by rw [StatusRow.read, hline]
      rw [List.foldlM_cons, List.foldlM_cons, addLine, hread]
      exact bind_congr fun u => ih hrest u

theorem exists_rows_of_foldlM {lines : List (List Char)} (h : lines.foldlM addLine t = .ok u) :
    ∃ rows : List StatusRow, lines.map StatusRow.read? = rows.map some ∧
      rows.foldlM addRow t = .ok u := by
  induction lines generalizing t with
  | nil => exact ⟨[], rfl, h⟩
  | cons line lines ih =>
    rw [List.foldlM_cons] at h
    obtain ⟨middle, hline, hrest⟩ := bind_eq_ok h
    obtain ⟨row, hread, hrow⟩ := bind_eq_ok hline
    obtain ⟨rows, hlines, hrows⟩ := ih hrest
    refine ⟨row :: rows, ?_, ?_⟩
    · rw [List.map_cons, List.map_cons, hlines, StatusRow.read?_of_read hread]
    · rw [List.foldlM_cons, hrow]
      exact hrows

end StatusTable

end PoolGauge
