import PoolGauge.Pool.Status
import PoolGauge.Proofs.Vdev.Names

/-!
# The tree that a status table shows

Each row adds one child to the tree, below the root for a section and below the newest vdev one
level up otherwise. The tree of an accepted status therefore grows from a root that has the name
of the pool, and its names clash only where a label's plain name was taken.
-/
namespace PoolGauge

/-- What a successful chain of two readings consists of. -/
theorem bind_eq_ok {ε α β : Type} {x : Except ε α} {f : α → Except ε β} {b : β}
    (h : x >>= f = .ok b) : ∃ a, x = .ok a ∧ f a = .ok b := by
  cases x with
  | error e => contradiction
  | ok a => exact ⟨a, rfl, h⟩

theorem exists_ok_of_toOption_map {ε α β : Type} {x : Except ε α} {f : α → β} {b : β}
    (h : x.toOption.map f = some b) : ∃ a, x = .ok a ∧ f a = b := by
  cases x with
  | error e => contradiction
  | ok a => exact ⟨a, rfl, Option.some.inj h⟩

namespace StatusTable

variable {t u : StatusTable} {row : StatusRow} {pool : String}

theorem attach?_eq_some {depth parent : Nat} {label : String} {kind : VdevKind}
    {state : VdevState} {errors : VdevStats}
    (h : t.attach? depth parent label kind state errors = some u) :
    t.tree.push? parent label kind state errors = some u.tree ∧
      u.path = t.path.take depth ++ [t.tree.size] := by
  simp only [attach?, Option.map_eq_some_iff] at h
  obtain ⟨tree, htree, rfl⟩ := h
  exact ⟨htree, rfl⟩

/-- All that an accepted row does: it adds one vdev, which becomes the newest on its level. -/
theorem addRow_eq_ok (h : t.addRow row = .ok u) :
    u.path = t.path.take row.depth ++ [t.tree.size] ∧
      ((row.depth = 0 ∧ ∃ kind, VdevKind.ofSection? row.label = some kind ∧
          t.tree.push? 0 row.label kind
            (if row.state.isSome then row.health else t.tree.root.state) row.errors =
              some u.tree) ∨
        ∃ above parent, row.depth = above + 1 ∧ t.path[above]? = some parent ∧
          t.tree.push? parent row.label (.ofLabel row.label) row.health row.errors =
            some u.tree) := by
  cases hdepth : row.depth with
  | zero =>
    simp only [addRow, hdepth, addSection] at h
    cases hkind : VdevKind.ofSection? row.label with
    | none => simp [hkind] at h
    | some kind =>
      rw [hkind] at h
      cases hattach : t.attach? 0 0 row.label kind
          (if row.state.isSome then row.health else t.tree.root.state) row.errors with
      | none => simp [hattach] at h
      | some table =>
        obtain rfl : table = u := by simpa [hattach] using h
        obtain ⟨hpush, hpath⟩ := attach?_eq_some hattach
        exact ⟨hpath, .inl ⟨rfl, kind, rfl, hpush⟩⟩
  | succ above =>
    simp only [addRow, hdepth] at h
    cases hattach : (do
        let parent ← t.path[above]?
        t.attach? (above + 1) parent row.label (.ofLabel row.label) row.health row.errors) with
    | none => simp [hattach] at h
    | some table =>
      obtain rfl : table = u := by simpa [hattach] using h
      obtain ⟨parent, hparent, hattach⟩ := Option.bind_eq_some_iff.mp hattach
      obtain ⟨hpush, hpath⟩ := attach?_eq_some hattach
      exact ⟨hpath, .inr ⟨above, parent, rfl, hparent, hpush⟩⟩

theorem exists_push?_of_addRow (h : t.addRow row = .ok u) : ∃ parent kind state,
    t.tree.push? parent row.label kind state row.errors = some u.tree := by
  obtain ⟨-, ⟨-, kind, -, hpush⟩ | ⟨above, parent, -, -, hpush⟩⟩ := addRow_eq_ok h
  · exact ⟨_, _, _, hpush⟩
  · exact ⟨_, _, _, hpush⟩

theorem grown_addRow (g : t.tree.Grown pool) (h : t.addRow row = .ok u) : u.tree.Grown pool := by
  obtain ⟨parent, kind, state, hpush⟩ := exists_push?_of_addRow h
  exact g.push hpush

theorem linked_addRow (l : t.tree.Linked) (h : t.addRow row = .ok u) : u.tree.Linked := by
  obtain ⟨parent, kind, state, hpush⟩ := exists_push?_of_addRow h
  exact l.push? hpush

theorem size_addRow (h : t.addRow row = .ok u) : u.tree.size = t.tree.size + 1 := by
  obtain ⟨parent, kind, state, hpush⟩ := exists_push?_of_addRow h
  exact VdevTree.size_push? hpush

theorem grown_foldlM {lines : List (List Char)} (g : t.tree.Grown pool)
    (h : lines.foldlM addLine t = .ok u) : u.tree.Grown pool := by
  induction lines generalizing t with
  | nil =>
    obtain rfl := Except.ok.inj h
    exact g
  | cons line rest ih =>
    rw [List.foldlM_cons] at h
    obtain ⟨middle, hline, hrest⟩ := bind_eq_ok h
    obtain ⟨row, -, hrow⟩ := bind_eq_ok hline
    exact ih (grown_addRow g hrow) hrest

end StatusTable

namespace PoolStatus

/-- An accepted status shows a tree that grows from a root with the name of the pool. -/
theorem grown_of_parse {pool output : String} {status : PoolStatus}
    (h : parse pool output = .ok status) : status.vdevs.Grown pool := by
  unfold parse at h
  split at h
  case h_1 => contradiction
  case h_2 lines _ =>
    unfold ofLines at h
    split at h
    case h_1 => contradiction
    case h_2 first rest _ =>
      obtain ⟨root, hroot, h⟩ := bind_eq_ok h
      obtain ⟨row, -, hroot⟩ := bind_eq_ok hroot
      obtain ⟨table, htable, h⟩ := bind_eq_ok h
      obtain rfl := Except.ok.inj h
      refine StatusTable.grown_foldlM ?_ htable
      unfold StatusTable.ofRoot at hroot
      split at hroot
      · obtain rfl := Except.ok.inj hroot
        exact .single row.health row.errors
      · contradiction

theorem grown_of_read {pool output : String} {status : PoolStatus}
    (h : read pool output = .ok status) : status.vdevs.Grown pool := by
  cases hparse : parse pool output with
  | error fault => simp [read, hparse, Except.mapError] at h
  | ok parsed =>
    obtain rfl : parsed = status := by simpa [read, hparse, Except.mapError] using h
    exact grown_of_parse hparse

theorem exists_read_eq_ok (pool output : String) (names : List String)
    (h : ((read pool output).toOption.map fun status => status.vdevs.names) = some names) :
    ∃ status, read pool output = .ok status ∧ status.vdevs.names = names :=
  exists_ok_of_toOption_map h

/-- The names of the vdevs of an accepted status are pairwise distinct exactly if no vdev has the
longer name that one gets whose plain name an elder sibling has. They are if the labels of siblings
have different last components. -/
theorem names_nodup_iff_crowdedApart {pool output : String} {status : PoolStatus}
    (h : read pool output = .ok status) :
    (status.vdevs.names.Nodup ↔ status.vdevs.CrowdedApart) ∧
      (status.vdevs.SiblingsApart → status.vdevs.names.Nodup) := by
  have grown := grown_of_read h
  refine ⟨grown.names_nodup_iff, fun hapart => grown.names_nodup_iff.mpr ?_⟩
  intro i j name w hcrowded
  exact absurd hcrowded (grown.not_crowded hapart i)

/-- Two files that share the last component of their paths. -/
theorem names_nodup_of_equal_baseNames : ∃ status,
    read "files" ("\tNAME STATE\n\tfiles ONLINE\n\t  mirror-0 ONLINE\n" ++
      "\t    /tmp/a/disk.img ONLINE\n\t    /tmp/b/disk.img FAULTED\n") = .ok status ∧
      status.vdevs.names.Nodup ∧ status.vdevs.CrowdedApart := by
  obtain ⟨status, hread, hnames⟩ := exists_read_eq_ok "files"
    ("\tNAME STATE\n\tfiles ONLINE\n\t  mirror-0 ONLINE\n" ++
      "\t    /tmp/a/disk.img ONLINE\n\t    /tmp/b/disk.img FAULTED\n")
    ["files", "files/mirror-0", "files/mirror-0/disk.img", "files/mirror-0/tmp/b/disk.img"]
    (by decide +kernel)
  have hnodup : status.vdevs.names.Nodup := by
    rw [hnames]
    decide
  exact ⟨status, hread, hnodup, (names_nodup_iff_crowdedApart hread).1.mp hnodup⟩

/-- The longer name of a file in a directory called like a section is the plain name of a file of
that section. -/
theorem not_names_nodup_of_section_directory : ∃ status,
    read "tank" ("\tNAME STATE READ WRITE CKSUM\n\ttank ONLINE 0 0 0\n\t  /a/x ONLINE 0 0 0\n" ++
      "\t  /logs/x ONLINE 3 0 0\n\tlogs\n\t  /b/x ONLINE 4 0 0\n") = .ok status ∧
      ¬ status.vdevs.names.Nodup := by
  obtain ⟨status, hread, hnames⟩ := exists_read_eq_ok "tank"
    ("\tNAME STATE READ WRITE CKSUM\n\ttank ONLINE 0 0 0\n\t  /a/x ONLINE 0 0 0\n" ++
      "\t  /logs/x ONLINE 3 0 0\n\tlogs\n\t  /b/x ONLINE 4 0 0\n")
    ["tank", "tank/x", "tank/logs/x", "tank/logs", "tank/logs/x"] (by decide +kernel)
  refine ⟨status, hread, ?_⟩
  rw [hnames]
  decide

end PoolStatus

end PoolGauge
