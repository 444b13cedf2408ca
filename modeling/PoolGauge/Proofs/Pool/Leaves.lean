import PoolGauge.Proofs.Pool.Grammar

/-!
# Devices and the rows below them

Whether a vdev is a device comes from its label, what is below it from the indentation. Nothing ties
one to the other: a row that is one level further right than the row of a device is put below the
device. So the devices of an accepted table have no children just if no such row follows one of
theirs.
-/
namespace PoolGauge

section Levels

variable {rows : List StatusRow}

/-- If there is a row to the right of another one and no row on the level of that one is between
them, the next row is one level further right. -/
theorem Nested.next_onLevel {bound p i level depth : Nat} (h : Nested bound rows)
    (hp : (rows.map StatusRow.depth)[p]? = some level) (hlt : p < i)
    (hi : (rows.map StatusRow.depth)[i]? = some depth) (hdeep : level < depth)
    (hbetween : ∀ j, p < j → j < i → (rows.map StatusRow.depth)[j]? ≠ some level) :
    (rows.map StatusRow.depth)[p + 1]? = some (level + 1) := by
  induction i generalizing depth with
  | zero => omega
  | succ n ih =>
    by_cases hnext : n = p
    · subst hnext
      have hstep := h.depth_le_succ hp hi
      rw [hi, show depth = level + 1 by omega]
    · have hlength : n + 1 < (rows.map StatusRow.depth).length :=
        (List.getElem?_eq_some_iff.mp hi).1
      have hn : (rows.map StatusRow.depth)[n]? = some (rows.map StatusRow.depth)[n] :=
        List.getElem?_eq_getElem _
      have hstep := h.depth_le_succ hn hi
      have hne : (rows.map StatusRow.depth)[n] ≠ level := fun heq =>
        hbetween n (by omega) (by omega) (heq ▸ hn)
      exact ih (by omega) hn (by omega) fun j hj hjn => hbetween j hj (by omega)

namespace VdevTree.Follows

variable {t : VdevTree} {pool : String} {i level : Nat} {row : StatusRow} {v : Vdev}

theorem exists_row (f : t.Follows pool rows) (hv : t.get? i = some v) :
    ∃ row, rows[i]? = some row :=
  ⟨_, List.getElem?_eq_getElem (f.size ▸ lt_size_of_get? hv)⟩

/-- A vdev is a device if its row is below the root's level and its label names no group. -/
theorem isLeaf_iff (f : t.Follows pool rows) (hrow : rows[i]? = some row)
    (hv : t.get? i = some v) :
    v.kind.isLeaf = true ↔ 0 < row.depth ∧ (VdevKind.ofLabel row.label).isLeaf = true := by
  have hkind : ∀ {w : Vdev} {e : VdevEntry}, t.get? i = some w → w.entry = e → v.kind = e.kind := by
    rintro w e hw rfl
    rw [Option.some.inj (hv.symm.trans hw)]
    rfl
  rcases Nat.eq_zero_or_pos row.depth with hzero | hpos
  · refine iff_of_false ?_ fun h => absurd hzero h.1.ne'
    by_cases hroot : i = 0
    · subst hroot
      obtain ⟨_, -, -, -, w, hw, hentry, -⟩ := f.root
      rw [hkind hw hentry]
      exact Bool.false_ne_true
    · obtain ⟨w, kind, hw, hsection, hentry, -⟩ := f.opened hrow hroot hzero
      rw [hkind hw hentry, StatusRow.sectionEntry, VdevKind.not_isLeaf_of_ofSection? hsection]
      exact Bool.false_ne_true
  · obtain ⟨above, habove⟩ : ∃ above, row.depth = above + 1 := ⟨row.depth - 1, by omega⟩
    obtain ⟨w, _, hw, hentry, -⟩ := f.nested hrow habove
    rw [hkind hw hentry, StatusRow.entry]
    exact (and_iff_right hpos).symm

/-- A row that is one level further right than the row before it is put below that row. -/
theorem parentOf_succ (f : t.Follows pool rows) (hi : (rows.map StatusRow.depth)[i]? = some level)
    (hnext : (rows.map StatusRow.depth)[i + 1]? = some (level + 1)) : t.ParentOf i (i + 1) := by
  rw [List.getElem?_map, Option.map_eq_some_iff] at hnext
  obtain ⟨row, hrow, hdepth⟩ := hnext
  obtain ⟨v, p, hv, -, hp, hnearest⟩ := f.nested hrow hdepth
  have hle : i ≤ p := hnearest.le_of_level hi (Nat.lt_succ_self i)
  obtain rfl : p = i := Nat.le_antisymm (Nat.le_of_lt_succ hnearest.above) hle
  exact ⟨v, hv, hp⟩

/-- A row below the root's level has a row below it just if the next one is one level further
right. -/
theorem exists_parentOf_iff (f : t.Follows pool rows) (h : Nested 0 rows)
    (hi : (rows.map StatusRow.depth)[i]? = some (level + 1)) :
    (∃ j, t.ParentOf i j) ↔ (rows.map StatusRow.depth)[i + 1]? = some (level + 2) := by
  have hne : i ≠ 0 := by
    rintro rfl
    obtain ⟨root, hroot, hdepth, -⟩ := f.root
    rw [List.getElem?_map, hroot, Option.map_some, hdepth] at hi
    exact absurd (Option.some.inj hi) (Nat.succ_ne_zero level).symm
  constructor
  · rintro ⟨j, v, hv, hparent⟩
    obtain ⟨row, hrow⟩ := f.exists_row hv
    have hparents : ∀ {w : Vdev} {q : Option Nat}, t.get? j = some w → w.parent = q →
        q = some i := by
      rintro w q hw rfl
      rw [← Option.some.inj (hv.symm.trans hw), hparent]
    rcases Nat.eq_zero_or_pos row.depth with hzero | hpos
    · -- a row on the root's level is the root or below it
      by_cases hroot : j = 0
      · subst hroot
        obtain ⟨_, -, -, -, w, hw, -, hnone⟩ := f.root
        exact absurd (hparents hw hnone).symm (Option.some_ne_none i)
      · obtain ⟨w, _, hw, -, -, htop⟩ := f.opened hrow hroot hzero
        exact absurd (Option.some.inj (hparents hw htop)).symm hne
    · obtain ⟨above, habove⟩ : ∃ above, row.depth = above + 1 := ⟨row.depth - 1, by omega⟩
      obtain ⟨w, p, hw, -, hp, hnearest⟩ := f.nested hrow habove
      obtain rfl : p = i := Option.some.inj (hparents hw hp)
      obtain rfl : above = level + 1 := Option.some.inj (hnearest.onLevel.symm.trans hi)
      exact h.next_onLevel hi hnearest.above (by rw [List.getElem?_map, hrow, Option.map_some])
        (by omega) hnearest.nearest
  · exact fun hnext => ⟨i + 1, f.parentOf_succ hi hnext⟩

end VdevTree.Follows

end Levels

theorem VdevTree.Linked.children_eq_nil_iff {t : VdevTree} (l : t.Linked) {i : Nat} {v : Vdev}
    (hv : t.get? i = some v) : v.children = [] ↔ ¬ ∃ j, t.ParentOf i j := by
  rw [List.eq_nil_iff_forall_not_mem, not_exists]
  exact forall_congr' fun j => not_congr (l.children hv j)

namespace PoolStatus

/-- The line is the row of a device: it is below the root's level, and its label names no group. -/
def DeviceLine (line : List Char) : Prop :=
  0 < indentation line ∧
    ∃ label ∈ firstCell? line, (VdevKind.ofLabel (String.ofList label)).isLeaf = true

instance (line : List Char) : Decidable (DeviceLine line) :=
  inferInstanceAs (Decidable (_ ∧ _))

theorem deviceLine_iff {line : List Char} {row : StatusRow} (h : StatusRow.read? line = some row) :
    DeviceLine line ↔ 0 < row.depth ∧ (VdevKind.ofLabel row.label).isLeaf = true := by
  have hcell : firstCell? line = some row.label.toList := by
    obtain ⟨rest, label, cells, rfl, hwords, rfl⟩ := StatusRow.read?_eq_some h
    rw [firstCell?, Text.words_cons_of_isBlank (by rfl), hwords, String.toList_ofList]
    rfl
  rw [DeviceLine, hcell, depth_of_read? h]
  simp

section Lines

variable {lines : List (List Char)} {rows : List StatusRow} {i : Nat}

theorem row_of_line (h : lines.map StatusRow.read? = rows.map some) {line : List Char}
    (hi : lines[i]? = some line) :
    ∃ row, rows[i]? = some row ∧ StatusRow.read? line = some row := by
  have heq := congrArg (·[i]?) h
  simp only [List.getElem?_map, hi, Option.map_some] at heq
  obtain ⟨row, hrow, hread⟩ := Option.map_eq_some_iff.mp heq.symm
  exact ⟨row, hrow, hread.symm⟩

theorem line_of_row (h : lines.map StatusRow.read? = rows.map some) {row : StatusRow}
    (hi : rows[i]? = some row) :
    ∃ line, lines[i]? = some line ∧ StatusRow.read? line = some row := by
  have heq := congrArg (·[i]?) h
  simp only [List.getElem?_map, hi, Option.map_some] at heq
  exact Option.map_eq_some_iff.mp heq

variable {t : VdevTree} {pool : String}

/-- A row further right than that of a device before it is put below the device. -/
theorem parentOf_of_deviceLine (f : t.Follows pool rows) (hnested : Nested 0 rows)
    (h : lines.map StatusRow.read? = rows.map some) {above line : List Char}
    (habove : lines[i]? = some above) (hline : lines[i + 1]? = some line)
    (hdevice : DeviceLine above) (hright : indentation above < indentation line) :
    ∃ v, t.get? i = some v ∧ v.kind.isLeaf = true ∧ t.ParentOf i (i + 1) := by
  obtain ⟨row, hrow, hread⟩ := row_of_line h habove
  obtain ⟨next, hnext, hreadNext⟩ := row_of_line h hline
  rw [← depth_of_read? hread, ← depth_of_read? hreadNext] at hright
  have hdepth : (rows.map StatusRow.depth)[i]? = some row.depth := by
    rw [List.getElem?_map, hrow, Option.map_some]
  have hdepthNext : (rows.map StatusRow.depth)[i + 1]? = some next.depth := by
    rw [List.getElem?_map, hnext, Option.map_some]
  have hstep := hnested.depth_le_succ hdepth hdepthNext
  obtain ⟨v, hv⟩ : ∃ v, t.get? i = some v := by
    rw [← Option.isSome_iff_exists, Option.isSome_iff_ne_none, Ne, VdevTree.get?_eq_none_iff,
      f.size, Nat.not_le]
    exact (List.getElem?_eq_some_iff.mp hrow).1
  refine ⟨v, hv, (f.isLeaf_iff hrow hv).mpr ((deviceLine_iff hread).mp hdevice), ?_⟩
  exact f.parentOf_succ hdepth (by rw [hdepthNext, show next.depth = row.depth + 1 by omega])

/-- A device with a child has its row before one that is further right. -/
theorem exists_deviceLine_of_parentOf (f : t.Follows pool rows) (hnested : Nested 0 rows)
    (h : lines.map StatusRow.read? = rows.map some) {v : Vdev} (hv : t.get? i = some v)
    (hleaf : v.kind.isLeaf = true) {j : Nat} (hchild : t.ParentOf i j) :
    ∃ above line, lines[i]? = some above ∧ lines[i + 1]? = some line ∧ DeviceLine above ∧
      indentation above < indentation line := by
  obtain ⟨row, hrow⟩ := f.exists_row hv
  obtain ⟨hpos, hlabel⟩ := (f.isLeaf_iff hrow hv).mp hleaf
  obtain ⟨level, hlevel⟩ : ∃ level, row.depth = level + 1 := ⟨row.depth - 1, by omega⟩
  have hnext := (f.exists_parentOf_iff hnested
    (by rw [List.getElem?_map, hrow, Option.map_some, hlevel])).mp ⟨j, hchild⟩
  rw [List.getElem?_map, Option.map_eq_some_iff] at hnext
  obtain ⟨next, hnext, hdepth⟩ := hnext
  obtain ⟨above, habove, hread⟩ := line_of_row h hrow
  obtain ⟨line, hline, hreadNext⟩ := line_of_row h hnext
  refine ⟨above, line, habove, hline, (deviceLine_iff hread).mpr ⟨hpos, hlabel⟩, ?_⟩
  rw [← depth_of_read? hread, ← depth_of_read? hreadNext, hlevel, hdepth]
  exact Nat.lt_succ_self _

end Lines

/-- The devices of an accepted table have no children just if no row is further right than that of a
device before it. Otherwise this row is put below the device. -/
theorem leaves_childless_iff {pool output : String} {status : PoolStatus}
    (h : read pool output = .ok status) :
    ((∀ v ∈ status.vdevs.leaves, v.children = []) ↔
      (tableLines output).IsChain fun above line =>
        DeviceLine above → indentation line ≤ indentation above) ∧
    ∀ i above line, (tableLines output)[i]? = some above → (tableLines output)[i + 1]? = some line →
      DeviceLine above → indentation above < indentation line →
        ∃ v, status.vdevs.get? i = some v ∧ v.kind.isLeaf = true ∧
          status.vdevs.ParentOf i (i + 1) := by
  obtain ⟨rows, hread, hnested, hfollows, -⟩ := exists_follows_of_read h
  have hlinked := (grown_of_read h).linked
  refine ⟨⟨fun hleaves => ?_, fun hchain v hleaf => ?_⟩,
    fun _ _ _ => parentOf_of_deviceLine hfollows hnested hread⟩
  · rw [List.isChain_iff_getElem]
    intro i hi hdevice
    by_contra hright
    obtain ⟨v, hv, hleaf, hparent⟩ := parentOf_of_deviceLine hfollows hnested hread
      (List.getElem?_eq_getElem (Nat.lt_of_succ_lt hi)) (List.getElem?_eq_getElem hi) hdevice
      (Nat.lt_of_not_le hright)
    have hmem : v ∈ status.vdevs.leaves :=
      List.mem_filter.mpr ⟨VdevTree.mem_toList_iff.mpr ⟨i, hv⟩, hleaf⟩
    exact (hlinked.children_eq_nil_iff hv).mp (hleaves v hmem) ⟨i + 1, hparent⟩
  · obtain ⟨hmem, hkind⟩ := List.mem_filter.mp hleaf
    obtain ⟨i, hv⟩ := VdevTree.mem_toList_iff.mp hmem
    rw [hlinked.children_eq_nil_iff hv]
    rintro ⟨j, hparent⟩
    obtain ⟨above, line, habove, hline, hdevice, hright⟩ :=
      exists_deviceLine_of_parentOf hfollows hnested hread hv hkind hparent
    obtain ⟨hi, rfl⟩ := List.getElem?_eq_some_iff.mp habove
    obtain ⟨hnext, rfl⟩ := List.getElem?_eq_some_iff.mp hline
    exact absurd (List.isChain_iff_getElem.mp hchain i hnext hdevice) (Nat.not_le_of_lt hright)

def devices? (pool output : String) : Option (List (String × List Nat)) :=
  (read pool output).toOption.map fun status =>
    status.vdevs.leaves.map fun v => (v.name, v.children)

theorem exists_read_of_devices? {pool output : String} {devices : List (String × List Nat)}
    (h : devices? pool output = some devices) : ∃ status, read pool output = .ok status ∧
      status.vdevs.leaves.map (fun v => (v.name, v.children)) = devices :=
  exists_ok_of_toOption_map h

/-- A table with a group in a group and a section, in which every device ends its branch. -/
def groupedDevices : String :=
  "\tNAME STATE\n\ttank ONLINE\n\t  mirror-0 ONLINE\n\t    spare-0 ONLINE\n" ++
    "\t      sda ONLINE\n\t      /tmp/a.img ONLINE\n\t    sdb ONLINE\n" ++
    "\tlogs\n\t  sdc ONLINE\n"

theorem leaves_childless_of_groups : ∃ status, read "tank" groupedDevices = .ok status ∧
    status.vdevs.leaves.map Vdev.name = ["tank/mirror-0/spare-0/sda",
      "tank/mirror-0/spare-0/a.img", "tank/mirror-0/sdb", "tank/logs/sdc"] ∧
    ∀ v ∈ status.vdevs.leaves, v.children = [] := by
  obtain ⟨status, hread, hdevices⟩ := exists_read_of_devices?
    (show devices? "tank" groupedDevices = some [("tank/mirror-0/spare-0/sda", []),
      ("tank/mirror-0/spare-0/a.img", []), ("tank/mirror-0/sdb", []), ("tank/logs/sdc", [])] by
      decide +kernel)
  have hnames := congrArg (List.map Prod.fst) hdevices
  rw [List.map_map] at hnames
  exact ⟨status, hread, hnames, (leaves_childless_iff hread).1.mpr (by decide +kernel)⟩

/-- A disk with a disk below it is accepted. -/
theorem not_leaves_childless_of_disk : ∃ status,
    read "tank" ("\tNAME STATE READ WRITE CKSUM\n\ttank ONLINE 0 0 0\n\t  sda ONLINE 0 0 0\n" ++
      "\t    sdb ONLINE 0 0 0\n\nerrors: No known data errors\n") = .ok status ∧
    ∃ v ∈ status.vdevs.leaves, v.name = "tank/sda" ∧ v.children = [2] := by
  obtain ⟨status, hread, hdevices⟩ := exists_read_of_devices?
    (show devices? "tank" ("\tNAME STATE READ WRITE CKSUM\n\ttank ONLINE 0 0 0\n" ++
      "\t  sda ONLINE 0 0 0\n\t    sdb ONLINE 0 0 0\n\nerrors: No known data errors\n") =
      some [("tank/sda", [2]), ("tank/sda/sdb", [])] by decide +kernel)
  have hmem : ("tank/sda", [2]) ∈ status.vdevs.leaves.map fun v => (v.name, v.children) := by
    rw [hdevices]
    exact List.mem_cons_self
  obtain ⟨v, hv, heq⟩ := List.mem_map.mp hmem
  obtain ⟨hname, hchildren⟩ := Prod.mk.inj heq
  exact ⟨status, hread, v, hv, hname, hchildren⟩

end PoolStatus

end PoolGauge
