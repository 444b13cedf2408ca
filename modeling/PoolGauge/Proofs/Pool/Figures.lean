import Mathlib.Data.String.Basic
import PoolGauge.Pool.Basic
import PoolGauge.Proofs.Pool.Rows
import PoolGauge.Proofs.Text.Fields

/-!
# The figures of a pool

A status counts nothing but errors. The other figures of a vdev stand in lines under its label, and
those of the root under one of two words if there are any; of the lines with one property the last
one counts whose value is a counter. Attaching figures changes these figures and nothing else.
-/
namespace PoolGauge

open Text (field? toldValue? field?_isSome_iff field?_of_fields field?_two_eq_none)

section Errors

/-- No operations, bytes or space have been counted. -/
structure VdevStats.Uncounted (s : VdevStats) : Prop where
  readOps : s.readOps = 0
  writeOps : s.writeOps = 0
  readBytes : s.readBytes = 0
  writeBytes : s.writeBytes = 0
  allocSpace : s.allocSpace = 0
  totalSpace : s.totalSpace = 0

theorem StatusRow.uncounted_of_read? {line : List Char} {row : StatusRow}
    (h : read? line = some row) : row.errors.Uncounted := by
  obtain ⟨rest, label, cells, -, -, rfl⟩ := read?_eq_some h
  exact ⟨rfl, rfl, rfl, rfl, rfl, rfl⟩

/-- Every vdev is what its row tells: the root, a section, or what is below one. -/
theorem VdevTree.Follows.exists_entry_eq {t : VdevTree} {pool : String} {rows : List StatusRow}
    (f : t.Follows pool rows) {i : Nat} {v : Vdev} (hv : t.get? i = some v) :
    ∃ row ∈ rows, i = 0 ∧ v.entry = ⟨pool, .root, row.health, row.errors⟩ ∨ i ≠ 0 ∧
      ((∃ kind, VdevKind.ofSection? row.label = some kind ∧
        v.entry = row.sectionEntry kind t.root.state) ∨ v.entry = row.entry) := by
  have hi : i < rows.length := f.size ▸ lt_size_of_get? hv
  have hrow : rows[i]? = some rows[i] := List.getElem?_eq_getElem hi
  refine ⟨rows[i], List.getElem_mem hi, ?_⟩
  by_cases hzero : i = 0
  · subst hzero
    obtain ⟨row, hroot, -, -, w, hw, hentry, -⟩ := f.root
    obtain rfl := Option.some.inj (hrow.symm.trans hroot)
    obtain rfl := Option.some.inj (hv.symm.trans hw)
    exact .inl ⟨rfl, hentry⟩
  · refine .inr ⟨hzero, ?_⟩
    cases hdepth : rows[i].depth with
    | zero =>
      obtain ⟨w, kind, hw, hkind, hentry, -⟩ := f.opened hrow hzero hdepth
      obtain rfl := Option.some.inj (hv.symm.trans hw)
      exact .inl ⟨kind, hkind, hentry⟩
    | succ above =>
      obtain ⟨w, p, hw, hentry, -⟩ := f.nested hrow hdepth
      obtain rfl := Option.some.inj (hv.symm.trans hw)
      exact .inr hentry

/-- Every vdev has the error counts of its row as its figures. -/
theorem VdevTree.Follows.exists_stats_eq {t : VdevTree} {pool : String} {rows : List StatusRow}
    (f : t.Follows pool rows) {i : Nat} {v : Vdev} (hv : t.get? i = some v) :
    ∃ row ∈ rows, v.stats = row.errors := by
  obtain ⟨row, hrow, hentry⟩ := f.exists_entry_eq hv
  refine ⟨row, hrow, ?_⟩
  rcases hentry with ⟨-, hentry⟩ | ⟨-, ⟨kind, -, hentry⟩ | hentry⟩ <;>
    exact congrArg VdevEntry.stats hentry

/-- A status counts nothing but errors. -/
theorem PoolStatus.uncounted_of_read {pool output : String} {status : PoolStatus}
    (h : read pool output = .ok status) {v : Vdev} (hv : v ∈ status.vdevs.toList) :
    v.stats.Uncounted := by
  obtain ⟨rows, hrows, -, hfollows, -⟩ := exists_follows_of_read h
  obtain ⟨i, hi⟩ := VdevTree.mem_toList_iff.mp hv
  obtain ⟨row, hrow, hstats⟩ := hfollows.exists_stats_eq hi
  have hsome : some row ∈ (tableLines output).map StatusRow.read? := by
    rw [hrows]
    exact List.mem_map_of_mem hrow
  obtain ⟨line, -, hline⟩ := List.mem_map.mp hsome
  rw [hstats]
  exact StatusRow.uncounted_of_read? hline

end Errors

section Kinds

theorem VdevKind.ne_root_of_ofSection? {word : String} {kind : VdevKind}
    (h : ofSection? word = some kind) : kind ≠ .root := by
  unfold ofSection? at h
  split at h <;> simp_all <;> subst h <;> decide

theorem VdevKind.ne_root_of_ofGroupWord? {word : String} {kind : VdevKind}
    (h : ofGroupWord? word = some kind) : kind ≠ .root := by
  unfold ofGroupWord? at h
  split at h <;> simp_all <;> subst h <;> decide

theorem VdevKind.ofPlainLabel_ne_root (label : List Char) : ofPlainLabel label ≠ .root := by
  unfold ofPlainLabel
  split
  · decide
  · split <;> decide

theorem VdevKind.ofLabel_ne_root (label : String) : ofLabel label ≠ .root := by
  rw [ofLabel]
  cases hgroup : (groupWord? label.toList).bind fun word => ofGroupWord? (String.ofList word) with
  | none => exact ofPlainLabel_ne_root label.toList
  | some kind =>
    obtain ⟨word, -, hkind⟩ := Option.bind_eq_some_iff.mp hgroup
    exact ne_root_of_ofGroupWord? hkind

/-- No label and no section makes a vdev a root but the first row. -/
theorem PoolStatus.kind_eq_root_iff {pool output : String} {status : PoolStatus}
    (h : read pool output = .ok status) {i : Nat} {v : Vdev} (hv : status.vdevs.get? i = some v) :
    v.kind = .root ↔ i = 0 := by
  obtain ⟨rows, -, -, hfollows, -⟩ := exists_follows_of_read h
  obtain ⟨row, -, ⟨hi, hentry⟩ | ⟨hi, hentry⟩⟩ := hfollows.exists_entry_eq hv
  · exact iff_of_true (congrArg VdevEntry.kind hentry) hi
  · refine iff_of_false (fun hroot => ?_) hi
    obtain ⟨kind, hkind, hentry⟩ | hentry := hentry
    · have hsame : v.kind = kind := congrArg VdevEntry.kind hentry
      exact VdevKind.ne_root_of_ofSection? hkind (hsame.symm.trans hroot)
    · have hsame : v.kind = .ofLabel row.label := congrArg VdevEntry.kind hentry
      exact VdevKind.ofLabel_ne_root row.label (hsame.symm.trans hroot)

end Kinds

section Lines

/-- The figure that a line gives for a property under a label. -/
def toldFigure? (label property : String) (line : List Char) : Option UInt64 :=
  (toldValue? label property line).bind Number.readWord

/-- The last figure that lines give for a property under a label, zero if they give none. -/
def lastFigure (lines : List (List Char)) (label property : String) : UInt64 :=
  (lines.filterMap (toldFigure? label property)).getLast?.getD 0

def HasFigures (lines : List (List Char)) (label : String) : Prop :=
  ∃ line ∈ lines, field? line 0 = some label.toList ∧
    ((field? line 2).bind Number.readWord).isSome

instance (lines : List (List Char)) (label : String) : Decidable (HasFigures lines label) :=
  inferInstanceAs (Decidable (∃ line ∈ lines, _))

/-- The label under which the figures of a vdev stand: its own one, but for the root one of two
words if there are any figures under it. -/
def figuresLabel (lines : List (List Char)) (i : Nat) (label : String) : String :=
  if i ≠ 0 then label
  else if HasFigures lines "root-0" then "root-0"
  else if HasFigures lines "root" then "root"
  else label

def Vdev.withFigures (v : Vdev) (figure : String → UInt64) : Vdev :=
  { v with stats :=
    { v.stats with
      readOps := figure "read_ops"
      writeOps := figure "write_ops"
      readBytes := figure "read_bytes"
      writeBytes := figure "write_bytes"
      allocSpace := figure "allocated"
      totalSpace := figure "size" } }

theorem Vdev.withFigures_zero {v : Vdev} (h : v.stats.Uncounted) :
    v.withFigures (fun _ => 0) = v := by
  obtain ⟨label, name, kind, state, ⟨_, _, _, _, _, _, _, _, _⟩, parent, children⟩ := v
  obtain ⟨rfl, rfl, rfl, rfl, rfl, rfl⟩ := h
  rfl

variable {line : List Char} {lines : List (List Char)} {label property : String}
  {row : PropertyRow}

theorem PropertyRow.read?_eq_some_iff : PropertyRow.read? line = some row ↔
    field? line 0 = some row.label.toList ∧ field? line 1 = some row.property.toList ∧
      (field? line 2).bind Number.readWord = some row.value := by
  rw [PropertyRow.read?]
  split
  · rename_i first second third rest hfields
    obtain ⟨label, property, value⟩ := row
    obtain ⟨hfirst, hsecond, hthird⟩ := field?_of_fields hfields
    rw [hfirst, hsecond, hthird, Option.map_eq_some_iff]
    simp only [PropertyRow.mk.injEq, String.ofList_eq, Option.some.injEq, Option.bind_some]
    constructor
    · rintro ⟨n, hn, hlabel, hproperty, rfl⟩
      exact ⟨hlabel, hproperty, hn⟩
    · rintro ⟨hlabel, hproperty, hn⟩
      exact ⟨value, hn, hlabel, hproperty, rfl⟩
  · rename_i hfields
    simp [field?_two_eq_none hfields]

/-- A line gives a figure if it is a row with the label and the property. -/
theorem toldFigure?_eq (label property : String) (line : List Char) :
    toldFigure? label property line = (PropertyRow.read? line).bind fun row =>
      if row.label = label ∧ row.property = property then some row.value else none := by
  refine Option.ext fun value => ?_
  simp only [toldFigure?, toldValue?, Option.bind_eq_some_iff, PropertyRow.read?_eq_some_iff,
    Option.ite_none_right_eq_some, Option.some.injEq]
  constructor
  · rintro ⟨text, ⟨⟨hfirst, hsecond⟩, hthird⟩, hvalue⟩
    exact ⟨⟨label, property, value⟩, ⟨hfirst, hsecond, text, hthird, hvalue⟩, ⟨rfl, rfl⟩, rfl⟩
  · rintro ⟨_, ⟨hfirst, hsecond, text, hthird, hvalue⟩, ⟨rfl, rfl⟩, rfl⟩
    exact ⟨text, ⟨⟨hfirst, hsecond⟩, hthird⟩, hvalue⟩

theorem lastFigure_eq_zero (h : ¬ HasFigures lines label) (property : String) :
    lastFigure lines label property = 0 := by
  have hnone : lines.filterMap (toldFigure? label property) = [] := by
    rw [List.filterMap_eq_nil_iff]
    intro line hline
    rw [Option.eq_none_iff_forall_ne_some]
    intro n hn
    obtain ⟨value, hvalue, hcount⟩ := Option.bind_eq_some_iff.mp hn
    obtain ⟨⟨hlabel, -⟩, hthird⟩ := Option.ite_none_right_eq_some.mp hvalue
    refine h ⟨line, hline, hlabel, ?_⟩
    rw [hthird, Option.bind_some, hcount]
    rfl
  rw [lastFigure, hnone]
  rfl

end Lines

namespace VdevProperties

variable {text : String} {p : VdevProperties} {v : Vdev}

theorem covers_read_iff {label : String} :
    (read text).covers label = true ↔ HasFigures (Text.lines text.toList) label := by
  simp only [covers, read, List.any_eq_true, List.mem_filterMap, PropertyRow.read?_eq_some_iff,
    beq_iff_eq]
  constructor
  · rintro ⟨row, ⟨line, hline, hfirst, -, hvalue⟩, rfl⟩
    exact ⟨line, hline, hfirst, by rw [hvalue]; rfl⟩
  · rintro ⟨line, hline, hfirst, hvalue⟩
    obtain ⟨n, hn⟩ := Option.isSome_iff_exists.mp hvalue
    obtain ⟨third, hthird, -⟩ := Option.bind_eq_some_iff.mp hn
    have hlength := field?_isSome_iff.mp (Option.isSome_of_eq_some hthird)
    obtain ⟨second, hsecond⟩ := Option.isSome_iff_exists.mp
      (field?_isSome_iff.mpr (show 1 < (Text.fields line).length by omega))
    refine ⟨⟨label, String.ofList second, n⟩, ⟨line, hline, hfirst, ?_, hn⟩, rfl⟩
    rw [hsecond, String.toList_ofList]

theorem get?_read (text label property : String) : (read text).get? label property =
    ((Text.lines text.toList).filterMap (toldFigure? label property)).getLast? := by
  rw [get?, List.findRev?_eq_find?_reverse, ← List.getLast?_filter, ← List.getLast?_map, read]
  congr 1
  rw [List.filter_filterMap, List.map_filterMap]
  congr 1
  funext line
  rw [toldFigure?_eq]
  cases PropertyRow.read? line with
  | none => rfl
  | some row =>
    by_cases hrow : row.label = label ∧ row.property = property <;> simp [Option.filter, hrow]

theorem attach_eq (p : VdevProperties) (v : Vdev) : p.attach v = match p.keyOf? v with
    | none => v
    | some key => v.withFigures fun property => (p.get? key property).getD 0 := rfl

theorem keyOf?_attach (p : VdevProperties) (v : Vdev) : p.keyOf? (p.attach v) = p.keyOf? v := by
  have hsame : (p.attach v).kind = v.kind ∧ (p.attach v).label = v.label := by
    rw [attach_eq]
    split <;> exact ⟨rfl, rfl⟩
  rw [keyOf?, keysOf, hsame.1, hsame.2]
  rfl

/-- Attaching the figures again changes nothing. -/
theorem attach_attach (p : VdevProperties) (v : Vdev) : p.attach (p.attach v) = p.attach v := by
  conv_lhs => rw [attach_eq, keyOf?_attach]
  rw [attach_eq]
  cases p.keyOf? v <;> rfl

/-- The label under which figures stand is the first that has any, or else that of the vdev. -/
theorem keyOf?_read_getD {i : Nat} (hkind : v.kind = .root ↔ i = 0) (text : String) :
    ((read text).keyOf? v).getD v.label = figuresLabel (Text.lines text.toList) i v.label := by
  have hcovers : ∀ label, (read text).covers label =
      decide (HasFigures (Text.lines text.toList) label) := fun label => by
    rw [Bool.eq_iff_iff, covers_read_iff, decide_eq_true_iff]
  rw [keyOf?, keysOf, figuresLabel]
  by_cases hi : i = 0
  · rw [if_pos (hkind.mpr hi), if_neg (not_not.mpr hi)]
    simp only [List.find?, hcovers]
    by_cases hnumbered : HasFigures (Text.lines text.toList) "root-0"
    · simp [hnumbered]
    · by_cases hplain : HasFigures (Text.lines text.toList) "root"
      · simp [hnumbered, hplain]
      · by_cases hown : HasFigures (Text.lines text.toList) v.label <;>
          simp [hnumbered, hplain, hown]
  · rw [if_neg (mt hkind.mp hi), if_pos hi]
    simp only [List.find?]
    split <;> rfl

/-- A vdev gets the figures under its label. -/
theorem attach_read_eq {i : Nat} (hkind : v.kind = .root ↔ i = 0) (h : v.stats.Uncounted)
    (text : String) : (read text).attach v = v.withFigures
      (lastFigure (Text.lines text.toList) (figuresLabel (Text.lines text.toList) i v.label)) := by
  rw [← keyOf?_read_getD hkind, attach_eq]
  cases hkey : (read text).keyOf? v with
  | some key =>
    simp only [get?_read]
    rfl
  | none =>
    -- without a label that has figures they are zero, as they are before
    have hown : v.label ∈ keysOf v := by
      rw [keysOf]
      split <;> simp
    have hnone : ¬ HasFigures (Text.lines text.toList) v.label := by
      rw [← covers_read_iff]
      exact List.find?_eq_none.mp hkey v.label hown
    rw [Option.getD_none, funext (lastFigure_eq_zero hnone), Vdev.withFigures_zero h]

end VdevProperties

namespace Pool

theorem map_attach_ofStatus (name : String) (state : PoolState) (status : PoolStatus)
    (p : VdevProperties) : (ofStatus name state status (some p)).vdevs.map p.attach =
      (ofStatus name state status (some p)).vdevs := by
  change (status.vdevs.map p.attach).map p.attach = status.vdevs.map p.attach
  simp only [VdevTree.map, Array.map_map]
  congr 2
  exact funext p.attach_attach

/-- A pool has what its status tells, besides operations, bytes and space. These figures of a vdev
come from the last lines that give them, under its own label or under one of the words for the root,
and are zero if no line does. Attaching them again changes nothing. -/
theorem figures_of_last_lines {pool output : String} {status : PoolStatus}
    (h : PoolStatus.read pool output = .ok status) (name text : String) (state : PoolState) :
    let lines := Text.lines text.toList
    let p := VdevProperties.read text
    let built := ofStatus name state status (some p)
    built.name = name ∧ built.state = state ∧ built.errorCount = status.errorCount ∧
    built.vdevs.size = status.vdevs.size ∧
    (∀ i v, status.vdevs.get? i = some v → built.vdevs.get? i =
      some (v.withFigures (lastFigure lines (figuresLabel lines i v.label)))) ∧
    built.vdevs.map p.attach = built.vdevs := by
  intro lines p built
  refine ⟨rfl, rfl, rfl, size_ofStatus .., fun i v hv => ?_, map_attach_ofStatus ..⟩
  have huncounted : v.stats.Uncounted :=
    PoolStatus.uncounted_of_read h (VdevTree.mem_toList_iff.mpr ⟨i, hv⟩)
  change (status.vdevs.map p.attach).get? i = _
  rw [VdevTree.get?_map, hv, Option.map_some,
    VdevProperties.attach_read_eq (PoolStatus.kind_eq_root_iff h hv) huncounted]

/-- A root whose figures stand under the second word, as those under the first are no counters, and
a disk with a figure that a later line does not replace. -/
theorem figures_of_disk :
    let output := "\tNAME STATE\n\ttank ONLINE\n\t  sda ONLINE 0 0 2\n"
    let text := "root-0\tsize\t-\ntank\tsize\t4\nsda\tread_ops\t5\nroot\tsize\t9\n" ++
      " sda \tread_ops\t18446744073709551616\n"
    ∃ status, PoolStatus.read "tank" output = .ok status ∧ ∃ root disk,
      let built := ofStatus "tank" .active status (some (VdevProperties.read text))
      built.vdevs.get? 0 = some root ∧ root.stats.totalSpace = 9 ∧
      built.vdevs.get? 1 = some disk ∧ disk.stats.readOps = 5 ∧ disk.stats.checksumErrors = 2 := by
  intro output text
  have hvdevs : (PoolStatus.read "tank" output).toOption.map (·.vdevs.toList) =
      some [⟨"tank", "tank", .root, .online, {}, none, [1]⟩,
        ⟨"sda", "tank/sda", .disk, .online, { checksumErrors := 2 }, some 0, []⟩] := by
    decide +kernel
  obtain ⟨status, hread, hlist⟩ := exists_ok_of_toOption_map hvdevs
  have hget : ∀ i, status.vdevs.get? i = status.vdevs.toList[i]? := fun i =>
    (Array.getElem?_toList ..).symm
  rw [hlist] at hget
  obtain ⟨-, -, -, -, hfigures, -⟩ := figures_of_last_lines hread "tank" text .active
  exact ⟨status, hread, _, _, hfigures 0 _ (hget 0), by decide +kernel, hfigures 1 _ (hget 1),
    by decide +kernel, rfl⟩

end Pool

end PoolGauge
