import Mathlib.Data.List.Chain
import PoolGauge.Proofs.Pool.Grammar
import PoolGauge.Proofs.Vdev.Growth

/-!
# The branch that a table ends in

The path of a table is a branch of its tree: it leads from the root or a section down to the newest
vdev, and each vdev on it is the parent of the next. A row that is at most one level to the right of
the row before it finds its parent on this branch. So nothing is missed either where a status text
is read into an array of vdevs that is changed in place, with a stack of indices beside it.
-/
namespace PoolGauge

namespace VdevTree

variable {t u : VdevTree} {parent p i : Nat} {label : String} {kind : VdevKind}
  {state : VdevState} {stats : VdevStats}

/-- A new vdev is below its parent, and the others stay where they are. -/
theorem parentOf_push? (h : t.push? parent label kind state stats = some u) :
    u.ParentOf parent t.size ∧ ∀ {p i : Nat}, t.ParentOf p i → u.ParentOf p i := by
  obtain ⟨w, hw, -, hparent⟩ := get?_push?_size (e := ⟨label, kind, state, stats⟩) h
  refine ⟨⟨w, hw, hparent⟩, ?_⟩
  rintro p i ⟨v, hv, hp⟩
  obtain ⟨w, hw, -, hkept⟩ := get?_push?_of_some (e := ⟨label, kind, state, stats⟩) h hv
  exact ⟨w, hw, hkept.trans hp⟩

end VdevTree

namespace StatusTable

open PoolStatus

variable {t u : StatusTable} {row : StatusRow} {pool : String} {level : Nat}
  {above line : List Char} {rows : List (List Char)}

/-- The path is a branch of the tree that ends at the newest vdev, with one vdev on each level down
to that of the last row. -/
structure Branched (t : StatusTable) (level : Nat) : Prop extends t.Standing level where
  increasing : t.path.Pairwise (· < ·)
  newest : t.path.getLast? = some (t.tree.size - 1)
  linked : t.path.IsChain t.tree.ParentOf

theorem linked_ofRoot (h : ofRoot pool row = .ok t) : t.tree.Linked := by
  obtain ⟨-, -, rfl⟩ := ofRoot_eq_ok h
  exact VdevTree.linked_single pool

theorem branched_ofRoot (h : ofRoot pool row = .ok t) : t.Branched 0 := by
  refine ⟨standing_ofRoot h, ?_, ?_, ?_⟩ <;> obtain ⟨-, -, rfl⟩ := ofRoot_eq_ok h <;> simp

theorem Branched.addRow (b : t.Branched level) (h : t.addRow row = .ok u) :
    u.Branched row.depth := by
  obtain ⟨hpath, hcase⟩ := addRow_eq_ok h
  have hstay : ∀ {p i : Nat}, t.tree.ParentOf p i → u.tree.ParentOf p i := by
    obtain ⟨_, _, _, hpush⟩ := exists_push?_of_addRow h
    exact (VdevTree.parentOf_push? hpush).2
  -- the last vdev on the levels that stay is the parent of the new one
  have hparent : ∀ p ∈ (t.path.take row.depth).getLast?, u.tree.ParentOf p t.tree.size := by
    obtain ⟨hzero, -⟩ | ⟨above, parent, habove, hparent, hpush⟩ := hcase
    · simp [hzero]
    · rw [habove, List.getLast?_take]
      simpa [hparent] using (VdevTree.parentOf_push? hpush).1
  refine ⟨b.toStanding.addRow h, ?_, ?_, ?_⟩
  · rw [hpath, List.pairwise_append]
    refine ⟨b.increasing.sublist (List.take_sublist _ _), List.pairwise_singleton _ _, ?_⟩
    intro p hp i hi
    rw [List.mem_singleton.mp hi]
    exact b.inside p (List.mem_of_mem_take hp)
  · rw [hpath, size_addRow h, List.getLast?_concat, Nat.add_sub_cancel]
  · rw [hpath, List.isChain_append]
    refine ⟨(b.linked.take _).imp fun _ _ => hstay, List.isChain_singleton _, ?_⟩
    intro p hp i hi
    obtain rfl : t.tree.size = i := by simpa using hi
    exact hparent p hp

/-- Every line that is taken moves the branch, and it ends on the level of the last one. -/
theorem Branched.foldlM (b : t.Branched (indentation above)) (h : rows.foldlM addLine t = .ok u) :
    u.Branched (indentation ((above :: rows).getLast (List.cons_ne_nil _ _))) := by
  induction rows generalizing t above with
  | nil =>
    obtain rfl := Except.ok.inj h
    exact b
  | cons line rest ih =>
    rw [List.foldlM_cons] at h
    obtain ⟨middle, hline, hrest⟩ := bind_eq_ok h
    obtain ⟨row, hread, hrow⟩ := bind_eq_ok hline
    have hdepth : row.depth = indentation line := depth_of_read? (StatusRow.read?_of_read hread)
    rw [List.getLast_cons_cons]
    exact ih (hdepth ▸ b.addRow hrow) hrest

theorem branched_ofLines {root : List Char} (h : ofLines pool root rows = .ok t) :
    t.Branched (indentation ((root :: rows).getLast (List.cons_ne_nil _ _))) := by
  obtain ⟨first, hfirst, hrows⟩ := bind_eq_ok h
  obtain ⟨row, hread, hroot⟩ := bind_eq_ok hfirst
  have hdepth : row.depth = indentation root := depth_of_read? (StatusRow.read?_of_read hread)
  have hlevel : indentation root = 0 := hdepth.symm.trans (ofRoot_eq_ok hroot).1
  exact Branched.foldlM (hlevel ▸ branched_ofRoot hroot) hrows

end StatusTable

/-- Steps that read a status text. A fault in the text ends them, and so does an entry of the stack
or a vdev that is missed. -/
abbrev TableSteps := ExceptT StatusFault Steps

namespace TableSteps

/-- What the steps come to from an array of vdevs. -/
def runOn {α : Type} (steps : TableSteps α) (vdevs : Array Vdev) :
    EStateM.Result Nat (Array Vdev) (Except StatusFault α) :=
  EStateM.run (ExceptT.run steps) vdevs

def entryAt (stack : List Nat) (level : Nat) : Steps Nat :=
  match stack[level]? with
  | some i => return i
  | none => throw level

/-- The state of a section, which without a health word of its own is the root's. -/
def sectionState (row : StatusRow) : Steps VdevState :=
  if row.state.isSome then return row.health else return (← Steps.vdevAt 0).state

def setErrors (i : Nat) (errors : VdevStats) : Steps Unit := do
  let _ ← Steps.vdevAt i
  modify (·.modify i fun v => { v with stats := errors })

def readRow (line : List Char) : TableSteps StatusRow :=
  match StatusRow.read? line with
  | some row => return row
  | none => throw (.malformedRow line)

/-- Begins the array with the root, and gives the stack that leads to it. -/
def openRoot (pool : String) (row : StatusRow) : TableSteps (List Nat) :=
  if row.depth = 0 ∧ row.label = pool then do
    set (VdevTree.single pool row.health {}).nodes
    setErrors 0 row.errors
    return [0]
  else throw (.wrongRoot pool row.label)

def addSection (row : StatusRow) : TableSteps Nat :=
  match VdevKind.ofSection? row.label with
  | none => throw (.unknownSection row.label)
  | some kind => do
    let state ← sectionState row
    Steps.add ⟨⟨row.label, kind, state, {}⟩, 0⟩

/-- Adds a vdev below the one that the stack has one level above it. -/
def addMember (stack : List Nat) (row : StatusRow) : TableSteps Nat :=
  if stack.length < row.depth then throw (.detachedRow row.label)
  else do
    let parent ← entryAt stack (row.depth - 1)
    Steps.add ⟨⟨row.label, .ofLabel row.label, row.health, {}⟩, parent⟩

/-- Gives the new vdev of a row its counts, and puts it on the stack. -/
def settle (stack : List Nat) (row : StatusRow) (i : Nat) : TableSteps (List Nat) := do
  setErrors i row.errors
  return stack.take row.depth ++ [i]

def addRow (stack : List Nat) (row : StatusRow) : TableSteps (List Nat) := do
  if row.depth = 0 then settle stack row (← addSection row)
  else settle stack row (← addMember stack row)

/-- Reads the lines below the titles. There is no stack before the row of the root, and blank lines
are passed over; a blank line after it ends the table. Gives the stack, and the lines left over. -/
def readRows (pool : String) :
    Option (List Nat) → List (List Char) → TableSteps (Option (List Nat) × List (List Char))
  | stack?, [] => return (stack?, [])
  | none, line :: rest =>
    if PoolStatus.isBlankLine line then readRows pool none rest
    else do
      let stack ← openRoot pool (← readRow line)
      readRows pool (some stack) rest
  | some stack, line :: rest =>
    if PoolStatus.isBlankLine line then return (some stack, rest)
    else do
      let next ← addRow stack (← readRow line)
      readRows pool (some next) rest

/-- The number of errors in the data, if there was a table. -/
def conclude : Option (List Nat) × List (List Char) → TableSteps UInt64
  | (none, _) => throw .missingRoot
  | (some _, rest) => return PoolStatus.errorCountOf rest

/-- Reads a status text into the array, and gives the number of errors in the data. -/
def parse (pool output : String) : TableSteps UInt64 :=
  match PoolStatus.afterTitle? (Text.lines output.toList) with
  | none => throw .missingTable
  | some lines => readRows pool none lines >>= conclude

/-- From an array of vdevs the steps come to an outcome and miss nothing: they end with its fault,
or with a view of what it gives, whose tree is in the array then. -/
inductive ComesTo {α γ : Type} (steps : TableSteps α) (vdevs : Array Vdev) (tree : γ → VdevTree)
    (view : γ → α) : Except StatusFault γ → Prop
  | found {result : γ} (h : steps.runOn vdevs = .ok (.ok (view result)) (tree result).nodes) :
      ComesTo steps vdevs tree view (.ok result)
  | refused {fault : StatusFault} {left : Array Vdev}
      (h : steps.runOn vdevs = .ok (.error fault) left) :
      ComesTo steps vdevs tree view (.error fault)

variable {α β γ δ : Type} {vdevs changed : Array Vdev} {t u : VdevTree} {i level : Nat}
  {row : StatusRow} {table : StatusTable} {tree : γ → VdevTree} {view : γ → α}

section Binds

theorem runOn_bind_of_ok {first : TableSteps α} {next : α → TableSteps β} {found : α}
    (h : first.runOn vdevs = .ok (.ok found) changed) :
    (first >>= next).runOn vdevs = (next found).runOn changed :=
  Steps.run_bind_of_ok h

theorem runOn_bind_of_fault {first : TableSteps α} {next : α → TableSteps β} {fault : StatusFault}
    (h : first.runOn vdevs = .ok (.error fault) changed) :
    (first >>= next).runOn vdevs = .ok (.error fault) changed :=
  Steps.run_bind_of_ok h

theorem runOn_lift {steps : Steps α} {found : α} (h : steps.run vdevs = .ok found changed) :
    (liftM steps : TableSteps α).runOn vdevs = .ok (.ok found) changed :=
  Steps.run_bind_of_ok h

theorem ComesTo.of_runOn_eq {steps other : TableSteps α} {outcome : Except StatusFault γ}
    (hrun : steps.runOn vdevs = other.runOn changed) (h : other.ComesTo changed tree view outcome) :
    steps.ComesTo vdevs tree view outcome := by
  cases h with
  | found h => exact .found (hrun.trans h)
  | refused h => exact .refused (hrun.trans h)

/-- What follows starts from what was found before. -/
theorem ComesTo.bind {first : TableSteps α} {next : α → TableSteps β} {otherTree : δ → VdevTree}
    {otherView : δ → β} {outcome : Except StatusFault γ} {further : γ → Except StatusFault δ}
    (h : first.ComesTo vdevs tree view outcome)
    (hnext : ∀ result, outcome = .ok result →
      (next (view result)).ComesTo (tree result).nodes otherTree otherView (further result)) :
    (first >>= next).ComesTo vdevs otherTree otherView (outcome >>= further) := by
  cases h with
  | found h => exact .of_runOn_eq (runOn_bind_of_ok h) (hnext _ rfl)
  | refused h => exact .refused (runOn_bind_of_fault h)

end Binds

section Rows

theorem run_setErrors {v : Vdev} (h : vdevs[i]? = some v) (errors : VdevStats) :
    (setErrors i errors).run vdevs =
      .ok () (vdevs.modify i fun v => { v with stats := errors }) :=
  Steps.run_bind_of_ok (Steps.run_vdevAt h)

/-- To add a vdev and then give it its counts comes to adding it with them. -/
theorem run_add_setErrors (l : t.Linked) {e : VdevEntry} {parent : Nat}
    (h : t.push? parent e.label e.kind e.state e.stats = some u) : ∃ vdevs,
      (Steps.add ⟨{ e with stats := {} }, parent⟩).run t.nodes = .ok t.size vdevs ∧
      (setErrors t.size e.stats).run vdevs = .ok () u.nodes := by
  have hparent : parent < t.size := by
    by_contra hge
    rw [VdevTree.push?_eq_none_iff.mpr (by omega)] at h
    contradiction
  obtain ⟨w, hw⟩ := StatusTable.exists_push? (t := ⟨t, []⟩) hparent e.label e.kind e.state {}
  obtain ⟨above, habove, hu⟩ := VdevTree.get?_push? h
  obtain ⟨other, hother, hget⟩ := VdevTree.get?_push? hw
  obtain rfl := Option.some.inj (habove.symm.trans hother)
  refine ⟨w.nodes, ?_, ?_⟩
  · have hadd := Steps.run_add l ⟨{ e with stats := {} }, parent⟩
    rwa [VdevTree.added?, hw] at hadd
  · have hnew : w.nodes[t.size]? =
        some (t.newChild parent above e.label e.kind e.state {}) :=
      (hget t.size).trans (if_pos rfl)
    rw [run_setErrors hnew]
    congr 1
    refine Array.ext_getElem? fun i => ?_
    rw [Array.getElem?_modify]
    change _ = u.get? i
    rw [hu]
    change (if t.size = i then (w.get? i).map _ else w.get? i) = _
    rw [hget]
    by_cases hi : i = t.size
    · simp [hi, VdevTree.newChild]
    · simp [hi, Ne.symm hi]

theorem runOn_addSection (l : table.tree.Linked) {kind : VdevKind}
    (hkind : VdevKind.ofSection? row.label = some kind)
    (hpush : table.tree.push? 0 row.label kind
      (if row.state.isSome then row.health else table.tree.root.state) row.errors = some u) :
    ∃ vdevs, (addSection row).runOn table.tree.nodes = .ok (.ok table.tree.size) vdevs ∧
      (setErrors table.tree.size row.errors).run vdevs = .ok () u.nodes := by
  obtain ⟨vdevs, hadd, hset⟩ :=
    run_add_setErrors l (e := row.sectionEntry kind table.tree.root.state) hpush
  refine ⟨vdevs, ?_, hset⟩
  have hstate : (sectionState row).run table.tree.nodes =
      .ok (if row.state.isSome then row.health else table.tree.root.state) table.tree.nodes := by
    rw [sectionState]
    split
    · rfl
    · exact Steps.run_bind_of_ok (Steps.run_vdevAt table.tree.get?_zero)
  simp only [addSection, hkind]
  rw [runOn_bind_of_ok (runOn_lift hstate)]
  exact runOn_lift hadd

theorem runOn_addMember (l : table.tree.Linked) {above parent : Nat}
    (habove : row.depth = above + 1) (hparent : table.path[above]? = some parent)
    (hpush : table.tree.push? parent row.label (.ofLabel row.label) row.health row.errors =
      some u) :
    ∃ vdevs, (addMember table.path row).runOn table.tree.nodes =
        .ok (.ok table.tree.size) vdevs ∧
      (setErrors table.tree.size row.errors).run vdevs = .ok () u.nodes := by
  obtain ⟨vdevs, hadd, hset⟩ := run_add_setErrors l (e := row.entry) hpush
  refine ⟨vdevs, ?_, hset⟩
  have hdeep : ¬ table.path.length < row.depth := by
    have := (List.getElem?_eq_some_iff.mp hparent).1
    omega
  have hentry : (entryAt table.path (row.depth - 1)).run table.tree.nodes =
      .ok parent table.tree.nodes := by
    rw [habove, Nat.add_sub_cancel, entryAt, hparent]
    rfl
  rw [addMember, if_neg hdeep, runOn_bind_of_ok (runOn_lift hentry)]
  exact runOn_lift hadd

theorem runOn_settle {stack : List Nat} (h : (setErrors i row.errors).run vdevs = .ok () changed) :
    (settle stack row i).runOn vdevs = .ok (.ok (stack.take row.depth ++ [i])) changed :=
  runOn_bind_of_ok (runOn_lift h)

/-- A row is added in place as it is added to the table, or refused for the same fault. -/
theorem comesTo_addRow (s : table.Standing level) (l : table.tree.Linked) (row : StatusRow) :
    ComesTo (addRow table.path row) table.tree.nodes StatusTable.tree StatusTable.path
      (table.addRow row) := by
  rw [addRow]
  rcases Nat.eq_zero_or_pos row.depth with hzero | hpos
  · rw [if_pos hzero]
    cases hkind : VdevKind.ofSection? row.label with
    | none =>
      rw [StatusTable.addRow_of_unknown hzero hkind]
      simp only [addSection, hkind]
      exact .refused rfl
    | some kind =>
      obtain ⟨tree, hpush⟩ := StatusTable.exists_push? (t := table) table.tree.nonempty row.label
        kind (if row.state.isSome then row.health else table.tree.root.state) row.errors
      obtain ⟨vdevs, hadd, hset⟩ := runOn_addSection l hkind hpush
      rw [StatusTable.addRow_of_section hzero hkind hpush]
      refine .found ?_
      rw [runOn_bind_of_ok hadd, runOn_settle hset, hzero]
      rfl
  · rw [if_neg (by omega)]
    by_cases hdeep : level + 1 < row.depth
    · rw [s.addRow_of_deep hdeep, addMember, if_pos (by rw [s.length]; exact hdeep)]
      exact .refused rfl
    · obtain ⟨above, habove⟩ : ∃ above, row.depth = above + 1 := ⟨row.depth - 1, by omega⟩
      have hlength : above < table.path.length := by
        rw [s.length]
        omega
      have hparent := List.getElem?_eq_getElem hlength
      obtain ⟨tree, hpush⟩ := StatusTable.exists_push? (s.inside _ (List.getElem_mem hlength))
        row.label (.ofLabel row.label) row.health row.errors
      obtain ⟨vdevs, hadd, hset⟩ := runOn_addMember l habove hparent hpush
      rw [StatusTable.addRow_of_path habove hparent hpush]
      refine .found ?_
      rw [runOn_bind_of_ok hadd, runOn_settle hset, habove]

theorem comesTo_openRoot (pool : String) (row : StatusRow) (vdevs : Array Vdev) :
    ComesTo (openRoot pool row) vdevs StatusTable.tree StatusTable.path
      (StatusTable.ofRoot pool row) := by
  rw [openRoot, StatusTable.ofRoot]
  split
  · exact .found rfl
  · exact .refused rfl

end Rows

section Lines

open PoolStatus

theorem runOn_readRow (line : List Char) (vdevs : Array Vdev) :
    (readRow line).runOn vdevs = .ok (StatusRow.read line) vdevs := by
  rw [readRow, StatusRow.read]
  cases StatusRow.read? line <;> rfl

/-- Steps that begin with reading a line come to what is made of its row. -/
theorem comesTo_readRow_bind (line : List Char) {next : StatusRow → TableSteps α}
    {further : StatusRow → Except StatusFault γ}
    (h : ∀ row, (next row).ComesTo vdevs tree view (further row)) :
    (readRow line >>= next).ComesTo vdevs tree view (StatusRow.read line >>= further) := by
  have hline := runOn_readRow line vdevs
  cases hread : StatusRow.read line with
  | error fault =>
    rw [hread] at hline
    exact .refused (runOn_bind_of_fault hline)
  | ok row =>
    rw [hread] at hline
    exact .of_runOn_eq (runOn_bind_of_ok hline) (h row)

/-- What a blank line leaves over of lines that it ends. -/
def afterTable (lines : List (List Char)) : List (List Char) :=
  (lines.dropWhile (!isBlankLine ·)).drop 1

/-- The rows below the root's are read in place as they are added to the table, up to a blank line
or the first fault. -/
theorem comesTo_readRows_some (s : table.Standing level) (l : table.tree.Linked) (pool : String)
    (lines : List (List Char)) :
    (readRows pool (some table.path) lines).ComesTo table.tree.nodes StatusTable.tree
      (fun last => (some last.path, afterTable lines))
      ((lines.takeWhile (!isBlankLine ·)).foldlM StatusTable.addLine table) := by
  induction lines generalizing table level with
  | nil => exact .found rfl
  | cons line rest ih =>
    rw [readRows, afterTable]
    by_cases hblank : isBlankLine line = true
    · rw [if_pos hblank, List.takeWhile_cons_of_neg (by simp [hblank]),
        List.dropWhile_cons_of_neg (by simp [hblank])]
      exact .found rfl
    · rw [if_neg hblank, List.takeWhile_cons_of_pos (by simp [hblank]),
        List.dropWhile_cons_of_pos (by simp [hblank]), List.foldlM_cons, StatusTable.addLine,
        bind_assoc]
      refine comesTo_readRow_bind line fun row => (comesTo_addRow s l row).bind fun next hnext => ?_
      exact ih (s.addRow hnext) (StatusTable.linked_addRow l hnext)

theorem readRows_none_dropWhile (pool : String) (lines : List (List Char)) :
    readRows pool none (lines.dropWhile isBlankLine) = readRows pool none lines := by
  induction lines with
  | nil => rfl
  | cons line rest ih =>
    by_cases hblank : isBlankLine line = true
    · rw [List.dropWhile_cons_of_pos hblank, ih, readRows, if_pos hblank]
    · rw [List.dropWhile_cons_of_neg hblank]

/-- A status text is read in place as the status is told from it. -/
theorem comesTo_parse (pool output : String) :
    (parse pool output).ComesTo #[] PoolStatus.vdevs PoolStatus.errorCount
      (PoolStatus.parse pool output) := by
  rw [parse, PoolStatus.parse]
  cases afterTitle? (Text.lines output.toList) with
  | none => exact .refused rfl
  | some lines =>
    simp only
    rw [ofLines, ← readRows_none_dropWhile]
    cases hlines : lines.dropWhile isBlankLine with
    | nil => exact .refused rfl
    | cons first rest =>
      have hwritten : ¬ isBlankLine first = true := by
        have := List.head?_dropWhile_not isBlankLine lines
        simpa [hlines] using this
      simp only
      rw [readRows, if_neg hwritten, bind_assoc, bind_assoc]
      refine comesTo_readRow_bind first fun row => ?_
      rw [bind_assoc]
      refine (comesTo_openRoot pool row #[]).bind fun root hroot => ?_
      have hrows := comesTo_readRows_some (StatusTable.standing_ofRoot hroot)
        (StatusTable.linked_ofRoot hroot) pool rest
      exact hrows.bind fun last _ => .found rfl

end Lines

end TableSteps

namespace PoolStatus

/-- The rows that have been read have led down a branch of the tree to the newest vdev. A row on no
level that they have not led to has its parent there, and what it adds is in the tree. So a status
text is read in place without missing any vdev or any entry of the stack, and what is told from it
or wrong with it is the same. -/
theorem reading_misses_nothing (pool output : String) :
    (∀ root rows t, StatusTable.ofLines pool root rows = .ok t →
      t.Branched (indentation ((root :: rows).getLast (List.cons_ne_nil _ _))) ∧
      ∀ row : StatusRow,
        (1 ≤ row.depth → row.depth ≤ t.path.length →
          ∃ p, t.path[row.depth - 1]? = some p ∧ p < t.tree.size) ∧
        ∀ u, t.addRow row = .ok u → t.tree.size < u.tree.size) ∧
    (TableSteps.parse pool output).ComesTo #[] vdevs errorCount (parse pool output) := by
  refine ⟨fun root rows t ht => ?_, TableSteps.comesTo_parse pool output⟩
  have branch := StatusTable.branched_ofLines ht
  refine ⟨branch, fun row => ⟨fun hpos hdepth => ?_, fun u hu => ?_⟩⟩
  · have hlevel : row.depth - 1 < t.path.length := by omega
    exact ⟨_, List.getElem?_eq_getElem hlevel, branch.inside _ (List.getElem_mem hlevel)⟩
  · rw [StatusTable.size_addRow hu]
    exact Nat.lt_succ_self _

/-- A table with a group, a disk beside it, and a section with a group. -/
def groupedLogs : String :=
  "\tNAME STATE\n\ttank ONLINE\n\t  mirror-0 ONLINE\n\t    sda ONLINE\n\t  sdb ONLINE\n" ++
    "\tlogs\n\t  mirror-1 ONLINE\n\t    sdc ONLINE 1 2 3\n"

/-- After the last row the branch leads from the section through its group to the disk. -/
theorem reading_of_groupedLogs : ∃ root rows t, tableLines groupedLogs = root :: rows ∧
    StatusTable.ofLines "tank" root rows = .ok t ∧ t.path = [4, 5, 6] ∧ t.Branched 2 ∧
    t.tree.ParentOf 5 6 ∧
    (TableSteps.parse "tank" groupedLogs).ComesTo #[] vdevs errorCount
      (parse "tank" groupedLogs) := by
  obtain ⟨hrows, hreading⟩ := reading_misses_nothing "tank" groupedLogs
  obtain ⟨t, htable, hpath⟩ := exists_ok_of_toOption_map (show (StatusTable.ofLines "tank"
    "\ttank ONLINE".toList (tableLines groupedLogs).tail).toOption.map StatusTable.path =
      some [4, 5, 6] by decide +kernel)
  obtain ⟨branch, -⟩ := hrows _ _ t htable
  have hlevel : indentation (("\ttank ONLINE".toList ::
      (tableLines groupedLogs).tail).getLast (List.cons_ne_nil _ _)) = 2 := by decide +kernel
  rw [hlevel] at branch
  have hlinked := branch.linked
  rw [hpath] at hlinked
  have hparent : t.tree.ParentOf 5 6 := (List.isChain_cons_cons.mp hlinked.tail).1
  exact ⟨_, _, t, by decide +kernel, htable, hpath, branch, hparent, hreading⟩

end PoolStatus

end PoolGauge
