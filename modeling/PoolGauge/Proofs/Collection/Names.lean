import PoolGauge.Pool.Listing
import PoolGauge.Proofs.Collection.Containment
import PoolGauge.Proofs.Collection.Presence
import PoolGauge.Proofs.Pool.Printed
import PoolGauge.Proofs.Pool.Rows
import PoolGauge.Proofs.Source.Pairing

/-!
# Names that pools can have

A list separates names by tabs, so a listed name can have blanks in it. The rows of a status table
are cut at blanks and the first word of the root's row must be the whole name, so a status can only
be understood if the name of its pool has no blanks, and only then can the pool be found.
-/
namespace PoolGauge

/-- Some list of pools has the name in it. -/
def Listable (name : String) : Prop :=
  ∃ output listed, readPoolList output = .ok listed ∧ name ∈ listed.map ListedPool.name

/-- Some status text of a pool with the name can be understood. -/
def Acceptable (name : String) : Prop :=
  ∃ output status, PoolStatus.read name output = .ok status

def rootTable (name : String) : String :=
  String.join ["\tNAME STATE READ WRITE CKSUM\n\t", name,
    " ONLINE 0 0 0\n\nerrors: No known data errors\n"]

section Listing

variable {name : String}

theorem exists_read_of_mem {lines : List (List Char)} {listed : List ListedPool} {pool : ListedPool}
    (h : lines.mapM ListedPool.read = .ok listed) (hpool : pool ∈ listed) :
    ∃ line ∈ lines, ListedPool.read line = .ok pool := by
  induction lines generalizing listed with
  | nil =>
    obtain rfl := Except.ok.inj h
    contradiction
  | cons line rest ih =>
    rw [List.mapM_cons] at h
    obtain ⟨first, hfirst, hrest⟩ := bind_eq_ok h
    obtain ⟨others, hothers, hlast⟩ := bind_eq_ok hrest
    obtain rfl : first :: others = listed := Except.ok.inj hlast
    rcases List.mem_cons.mp hpool with rfl | hmem
    · exact ⟨line, List.mem_cons_self .., hfirst⟩
    · obtain ⟨found, hfound, hread⟩ := ih hothers hmem
      exact ⟨found, List.mem_cons_of_mem line hfound, hread⟩

/-- A listed name is the first cell of its line without the blanks around it. -/
theorem ListedPool.name_of_read {line : List Char} {pool : ListedPool} (h : read line = .ok pool) :
    Text.trim ((Text.fields line).headD []) ≠ [] ∧
      pool.name = String.ofList (Text.trim ((Text.fields line).headD [])) := by
  rw [read] at h
  by_cases hempty : (Text.trim ((Text.fields line).headD [])).isEmpty = true
  · rw [if_pos hempty] at h
    contradiction
  · rw [if_neg hempty] at h
    obtain rfl := Except.ok.inj h
    exact ⟨by simpa using hempty, rfl⟩

theorem headD_fields_mem (line : List Char) : (Text.fields line).headD [] ∈ Text.fields line := by
  obtain ⟨first, rest, hfields⟩ :=
    List.exists_cons_of_ne_nil (Text.splitWhere_ne_nil (· == '\t') line)
  rw [Text.fields, hfields]
  exact List.mem_cons_self ..

/-- A name with a health after it is listed if no cut is in it. -/
theorem listable_of_trim (hne : name.toList ≠ []) (htrim : Text.trim name.toList = name.toList)
    (htab : '\t' ∉ name.toList) (hnewline : '\n' ∉ name.toList) : Listable name := by
  let line := name.toList ++ ['\t', 'O', 'N', 'L', 'I', 'N', 'E']
  have hlines : Text.lines (line ++ ['\n']) = [line] := by
    rw [Text.lines_append_newline (by simp [line, hnewline])]
    simp [line, Text.dropCarriageReturn]
  have hend : Text.trimEnd line = line := by
    have := Text.trimEnd_append_cons (c := 'E') (by rfl)
      (name.toList ++ ['\t', 'O', 'N', 'L', 'I', 'N']) []
    simpa [line] using this
  have hlisting : isEmptyListing line = false := by
    have htext : String.ofList line ≠ "no pools available" := by
      intro h
      have hmem : '\t' ∈ (String.ofList line).toList := by simp [line]
      rw [h] at hmem
      revert hmem
      decide
    rw [isEmptyListing, beq_eq_false_iff_ne.mpr htext]
    simp [line]
  have hfields : (Text.fields line).headD [] = name.toList := by
    rw [Text.fields, Text.splitWhere_append_cons (by rfl), Text.splitWhere_eq_singleton]
    · rfl
    · intro c hc
      rw [beq_eq_false_iff_ne]
      exact ne_of_mem_of_not_mem hc htab
  have hread : ∃ pool, ListedPool.read line = .ok pool ∧ pool.name = name := by
    rw [ListedPool.read, hfields, htrim, if_neg (by simpa using hne)]
    exact ⟨_, rfl, String.ofList_toList⟩
  obtain ⟨pool, hpool, rfl⟩ := hread
  refine ⟨String.ofList (line ++ ['\n']), [pool], ?_, by simp⟩
  rw [readPoolList, String.toList_ofList, hlines]
  simp only [List.map_cons, List.map_nil, hend, List.filter_cons, hlisting, List.filter_nil]
  change [line].mapM ListedPool.read = _
  rw [List.mapM_cons, List.mapM_nil, hpool]
  rfl

theorem listable_iff : Listable name ↔ name.toList ≠ [] ∧ Text.trim name.toList = name.toList ∧
    '\t' ∉ name.toList ∧ '\n' ∉ name.toList := by
  constructor
  · rintro ⟨output, listed, hlisted, hname⟩
    obtain ⟨pool, hpool, rfl⟩ := List.mem_map.mp hname
    obtain ⟨line, hline, hread⟩ := exists_read_of_mem hlisted hpool
    obtain ⟨hne, hpoolName⟩ := ListedPool.name_of_read hread
    obtain ⟨found, hfound, rfl⟩ := List.mem_map.mp (List.mem_filter.mp hline).1
    have hcell := headD_fields_mem (Text.trimEnd found)
    rw [hpoolName, String.toList_ofList]
    refine ⟨hne, Text.trim_trim _, fun htab => ?_, fun hnewline => ?_⟩
    · simpa using (Text.mem_of_mem_splitWhere hcell (Text.mem_of_mem_trim htab)).2
    · have hmem := (Text.mem_of_mem_splitWhere hcell (Text.mem_of_mem_trim hnewline)).1
      exact Text.notMem_of_mem_lines hfound (Text.mem_of_mem_trimEnd hmem)
  · rintro ⟨hne, htrim, htab, hnewline⟩
    exact listable_of_trim hne htrim htab hnewline

end Listing

section Status

/-- The label of a row is a word. -/
theorem StatusRow.solid_of_read? {line : List Char} {row : StatusRow} (h : read? line = some row) :
    row.label.toList ≠ [] ∧ ∀ c ∈ row.label.toList, Text.isBlank c = false := by
  obtain ⟨rest, label, cells, -, hwords, rfl⟩ := read?_eq_some h
  rw [String.toList_ofList]
  exact Text.solid_of_mem_words (hwords ▸ List.mem_cons_self ..)

def Report.online : Report :=
  ⟨.of "ONLINE".toList (by decide), 0, 0, 0⟩

/-- The table of a pool whose name is a word is the one that is printed of the pool. -/
theorem rootTable_eq_print (w : Word) :
    rootTable w.text = Topology.print ⟨w, .online, .nil, []⟩ (fun _ _ => 0) 0 ['\n'] := by
  have htitles : "\tNAME STATE READ WRITE CKSUM\n\t".toList =
      tableLine (fun _ => 0) 0 titles ++ ['\n', '\t'] := by decide +kernel
  have hreport : " ONLINE 0 0 0\n\nerrors: No known data errors\n".toList =
      ' ' :: spaced (fun _ => 0) (Report.cells (some .online)) ++
        '\n' :: '\n' :: (errorSummary 0 ++ ['\n']) := by decide +kernel
  rw [← String.toList_inj, rootTable, String.toList_join, Topology.print, String.toList_ofList,
    Topology.lines]
  simp only [List.flatMap_cons, List.flatMap_nil, List.append_nil, htitles, hreport]
  simp [Topology.rows, PrintedRow.line, tableLine, Report.cells, spaced, Member.rows,
    Forest.levels, Word.text]

theorem solid_of_acceptable {name : String} (h : Acceptable name) :
    name.toList ≠ [] ∧ ∀ c ∈ name.toList, Text.isBlank c = false := by
  obtain ⟨output, status, hread⟩ := h
  obtain ⟨root, rest, first, last, hrows, hroot, -, -⟩ :=
    PoolStatus.exists_rows_of_parse (PoolStatus.parse_of_read hread)
  have hmem : some root ∈ (PoolStatus.tableLines output).map StatusRow.read? := by
    rw [hrows]
    exact List.mem_map_of_mem (List.mem_cons_self ..)
  obtain ⟨line, -, hline⟩ := List.mem_map.mp hmem
  rw [← (StatusTable.ofRoot_eq_ok hroot).2.1]
  exact StatusRow.solid_of_read? hline

/-- A status can be understood if the name of the pool is a word, and then so can the one without
vdevs below the root. -/
theorem exists_read_rootTable {name : String} (hne : name.toList ≠ [])
    (hsolid : ∀ c ∈ name.toList, Text.isBlank c = false) :
    ∃ status, PoolStatus.read name (rootTable name) = .ok status := by
  let w : Word := ⟨name.toList, hne, hsolid⟩
  have hname : w.text = name := String.ofList_toList
  obtain ⟨status, hread, -⟩ := Topology.read_print
    ⟨w, .online, .nil, []⟩ (fun _ _ => 0) 0 ['\n']
  refine ⟨status, ?_⟩
  rw [← hname, rootTable_eq_print]
  exact hread

end Status

namespace Collection

open Exchange

/-- Some source leads to an inventory that has a pool with the name. -/
def Finds (name : String) : Prop :=
  ∃ (σ : Type) (source : Source σ) (state : σ) (found : Inventory),
    (inventory.run.run source state).result = .ok found ∧ ∃ p ∈ found.pools, p.name = name

/-- A host that lists its pools in some way, none of which has a vdev below its root. -/
def bareHost (listing : String) : (query : Query) → query.Reply
  | .listPools => .ok listing
  | .poolStatus pool => .ok (rootTable pool)
  | .vdevProperties _ | .listDatasets | .datasetProperties _ => .ok ""
  | .objsetKstat .. => .ok none

theorem mild_bareHost {listing : String} {listed : List ListedPool}
    (h : readPoolList listing = .ok listed) :
    ∀ e ∈ inventory.run.exchanges (.fixed (bareHost listing)) (), e.fatal? = none := by
  intro e he
  have hreply : e.reply = bareHost listing e.query :=
    Inquiry.reply_of_mem_exchanges (fun _ _ => rfl) he
  obtain ⟨query, reply⟩ := e
  obtain rfl : reply = bareHost listing query := hreply
  cases query with
  | listPools =>
    refine Option.eq_none_iff_forall_ne_some.mpr fun failure hfatal => ?_
    exact absurd (h.symm.trans (mapM_read_eq_error_iff.mpr hfatal)) nofun
  | _ => rfl

/-- A listed pool is found if its name is a word. -/
theorem finds_of_solid {name : String} (hlist : Listable name)
    (hsolid : ∀ c ∈ name.toList, Text.isBlank c = false) : Finds name := by
  have hne := (listable_iff.mp hlist).1
  obtain ⟨listing, listed, hlisted, hname⟩ := hlist
  obtain ⟨course, hlog, hfound⟩ := exists_course_of_mild (mild_bareHost hlisted)
  refine ⟨Unit, .fixed (bareHost listing), (), course.inventory, hfound,
    Course.exists_pool_iff.mpr ?_⟩
  have hreply : ∀ query reply, ⟨query, reply⟩ ∈ course.exchanges →
      reply = bareHost listing query := by
    intro query reply hmem
    rw [← hlog] at hmem
    exact Inquiry.reply_of_mem_exchanges (fun _ _ => rfl) hmem
  -- the list that was told is the given one, so a visit was made for the name
  have hlist : course.poolList = .ok listing :=
    hreply .listPools course.poolList (by simp [Course.exchanges])
  have hvisits : course.pools.map PoolVisit.listed = listed := by
    rw [course.listed, hlist]
    exact congrArg (·.toOption.getD []) hlisted
  obtain ⟨pool, hpool, rfl⟩ := List.mem_map.mp hname
  rw [← hvisits] at hpool
  obtain ⟨visit, hvisit, rfl⟩ := List.mem_map.mp hpool
  have hstatus : visit.status = .ok (rootTable visit.listed.name) := by
    refine hreply (.poolStatus visit.listed.name) visit.status ?_
    rw [Course.exchanges, List.mem_append, List.mem_cons, List.mem_flatMap]
    exact .inl (.inr ⟨visit, hvisit, List.mem_cons_self ..⟩)
  obtain ⟨status, hread⟩ := exists_read_rootTable hne hsolid
  exact ⟨visit, hvisit, rfl, rootTable visit.listed.name, status, hstatus, hread⟩

theorem acceptable_of_finds {name : String} (h : Finds name) : Acceptable name := by
  obtain ⟨σ, source, state, found, hfound, hpool⟩ := h
  obtain ⟨course, hcourse⟩ := exists_course (Inquiry.yields_run source inventory.run state)
  rw [hfound] at hcourse
  obtain ⟨-, -, rfl⟩ := hcourse.of_ok
  obtain ⟨visit, -, -, output, status, -, hread⟩ := Course.exists_pool_iff.mp hpool
  exact ⟨output, status, hread⟩

end Collection

/-- A word can be listed. -/
theorem listable_of_solid {name : String} (hne : name.toList ≠ [])
    (hsolid : ∀ c ∈ name.toList, Text.isBlank c = false) : Listable name :=
  listable_iff.mpr ⟨hne, Text.trim_eq_self hsolid,
    fun h => absurd (hsolid '\t' h) (by decide), fun h => absurd (hsolid '\n' h) (by decide)⟩

/-- A name is in some list of pools just if it is not empty, has no blanks around it, and has no
tab or newline in it. It has a status that can be understood just if it is such a name without any
blanks; then the plain table of its root is one, and then, and only then, some source leads to an
inventory with a pool of this name. -/
theorem names_of_pools (name : String) :
    (Listable name ↔ name.toList ≠ [] ∧ Text.trim name.toList = name.toList ∧
      '\t' ∉ name.toList ∧ '\n' ∉ name.toList) ∧
    (Acceptable name ↔ Listable name ∧ ∀ c ∈ name.toList, Text.isBlank c = false) ∧
    ((∃ status, PoolStatus.read name (rootTable name) = .ok status) ↔ Acceptable name) ∧
    (Collection.Finds name ↔ Acceptable name) := by
  refine ⟨listable_iff, ⟨fun h => ?_, fun ⟨hlist, hsolid⟩ => ?_⟩, ⟨fun ⟨status, hread⟩ => ?_,
    fun h => ?_⟩, Collection.acceptable_of_finds, fun h => ?_⟩
  · obtain ⟨hne, hsolid⟩ := solid_of_acceptable h
    exact ⟨listable_of_solid hne hsolid, hsolid⟩
  · obtain ⟨status, hread⟩ := exists_read_rootTable (listable_iff.mp hlist).1 hsolid
    exact ⟨rootTable name, status, hread⟩
  · exact ⟨rootTable name, status, hread⟩
  · obtain ⟨hne, hsolid⟩ := solid_of_acceptable h
    exact exists_read_rootTable hne hsolid
  · obtain ⟨hne, hsolid⟩ := solid_of_acceptable h
    exact Collection.finds_of_solid (listable_of_solid hne hsolid) hsolid

/-- A pool with a space in its name is listed, and no status of it can be understood. -/
theorem not_acceptable_of_listed_with_space :
    Listable "my pool" ∧ ¬ Acceptable "my pool" := by
  refine ⟨listable_iff.mpr (by decide +kernel), fun h => ?_⟩
  exact absurd ((solid_of_acceptable h).2 ' ' (by decide)) (by decide)

end PoolGauge
