import PoolGauge.Proofs.Collection.Replies
import PoolGauge.Proofs.Dataset.Counters
import PoolGauge.Proofs.Dataset.Values
import PoolGauge.Proofs.Source.Launches
import PoolGauge.Proofs.Text.Beginnings

/-!
# Figures from answers that were cut off

The tool that tells the properties of datasets may end before its answer is complete, even in the
middle of a number, and what it has written is taken all the same. The figures of a dataset that is
reported then are those of the complete answer just if the lines that were lost change none of them.
-/
namespace PoolGauge

open Text (lostLines toldValue? toldValue?_isSome_iff exists_lines_of_prefix)

namespace Dataset

/-- The dataset without its activity: what its properties tell about it. -/
def withoutActivity (d : Dataset) : Dataset :=
  { d with stats := { d.stats with
      reads := 0, writes := 0, bytesRead := 0, bytesWritten := 0, unlinks := 0, unlinked := 0 } }

theorem withoutActivity_recorded (name : String) (value? : String → Option (List Char)) :
    (recorded name value?).withoutActivity = recorded name value? := rfl

/-- Two records are the same just if no value of the one changes the other. -/
theorem recorded_eq_iff {name : String} {first second : String → Option (List Char)} :
    recorded name first = recorded name second ↔ ∀ property,
      recorded name (Function.update first property (second property)) = recorded name first := by
  constructor
  · intro h property
    have hvalue : ∀ {α : Type} (read : Option (List Char) → α) (field : String),
        read (first field) = read (second field) →
          read (Function.update first property (second property) field) = read (first field) := by
      intro α read field h
      by_cases hfield : field = property
      · rw [hfield, Function.update_self, ← hfield, h]
      · rw [Function.update_of_ne hfield]
    have hword := hvalue (·.bind Number.readWord)
    have hcount := hvalue fun value => (value.bind Number.readWord).getD 0
    have hratio := hvalue fun value => (value.bind ratio?).getD (Number.nearest 0 1)
    simp only [recorded, Dataset.mk.injEq, DatasetStats.mk.injEq, true_and, and_true] at h ⊢
    obtain ⟨hid, h1, h2, h3, h4, h5, h6, h7, h8, h9, hratio1, hratio2⟩ := h
    exact ⟨hword _ hid, hcount _ h1, hcount _ h2, hcount _ h3, hcount _ h4, hcount _ h5,
      hcount _ h6, hcount _ h7, hcount _ h8, hcount _ h9, hratio _ hratio1, hratio _ hratio2⟩
  · intro h
    have hnames : ∀ property ∈ datasetPropertyNames,
        recorded name (Function.update first property (second property)) = recorded name first :=
      fun property _ => h property
    symm
    simpa [recorded, datasetPropertyNames, Function.update_apply] using hnames

end Dataset

/-- Reading statistics changes nothing but the activity. -/
theorem DatasetVisit.withoutActivity_of_dataset? {visit : DatasetVisit} {d : Dataset}
    (h : visit.dataset? = some d) : d.withoutActivity = visit.dataset.withoutActivity := by
  rw [dataset?] at h
  split at h
  · rw [Option.some.inj h]
  · contradiction
  · rw [Option.some.inj h]
  · rename_i statistics _ _
    obtain ⟨stats, hstats, rfl⟩ := Option.map_eq_some_iff.mp h
    have hread := visit.dataset.stats.afterReading_eq visit.dataset.name statistics
    rw [DatasetStats.afterReading, hstats, Option.getD_some] at hread
    rw [hread]
    rfl

namespace DatasetTable

variable {name : String} {line : List Char} {output whole : String} {told : Dataset}

theorem isAbout_iff : IsAbout name line ↔ ∃ property, (toldValue? name property line).isSome := by
  simp only [toldValue?_isSome_iff, IsAbout]
  constructor
  · rintro ⟨hlength, hname⟩
    obtain ⟨property, hproperty⟩ := Option.isSome_iff_exists.mp
      (Text.field?_isSome_iff.mpr (show 1 < (Text.fields line).length by omega))
    exact ⟨String.ofList property, hlength, hname, by rw [hproperty, String.toList_ofList]⟩
  · rintro ⟨property, hlength, hname, -⟩
    exact ⟨hlength, hname⟩

/-- What the beginning of a text tells about a dataset is what the whole text tells about it just
if no value of the lost lines changes the record. -/
theorem exists_find?_read_of_prefix (h : output.toList <+: whole.toList)
    (htold : (read output).find? name = some told) :
    ∃ known, (read whole).find? name = some known ∧ (told = known ↔ ∀ property value,
      lastValue? (lostLines whole.toList output.toList) name property = some value →
        told.withProperty property value = told) := by
  obtain ⟨hname, ⟨line, hline, habout⟩, rfl⟩ := find?_read_eq_some_iff.mp htold
  obtain ⟨ended, fragment, houtput, hwhole, hfragment⟩ := exists_lines_of_prefix h
  have hexists : ∃ line ∈ Text.lines whole.toList, IsAbout name line := by
    rw [hwhole]
    rw [houtput] at hline
    rcases List.mem_append.mp hline with hmem | hmem
    · exact ⟨line, List.mem_append_left _ hmem, habout⟩
    · obtain ⟨property, hsome⟩ := isAbout_iff.mp habout
      obtain ⟨lost, hlost, hall⟩ := hfragment line hmem
      exact ⟨lost, List.mem_append_right _ hlost, isAbout_iff.mpr ⟨property, hall _ _ hsome⟩⟩
  refine ⟨_, find?_read_eq_some_iff.mpr ⟨hname, hexists, rfl⟩, ?_⟩
  -- the fragment may differ from its line where a lost line tells a value, and nowhere else
  have hvalue : ∀ property, lastValue? (Text.lines whole.toList) name property =
      (lastValue? (lostLines whole.toList output.toList) name property).or
        (lastValue? (Text.lines output.toList) name property) := by
    intro property
    rw [hwhole, houtput, lastValue?_append, lastValue?_append]
    cases hlost : lastValue? (lostLines whole.toList output.toList) name property with
    | some value => rfl
    | none =>
      have hnone : lastValue? fragment name property = none := by
        rw [lastValue?_eq_none_iff] at hlost ⊢
        intro line hline
        obtain ⟨lost, hmem, hall⟩ := hfragment line hline
        rw [← Option.not_isSome_iff_eq_none]
        intro hsome
        simpa [hlost lost hmem] using hall _ _ hsome
      rw [hnone]
      rfl
  rw [Dataset.recorded_eq_iff]
  constructor
  · intro hsame property value hlost
    have hproperty := hsame property
    rwa [hvalue, hlost, Option.some_or, ← Dataset.withProperty_recorded] at hproperty
  · intro hsame property
    rw [hvalue]
    cases hlost : lastValue? (lostLines whole.toList output.toList) name property with
    | some value =>
      rw [Option.some_or, ← Dataset.withProperty_recorded]
      exact hsame property value hlost
    | none => rw [Option.none_or, Function.update_eq_self]

end DatasetTable

/-- Whatever the host writes in answer to a question for the properties of datasets is a beginning
of the complete answer, however the tool ended. -/
def Host.Begins (host : Host) (whole : List String → String) : Prop :=
  ∀ names stdout stderr ending, host.start (.datasetProperties names) = .ended stdout stderr ending →
    stdout <+: Text.bytes (whole names)

/-- What is taken for the properties of datasets was written by a tool that has ended. -/
theorem Host.exists_start_of_reply {host : Host} {names : List String} {output : String}
    (h : host.reply (.datasetProperties names) = .ok output) : ∃ stderr ending,
      host.start (.datasetProperties names) = .ended (Text.bytes output) stderr ending := by
  have hheard : (host.launch (.datasetProperties names)).output
      (CommandLine.datasetProperties names).text host.limit true = .ok output := h
  obtain ⟨stderr, ending, hlaunch, -⟩ := ((Launch.hears_output _ _ _ _).text output).mp hheard
  refine ⟨stderr, ending, ?_⟩
  rw [Host.launch] at hlaunch
  split at hlaunch
  · contradiction
  · exact hlaunch

theorem Host.Begins.toList_prefix {host : Host} {whole : List String → String}
    (h : host.Begins whole) {names : List String} {output : String}
    (houtput : host.reply (.datasetProperties names) = .ok output) :
    output.toList <+: (whole names).toList := by
  obtain ⟨stderr, ending, hstart⟩ := Host.exists_start_of_reply houtput
  exact Text.Utf8.toList_prefix_of_bytes (h names _ _ _ hstart)

namespace Collection

variable {host : Host} {whole : List String → String} {found : List Dataset} {d : Dataset}

/-- A dataset that is reported was told about in the answer for a batch that has its name. -/
theorem exists_batch_of_mem (h : (datasets.run.run host.source ()).result = .ok found)
    (hd : d ∈ found) :
    ∃ names ∈ batches batchSize (listedDatasets (host.reply .listDatasets)), d.name ∈ names ∧
      ∃ output, host.reply (.datasetProperties names) = .ok output ∧
        (DatasetTable.read output).find? d.name = some d.withoutActivity := by
  obtain ⟨reply, visits, hnames, hfollows⟩ :=
    exists_batches (Inquiry.yields_run host.source datasets.run ())
  rw [h] at hfollows
  obtain ⟨-, hlog, rfl⟩ := hfollows.of_ok
  have hreply : ∀ e ∈ datasets.run.exchanges host.source (), e.reply = host.reply e.query :=
    fun e he => Inquiry.reply_of_mem_exchanges (fun _ _ => rfl) he
  rw [hlog] at hreply
  obtain rfl : reply = host.reply .listDatasets := hreply _ (List.mem_cons_self ..)
  obtain ⟨batch, hbatch, hmem⟩ := List.mem_flatMap.mp hd
  obtain ⟨visit, hvisit, hfound⟩ := List.mem_filterMap.mp hmem
  have hproperties : batch.properties = host.reply (.datasetProperties batch.names) :=
    hreply ⟨.datasetProperties batch.names, batch.properties⟩ (List.mem_cons_of_mem _
      (List.mem_flatMap.mpr ⟨batch, hbatch, List.mem_cons_self ..⟩))
  obtain ⟨output, houtput, hname, hread⟩ := mem_datasetsIn_iff.mp (batch.mem_datasetsIn hvisit)
  have hsame : d.withoutActivity = visit.dataset := by
    obtain ⟨-, -, hrecorded⟩ := DatasetTable.find?_read_eq_some_iff.mp hread
    rw [visit.withoutActivity_of_dataset? hfound, hrecorded, Dataset.withoutActivity_recorded]
  rw [hsame, ((visit.dataset?_of_readable).2 hfound).1]
  refine ⟨batch.names, ?_, hname, output, hproperties ▸ houtput, hread⟩
  rw [← hnames]
  exact List.mem_map_of_mem hbatch

/-- Where a host writes beginnings of complete answers, every dataset that is reported is one that
the complete answer for its batch tells about. It has the object set and the figures of the complete
answer just if reading the last lost value of each property would change nothing; in particular if
no lost line is about it. -/
theorem figures_of_beginnings (h : host.Begins whole)
    (hfound : (datasets.run.run host.source ()).result = .ok found) (hd : d ∈ found) :
    ∃ names ∈ batches batchSize (listedDatasets (host.reply .listDatasets)), d.name ∈ names ∧
      ∃ output, host.reply (.datasetProperties names) = .ok output ∧
        ∃ known, (DatasetTable.read (whole names)).find? d.name = some known ∧
          (d.withoutActivity = known ↔ ∀ property value,
            lastValue? (lostLines (whole names).toList output.toList) d.name property = some value →
              d.withoutActivity.withProperty property value = d.withoutActivity) ∧
          ((∀ line ∈ lostLines (whole names).toList output.toList,
            ¬ DatasetTable.IsAbout d.name line) → d.withoutActivity = known) := by
  obtain ⟨names, hbatch, hname, output, houtput, htold⟩ := exists_batch_of_mem hfound hd
  obtain ⟨known, hknown, hsame⟩ :=
    DatasetTable.exists_find?_read_of_prefix (h.toList_prefix houtput) htold
  refine ⟨names, hbatch, hname, output, houtput, known, hknown, hsame, fun hnone => ?_⟩
  refine hsame.mpr fun property value hvalue => ?_
  -- a lost value would make one of the lost lines a line about the dataset
  have htells : lastValue? (lostLines (whole names).toList output.toList) d.name property ≠ none :=
    by rw [hvalue]; nofun
  rw [Ne, lastValue?_eq_none_iff] at htells
  push Not at htells
  obtain ⟨line, hline, htold⟩ := htells
  exact absurd (DatasetTable.isAbout_iff.mpr ⟨property, Option.isSome_iff_ne_none.mpr htold⟩)
    (hnone line hline)

section Killed

/-- A host that lists two datasets, and whose tool is killed after it has written some of the answer
to any other question. -/
def killedAfter (written : String) : Host where
  start command :=
    if command = .listDatasets then .ended (Text.bytes "tank/a\ntank/b\n") [] (.exited 0)
    else .ended (Text.bytes written) [] (.killed 9)
  statistics := ⟨[]⟩
  limit := ⟨10000000000⟩

def wholeAnswer : String :=
  "tank/a\tobjsetid\t-\ntank/a\tused\t4096\ntank/b\tobjsetid\t-\ntank/b\tused\t1\n"

def cutInName : String :=
  "tank/a\tobjsetid\t-\ntank/a\tused\t4096\ntank"

def cutInNumber : String :=
  "tank/a\tobjsetid\t-\ntank/a\tused\t40"

variable (written : String)

theorem start_killedAfter (names : List String) :
    (killedAfter written).start (.datasetProperties names) =
      .ended (Text.bytes written) [] (.killed 9) := by
  simp [killedAfter, CommandLine.datasetProperties, CommandLine.listDatasets]

variable {written}

theorem begins_killedAfter (h : Text.bytes written <+: Text.bytes wholeAnswer) :
    (killedAfter written).Begins fun _ => wholeAnswer := by
  intro names stdout stderr ending hstart
  rw [start_killedAfter] at hstart
  rwa [← (Launch.ended.inj hstart).1]

/-- The datasets that are reported are those that what was written tells about. -/
theorem datasets_of_killedAfter (h : ¬ written.toList.all Text.isBlank) :
    (datasets.run.run (killedAfter written).source ()).result =
      .ok (((DatasetTable.read written).pick ["tank/a", "tank/b"]).filterMap
        (settled? (killedAfter written).reply)) := by
  have hsteady : (killedAfter written).source.Steady (fun _ => True) (killedAfter written).reply :=
    ⟨fun _ _ _ => rfl, fun _ _ _ => trivial⟩
  have hlist : (killedAfter written).reply .listDatasets = .ok "tank/a\ntank/b\n" := by
    rw [Host.reply, Host.list, Host.run, Host.launch_eq_start _ (by decide +kernel)]
    change ((Launch.ended _ _ _).output _ _ _).mapError _ = _
    rw [Launch.output_of_text, if_pos (.inl rfl)]
    rfl
  have hproperties : (killedAfter written).reply (.datasetProperties ["tank/a", "tank/b"]) =
      .ok written := by
    rw [Host.reply, Host.run, Host.launch_eq_start _ (by decide +kernel), start_killedAfter,
      Launch.output_of_text, if_pos (.inr ⟨rfl, h⟩)]
  have hbatches : batches batchSize (readDatasetList "tank/a\ntank/b\n") =
      [["tank/a", "tank/b"]] := by decide +kernel
  rw [(hsteady.collecting_eq datasets trivial).1, datasets, resultBy_listed hlist, hbatches,
    resultBy_batchesDatasets_cons (resultBy_batchDatasets hproperties) rfl, List.append_nil]

/-- The first dataset that is reported is the first that what was written tells about. -/
theorem exists_mem_of_killedAfter (used : UInt64) (h : ¬ written.toList.all Text.isBlank)
    (hfirst : (((DatasetTable.read written).pick ["tank/a", "tank/b"]).filterMap
      (settled? (killedAfter written).reply)).head?.map (fun d => (d.name, d.stats.used)) =
        some ("tank/a", used)) :
    ∃ found d, (datasets.run.run (killedAfter written).source ()).result = .ok found ∧ d ∈ found ∧
      d.name = "tank/a" ∧ d.stats.used = used := by
  obtain ⟨d, hd, heq⟩ := Option.map_eq_some_iff.mp hfirst
  obtain ⟨hname, hused⟩ := Prod.mk.inj heq
  exact ⟨_, d, datasets_of_killedAfter h, List.mem_of_mem_head? hd, hname, hused⟩

/-- If the answer breaks off in the name of the other dataset, the first one is as it is. -/
theorem figures_of_cutInName : ∃ found d,
    (datasets.run.run (killedAfter cutInName).source ()).result = .ok found ∧ d ∈ found ∧
    d.name = "tank/a" ∧ d.stats.used = 4096 ∧
    ∃ known, (DatasetTable.read wholeAnswer).find? d.name = some known ∧
      d.withoutActivity = known := by
  obtain ⟨found, d, hfound, hd, hname, hused⟩ :=
    exists_mem_of_killedAfter 4096 (show ¬ cutInName.toList.all Text.isBlank by decide +kernel)
      (by decide +kernel)
  obtain ⟨names, -, -, output, houtput, known, hknown, -, hsame⟩ :=
    figures_of_beginnings (begins_killedAfter (by decide +kernel)) hfound hd
  refine ⟨found, d, hfound, hd, hname, hused, known, hknown, hsame ?_⟩
  obtain ⟨stderr, ending, hstart⟩ := Host.exists_start_of_reply houtput
  rw [start_killedAfter] at hstart
  rw [← Launch.bytes_inj (Launch.ended.inj hstart).1, hname]
  unfold DatasetTable.IsAbout
  decide +kernel

/-- If the answer breaks off in a number, the dataset is reported with what was written of it. -/
theorem figure_of_cutInNumber : (killedAfter cutInNumber).Begins (fun _ => wholeAnswer) ∧
    ∃ found d known, (datasets.run.run (killedAfter cutInNumber).source ()).result = .ok found ∧
      d ∈ found ∧ (DatasetTable.read wholeAnswer).find? d.name = some known ∧
      d.stats.used = 40 ∧ known.stats.used = 4096 := by
  obtain ⟨found, d, hfound, hd, hname, hused⟩ :=
    exists_mem_of_killedAfter 40 (show ¬ cutInNumber.toList.all Text.isBlank by decide +kernel)
      (by decide +kernel)
  have hwhole :
      ((DatasetTable.read wholeAnswer).find? "tank/a").map (·.stats.used) = some 4096 := by
    decide +kernel
  obtain ⟨known, hknown, hfigure⟩ := Option.map_eq_some_iff.mp hwhole
  exact ⟨begins_killedAfter (by decide +kernel), found, d, known, hfound, hd, hname ▸ hknown, hused,
    hfigure⟩

end Killed

end Collection

end PoolGauge
