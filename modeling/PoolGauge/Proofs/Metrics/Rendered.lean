import PoolGauge.Proofs.Metrics.Entities
import PoolGauge.Proofs.Metrics.LineReader

/-!
# The rendered text

Nothing is ever refused: every family can be registered, and every sample has a value for each label
of its family. In the text each figure about the exporter stands on the only line with its name.
-/
namespace PoolGauge.Metrics

/-- The family can be registered beside others. -/
def Family.WellNamed {ε : Type} (family : Family ε) : Prop :=
  isFamilyName family.name = true ∧ family.help.isEmpty = false ∧
    ∀ label ∈ family.labels, isLabelName label = true

instance {ε : Type} (family : Family ε) : Decidable family.WellNamed :=
  inferInstanceAs (Decidable (_ ∧ _ ∧ _))

theorem Family.describe_of_wellNamed {ε : Type} {family : Family ε} (h : family.WellNamed) :
    family.describe = .ok () := by
  obtain ⟨hname, hhelp, hlabels⟩ := h
  have hfind : family.labels.find? (!isLabelName ·) = none := by
    simpa using hlabels
  simp [describe, hname, hhelp, hfind]

theorem register_eq_ok {ε : Type} {families : List (Family ε)} (taken : List String)
    (hnamed : ∀ family ∈ families, family.WellNamed)
    (hnodup : (taken ++ families.map Family.name).Nodup) :
    register taken families = .ok ((families.map Family.name).reverse ++ taken) := by
  induction families generalizing taken with
  | nil => rfl
  | cons family rest ih =>
    have hmoved : (family.name :: taken ++ rest.map Family.name).Nodup := by
      rw [List.map_cons] at hnodup
      exact List.perm_middle.nodup_iff.mp hnodup
    have hnew : family.name ∉ taken := by
      intro hmem
      exact (List.nodup_cons.mp hmoved).1 (List.mem_append_left _ hmem)
    have hrest := ih _ (fun f hf => hnamed f (List.mem_cons_of_mem _ hf)) hmoved
    rw [register, Family.describe_of_wellNamed (hnamed family (List.mem_cons_self ..))]
    simp only [bind, Except.bind, if_neg hnew, hrest, List.map_cons, List.reverse_cons,
      List.append_assoc, List.singleton_append]

theorem Measure.arities_eq {ε : Type} (measure : Measure ε) (source : ε) :
    measure.arities source = (measure.written source).map fun s => s.labels.length := by
  cases measure with
  | gauge samples => rfl
  | counter samples => simp [arities, written]

theorem Family.fill_eq_ok_iff {ε : Type} {family : Family ε} {source : ε} :
    family.fill source = .ok () ↔
      ∀ s ∈ family.measure.written source, s.labels.length = family.labels.length := by
  rw [fill, Measure.arities_eq]
  split
  · rename_i found hfind
    obtain ⟨s, hs, rfl⟩ := List.mem_map.mp (List.mem_of_find?_eq_some hfind)
    have hne := List.find?_some hfind
    exact iff_of_false nofun fun h => by simp [h s hs] at hne
  · rename_i hfind
    exact iff_of_true rfl (by simpa using hfind)

theorem Family.Shows.fill {ε ι : Type} {family : Family ε} {source : ε} {name : String}
    {entities : List ι} {labels : ι → List String} {series : ι → Series}
    (h : family.Shows source name entities labels series) : family.fill source = .ok () := by
  refine Family.fill_eq_ok_iff.mpr fun s hs => ?_
  rw [h.written] at hs
  obtain ⟨e, -, rfl⟩ := List.mem_map.mp hs
  exact h.lengths e

theorem fill_storageFamilies (inventory : Inventory) {family : Family Inventory}
    (hfamily : family ∈ storageFamilies) : family.fill inventory = .ok () := by
  rcases List.mem_append.mp hfamily with hdataset | hpool
  · have hfills := (datasetFamilies_show inventory).imp fun _ _ hshows =>
      And.intro hshows.fill hshows
    exact ((List.forall₂_and_left _ _).mp hfills).1 family hdataset
  · obtain ⟨errors, states, vdevStates, figures, hperm, herrors, hstates, hvdevStates, hfigures⟩ :=
      poolFamilies_show inventory
    simp only [hperm.mem_iff, List.mem_cons] at hpool
    rcases hpool with rfl | rfl | rfl | hfigure
    · exact herrors.fill
    · exact hstates.fill
    · exact hvdevStates.fill
    · have hfills := hfigures.imp fun _ _ hshows => And.intro hshows.fill hshows
      exact ((List.forall₂_and_left _ _).mp hfills).1 family hfigure

theorem forM_eq_ok {α ε : Type} {f : α → Except ε Unit} {items : List α}
    (h : ∀ a ∈ items, f a = .ok ()) : items.forM f = .ok () := by
  induction items with
  | nil => rfl
  | cons a rest ih =>
    rw [List.forM, h a (List.mem_cons_self ..)]
    exact ih fun b hb => h b (List.mem_cons_of_mem _ hb)

def familyNames : List String :=
  storageFamilies.map Family.name ++ SelfMetrics.families.map Family.name

theorem familyNames_nodup : familyNames.Nodup := by
  have hself : (SelfMetrics.families.map Family.name).Nodup := by decide +kernel
  have hdisjoint : ∀ name ∈ SelfMetrics.families.map Family.name,
      name ∉ storageFamilies.map Family.name := by
    decide +kernel
  exact List.nodup_append'.mpr ⟨names_nodup, hself, fun _ hstorage hname =>
    hdisjoint _ hname hstorage⟩

theorem storageFamilies_wellNamed : ∀ family ∈ storageFamilies, family.WellNamed := by
  decide +kernel

theorem selfFamilies_wellNamed : ∀ family ∈ SelfMetrics.families, family.WellNamed := by
  decide +kernel

theorem register_all : ∃ taken, register [] storageFamilies = .ok taken ∧
    ∃ all, register taken SelfMetrics.families = .ok all := by
  have hnames : ((storageFamilies.map Family.name).reverse ++ [] ++
      SelfMetrics.families.map Family.name).Nodup := by
    rw [List.append_nil]
    exact ((List.reverse_perm _).append_right _).nodup_iff.mpr familyNames_nodup
  exact ⟨_, register_eq_ok [] storageFamilies_wellNamed names_nodup,
    _, register_eq_ok _ selfFamilies_wellNamed hnames⟩

/-- Encoding an inventory always gives the whole text. -/
theorem encode?_eq_ok (inventory : Inventory) : encode? inventory = .ok (encode inventory) := by
  obtain ⟨taken, hstorage, -⟩ := register_all
  have hfill := forM_eq_ok fun _ hfamily => fill_storageFamilies inventory hfamily
  rw [encode?, hstorage]
  simp only [hfill, bind, Except.bind, pure, Except.pure]

/-- Rendering always gives the whole text. -/
theorem render?_eq_ok (inventory : Inventory) (self : SelfMetrics) :
    render? inventory self = .ok (render inventory self) := by
  obtain ⟨taken, hstorage, all, hself⟩ := register_all
  have hfill := forM_eq_ok fun _ hfamily => fill_storageFamilies inventory hfamily
  rw [render?, hstorage]
  simp only [hself, hfill, bind, Except.bind, pure, Except.pure]

/-- What a line begins with, before labels or a value. -/
def lineName (line : List Char) : List Char :=
  line.takeWhile fun c => c != ' ' && c != '\x7b'

/-- Whether a text stands before the labels or the value in lines. -/
def IsLineName (name : String) : Prop :=
  ∀ c ∈ name.toList, (c != ' ' && c != '\x7b') = true

theorem lineName_line {name : String} (hname : IsLineName name) (series : Series) :
    lineName (series.line name) = name.toList := by
  have hrest : ∃ c rest, labelsText series.labels ++ ' ' :: Number.floatText series.value =
      c :: rest ∧ (c != ' ' && c != '\x7b') = false := by
    cases series.labels with
    | nil => exact ⟨' ', _, rfl, rfl⟩
    | cons pair rest => exact ⟨'\x7b', _, rfl, rfl⟩
  obtain ⟨c, rest, heq, hc⟩ := hrest
  rw [lineName, Series.line, List.append_assoc, heq, List.takeWhile_append_of_pos hname,
    List.takeWhile_cons_of_neg (by simp [hc]), List.append_nil]

theorem lineName_comment (text : String) : lineName ("# " ++ text).toList = ['#'] := by
  rw [String.toList_append]
  rfl

/-- The lines of a family with its name are those of its series. -/
theorem Family.lines_filter_lineName {ε : Type} {family : Family ε} (source : ε)
    (hfamily : IsLineName family.name) {name : String} (hname : name.toList ≠ ['#']) :
    (family.lines source).filter (fun line => lineName line = name.toList) =
      if family.name = name then (family.series source).map (·.line family.name) else [] := by
  have hline : ∀ x : Series,
      decide (lineName (x.line family.name) = name.toList) = decide (family.name = name) := by
    intro x
    rw [lineName_line hfamily, decide_eq_decide]
    exact String.toList_inj
  have hcomment : ∀ text : String, ¬ lineName ("# " ++ text).toList = name.toList := by
    intro text heq
    exact hname (heq.symm.trans (lineName_comment text))
  have hhelp := hcomment ("HELP " ++ family.name ++ " " ++ family.help)
  have htype := hcomment ("TYPE " ++ family.name ++ " " ++ family.measure.word)
  rw [lines]
  split
  · rename_i hnone
    simp [hnone]
  · rw [List.filter_cons_of_neg (by simpa [String.append_assoc] using hhelp),
      List.filter_cons_of_neg (by simpa [String.append_assoc] using htype), List.filter_map]
    simp only [Function.comp_def, hline]
    split
    · simp [*]
    · simp [*]

/-- A name of a family is neither cut short in its lines nor mistaken for a comment. -/
theorem isLineName_of_isFamilyName {name : String} (h : isFamilyName name = true) :
    IsLineName name ∧ name.toList ≠ ['#'] := by
  have hname := isNameChar_of_isFamilyName h
  refine ⟨fun c hc => ?_, fun hhash => ?_⟩
  · have hne : ∀ d : Char, isNameChar d = false → c ≠ d := by
      rintro d hd rfl
      simp [hname c hc] at hd
    simp [hne ' ' (by decide), hne '\x7b' (by decide)]
  · exact absurd (hname '#' (by simp [hhash])) (by decide)

theorem isFamilyName_of_mem {name : String} (hname : name ∈ familyNames) :
    isFamilyName name = true := by
  rcases List.mem_append.mp hname with hstorage | hself
  · obtain ⟨family, hfamily, rfl⟩ := List.mem_map.mp hstorage
    exact (storageFamilies_wellNamed family hfamily).1
  · obtain ⟨family, hfamily, rfl⟩ := List.mem_map.mp hself
    exact (selfFamilies_wellNamed family hfamily).1

theorem isLineName_of_mem {name : String} (hname : name ∈ familyNames) : IsLineName name :=
  (isLineName_of_isFamilyName (isFamilyName_of_mem hname)).1

theorem ne_comment_of_mem {name : String} (hname : name ∈ familyNames) : name.toList ≠ ['#'] :=
  (isLineName_of_isFamilyName (isFamilyName_of_mem hname)).2

theorem familiesLines_filter_of_notMem {ε : Type} {families : List (Family ε)} (source : ε)
    (hfamilies : ∀ family ∈ families, IsLineName family.name) {name : String}
    (hcomment : name.toList ≠ ['#']) (hname : name ∉ families.map Family.name) :
    (familiesLines families source).filter (fun line => lineName line = name.toList) = [] := by
  rw [familiesLines, List.filter_flatMap, List.flatMap_eq_nil_iff]
  intro family hfamily
  rw [Family.lines_filter_lineName source (hfamilies family hfamily) hcomment, if_neg]
  rintro rfl
  exact hname (List.mem_map_of_mem hfamily)

namespace SelfMetrics

def figures (m : SelfMetrics) : List (String × Float) :=
  [ ("zfs_exporter_collection_duration_seconds", m.duration),
    ("zfs_exporter_collection_failures_total", Number.ofWord m.failures),
    ("zfs_exporter_last_collection_timestamp_seconds", m.collectedAt),
    ("zfs_exporter_up", m.up) ]

theorem families_show (m : SelfMetrics) : List.Forall₂ (fun family figure =>
    family.name = figure.1 ∧ family.series m = [⟨[], figure.2⟩]) families m.figures := by
  simp [families, figures, Family.series, Measure.series, gather, record, labelPairs]

theorem name_mem {m : SelfMetrics} {figure : String × Float} (h : figure ∈ m.figures) :
    figure.1 ∈ families.map Family.name := by
  have hnames : families.map Family.name = m.figures.map Prod.fst := rfl
  rw [hnames]
  exact List.mem_map_of_mem h

end SelfMetrics

/-- Only one line has the name, and it shows a value without labels. -/
def OnlyLine (lines : List (List Char)) (name : String) (value : List Char) : Prop :=
  lines.filter (fun line => lineName line = name.toList) = [name.toList ++ ' ' :: value]

theorem OnlyLine.iff_eq {lines : List (List Char)} {name : String} {v w : List Char}
    (h : OnlyLine lines name v) : OnlyLine lines name w ↔ w = v := by
  constructor
  · intro hw
    have heq := List.append_cancel_left (List.singleton_inj.mp (hw.symm.trans h))
    exact (List.cons.inj heq).2
  · rintro rfl
    exact h

theorem onlyLine_selfLines {self : SelfMetrics} {figure : String × Float}
    (h : figure ∈ self.figures) : OnlyLine (familiesLines SelfMetrics.families self) figure.1
      (Number.floatText figure.2) := by
  have hname := List.mem_append_right (storageFamilies.map Family.name) (SelfMetrics.name_mem h)
  have hlines : ∀ family ∈ SelfMetrics.families,
      (family.lines self).filter (fun line => lineName line = figure.1.toList) =
        if family.name = figure.1 then (family.series self).map (·.line family.name) else [] :=
    fun family hfamily => Family.lines_filter_lineName self
      (isLineName_of_mem (List.mem_append_right _ (List.mem_map_of_mem hfamily)))
      (ne_comment_of_mem hname)
  rw [OnlyLine, familiesLines, List.filter_flatMap, List.flatMap_congr hlines]
  have hshow := self.families_show
  simp only [SelfMetrics.families, SelfMetrics.figures, List.forall₂_cons,
    List.Forall₂.nil, and_true, true_and] at hshow
  obtain ⟨hduration, hfailures, hcollectedAt, hup⟩ := hshow
  simp only [SelfMetrics.figures, List.mem_cons, List.not_mem_nil, or_false] at h
  rcases h with rfl | rfl | rfl | rfl
  · simp [SelfMetrics.families, hduration, Series.line, labelsText]
  · simp [SelfMetrics.families, hfailures, Series.line, labelsText]
  · simp [SelfMetrics.families, hcollectedAt, Series.line, labelsText]
  · simp [SelfMetrics.families, hup, Series.line, labelsText]

/-- In the text a figure about the exporter stands on the only line with its name. -/
theorem onlyLine_renderLines (inventory : Inventory) {self : SelfMetrics}
    {figure : String × Float} (h : figure ∈ self.figures) :
    OnlyLine (renderLines inventory self) figure.1 (Number.floatText figure.2) := by
  have hname := List.mem_append_right (storageFamilies.map Family.name) (SelfMetrics.name_mem h)
  have hother : ∀ families ⊆ storageFamilies,
      (familiesLines families inventory).filter
        (fun line => lineName line = figure.1.toList) = [] := by
    intro families hsub
    refine familiesLines_filter_of_notMem inventory (fun family hfamily => ?_)
      (ne_comment_of_mem hname) (fun hmem => ?_)
    · exact isLineName_of_mem (List.mem_append_left _ (List.mem_map_of_mem (hsub hfamily)))
    · exact (List.nodup_append.mp familyNames_nodup).2.2 _ (List.map_subset _ hsub hmem) _
        (SelfMetrics.name_mem h) rfl
  rw [OnlyLine, renderLines, List.filter_append, List.filter_append, onlyLine_selfLines h,
    hother datasetFamilies (List.subset_append_left ..),
    hother poolFamilies (List.subset_append_right ..)]
  rfl

end PoolGauge.Metrics
