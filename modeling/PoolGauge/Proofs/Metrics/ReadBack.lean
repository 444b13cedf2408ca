import PoolGauge.Proofs.Metrics.Rendered
import PoolGauge.Proofs.Number.Shortest
import PoolGauge.Proofs.Text.ByteOrder
import PoolGauge.Proofs.Text.Cuts

/-!
# The text of an inventory read back

Cut at its newlines the text of an inventory is, for each family with a series, a line of help, a
line with the type and one line for each series. Reading the lines gives the series back, so
inventories have the same text just if they have the same series. Names may hold any characters.
-/
namespace PoolGauge.Metrics

def Family.helpLine {ε : Type} (family : Family ε) : List Char :=
  ("# HELP " ++ family.name ++ " " ++ family.help).toList

def Family.typeLine {ε : Type} (family : Family ε) : List Char :=
  ("# TYPE " ++ family.name ++ " " ++ family.measure.word).toList

/-- The families of which an inventory has series. -/
def shown (s : Inventory) : List (Family Inventory) :=
  storageFamilies.filter fun family => !(family.series s).isEmpty

def Family.block {ε : Type} (family : Family ε) (source : ε) : List (List Char) :=
  family.helpLine :: family.typeLine :: (family.series source).map (·.line family.name)

theorem Family.lines_of_ne_nil {ε : Type} {family : Family ε} {source : ε}
    (h : family.series source ≠ []) : family.lines source = family.block source := by
  rw [lines]
  split
  · contradiction
  · rfl

def shownOf (families : List (Family Inventory)) (s : Inventory) : List (Family Inventory) :=
  families.filter fun family => !(family.series s).isEmpty

theorem series_ne_nil {families : List (Family Inventory)} {s : Inventory}
    {family : Family Inventory} (h : family ∈ shownOf families s) : family.series s ≠ [] := by
  simpa using (List.mem_filter.mp h).2

/-- What families without series have no part in comes from those that are shown. -/
theorem flatMap_eq_shownOf {s : Inventory} {β : Type} {f : Family Inventory → List β}
    (h : ∀ family, family.series s = [] → f family = []) (families : List (Family Inventory)) :
    families.flatMap f = (shownOf families s).flatMap f := by
  rw [shownOf]
  induction families with
  | nil => rfl
  | cons family rest ih =>
    cases hseries : family.series s with
    | nil => simp [h family hseries, hseries, ih]
    | cons x xs => simp [hseries, ih]

/-- The lines of families are blocks of those that are shown. -/
theorem familiesLines_eq (families : List (Family Inventory)) (s : Inventory) :
    familiesLines families s = (shownOf families s).flatMap (·.block s) := by
  rw [familiesLines, flatMap_eq_shownOf fun family hnone => by rw [Family.lines, hnone]]
  exact List.flatMap_congr fun family hfamily => Family.lines_of_ne_nil (series_ne_nil hfamily)

theorem encodeLines_eq (s : Inventory) : encodeLines s = (shown s).flatMap (·.block s) := by
  rw [encodeLines, familiesLines_eq, familiesLines_eq, ← List.flatMap_append, shownOf, shownOf,
    ← List.filter_append, ← storageFamilies, ← shown]

theorem exposed_eq (s : Inventory) : exposed s = (shown s).flatMap fun family =>
    (family.series s).map fun series => (family.name, series) := by
  rw [exposed, familiesSeries, ← storageFamilies,
    flatMap_eq_shownOf (fun family hnone => by rw [hnone, List.map_nil]), shownOf, ← shown]

section Labels

/-- The names of labels stand in their order, each once. -/
theorem labelPairs_names {names values : List String} (hnodup : names.Nodup)
    (hlength : values.length = names.length) :
    ((labelPairs names values).map LabelPair.name).Perm names ∧
      ((labelPairs names values).map LabelPair.name).Pairwise (· < ·) := by
  have hnames : (List.zipWith LabelPair.mk names values).map LabelPair.name = names := by
    clear hnodup
    induction names generalizing values with
    | nil => rfl
    | cons name names ih =>
      obtain ⟨value, values, rfl⟩ := List.exists_cons_of_length_eq_add_one hlength
      rw [List.zipWith_cons_cons, List.map_cons, ih (by simpa using hlength)]
  have hperm := (List.mergeSort_perm (List.zipWith LabelPair.mk names values)
    fun a b => decide (a.name ≤ b.name)).map LabelPair.name
  have hsorted := Text.pairwise_sortByName LabelPair.name (List.zipWith LabelPair.mk names values)
  rw [hnames, ← labelPairs] at hperm
  rw [← labelPairs] at hsorted
  have hdistinct := hperm.nodup_iff.mpr hnodup
  rw [List.Nodup, List.pairwise_map] at hdistinct
  refine ⟨hperm, List.pairwise_map.mpr ((hsorted.and hdistinct).imp fun hab => ?_)⟩
  exact lt_of_le_of_ne hab.1 hab.2

theorem storageFamilies_labels_nodup : ∀ family ∈ storageFamilies, family.labels.Nodup := by
  decide +kernel

variable {s : Inventory} {family : Family Inventory}

theorem storageFamilies_series_nodup (hfamily : family ∈ storageFamilies) :
    ((family.series s).map Series.labels).Nodup :=
  Family.labels_nodup (storageFamilies_labels_nodup family hfamily)
    (Family.fill_eq_ok_iff.mp (fill_storageFamilies s hfamily))

theorem series_names (hfamily : family ∈ storageFamilies) {x : Series}
    (hx : x ∈ family.series s) : (x.labels.map LabelPair.name).Perm family.labels ∧
      (x.labels.map LabelPair.name).Pairwise (· < ·) := by
  rw [Family.series, List.mem_mergeSort] at hx
  obtain ⟨t, ht, rfl⟩ := List.mem_map.mp hx
  obtain ⟨u, hu, heq⟩ :=
    List.mem_map.mp ((family.measure.series_labels s).2 (List.mem_map_of_mem ht))
  refine labelPairs_names (storageFamilies_labels_nodup family hfamily) ?_
  rw [← heq]
  exact Family.fill_eq_ok_iff.mp (fill_storageFamilies s hfamily) u hu

theorem isLabelName_of_mem_series (hfamily : family ∈ storageFamilies) {x : Series}
    (hx : x ∈ family.series s) : ∀ pair ∈ x.labels, isLabelName pair.name = true := fun _ hpair =>
  (storageFamilies_wellNamed family hfamily).2.2 _
    ((series_names hfamily hx).1.mem_iff.mp (List.mem_map_of_mem hpair))

end Labels

section Lines

theorem newline_notMem_of_isFamilyName {name : String} (h : isFamilyName name = true) :
    '\n' ∉ name.toList := fun hmem =>
  absurd (isNameChar_of_isFamilyName h _ hmem) (by decide)

theorem newline_notMem_escape (text : List Char) : '\n' ∉ escape text := by
  intro h
  obtain ⟨c, -, hc⟩ := List.mem_flatMap.mp h
  unfold escapeChar at hc
  split at hc
  · simp at hc
  · simp at hc
  · simp at hc
  · rename_i hnewline
    exact hnewline (List.mem_singleton.mp hc).symm

theorem newline_notMem_pair {pair : LabelPair} (h : isLabelName pair.name = true) :
    '\n' ∉ pair.text := by
  simp [LabelPair.text, newline_notMem_of_isFamilyName (isFamilyName_of_isLabelName h),
    newline_notMem_escape]

/-- Whatever its labels hold, a series is one line. -/
theorem newline_notMem_line {name : String} (hname : isFamilyName name = true) {x : Series}
    (hlabels : ∀ pair ∈ x.labels, isLabelName pair.name = true) : '\n' ∉ x.line name := by
  have hpairs : ∀ pair ∈ x.labels, '\n' ∉ pair.text := fun pair hpair =>
    newline_notMem_pair (hlabels pair hpair)
  have htext : '\n' ∉ labelsText x.labels := by
    cases hall : x.labels with
    | nil => nofun
    | cons first rest =>
      rw [hall, List.forall_mem_cons] at hpairs
      simpa [labelsText, hpairs.1] using hpairs.2
  simp [Series.line, newline_notMem_of_isFamilyName hname, htext,
    Number.newline_notMem_floatText]

theorem newline_notMem_help : ∀ family ∈ storageFamilies, '\n' ∉ family.help.toList := by
  decide +kernel

/-- No line of a family is cut by a newline. -/
theorem Family.newline_notMem_lines {ε : Type} {family : Family ε} {source : ε}
    (hname : isFamilyName family.name = true) (hhelp : '\n' ∉ family.help.toList)
    (hlabels : ∀ x ∈ family.series source, ∀ pair ∈ x.labels, isLabelName pair.name = true) :
    ∀ line ∈ family.lines source, '\n' ∉ line := by
  have hnewline := newline_notMem_of_isFamilyName hname
  have hword : '\n' ∉ family.measure.word.toList := by
    cases family.measure with
    | gauge samples => exact (by decide : '\n' ∉ "gauge".toList)
    | counter samples => exact (by decide : '\n' ∉ "counter".toList)
  intro line hline
  rw [lines] at hline
  split at hline
  · contradiction
  · simp only [List.mem_cons, List.mem_map] at hline
    rcases hline with rfl | rfl | ⟨x, hx, rfl⟩
    · simp [String.toList_append, hnewline, hhelp]
    · simp [String.toList_append, hnewline, hword]
    · exact newline_notMem_line hname (hlabels x hx)

theorem newline_notMem_encodeLines (s : Inventory) : ∀ line ∈ encodeLines s, '\n' ∉ line := by
  intro line hline
  rw [encodeLines, familiesLines, familiesLines, ← List.flatMap_append, ← storageFamilies] at hline
  obtain ⟨family, hfamily, hmem⟩ := List.mem_flatMap.mp hline
  exact Family.newline_notMem_lines (storageFamilies_wellNamed family hfamily).1
    (newline_notMem_help family hfamily) (fun _ => isLabelName_of_mem_series hfamily) line hmem

/-- Cut at its newlines the text of some lines is these lines. -/
theorem splitWhere_textOfLines {lines : List (List Char)} (h : ∀ line ∈ lines, '\n' ∉ line) :
    Text.splitWhere (· == '\n') (textOfLines lines).toList = lines ++ [[]] := by
  rw [textOfLines, String.toList_ofList]
  refine Text.splitWhere_flatMap_append rfl fun line hline c hc => ?_
  exact beq_false_of_ne (ne_of_mem_of_not_mem hc (h line hline))

theorem splitWhere_encode (s : Inventory) :
    Text.splitWhere (· == '\n') (encode s).toList = encodeLines s ++ [[]] :=
  splitWhere_textOfLines (newline_notMem_encodeLines s)

theorem encode_eq_iff_lines {s t : Inventory} : encode s = encode t ↔
    encodeLines s = encodeLines t := by
  constructor
  · intro h
    have hlines := splitWhere_encode s
    rw [h, splitWhere_encode t] at hlines
    exact (List.append_cancel_right hlines).symm
  · intro h
    rw [encode, encode, h]

end Lines

section Series

theorem Series.reading_inj {name other : String} {x y : Series} :
    x.reading name = y.reading other ↔ (name, x) = (other, y) := by
  constructor
  · intro h
    obtain ⟨hname, hlabels, hvalue⟩ := Reading.mk.inj h
    obtain ⟨xs, a⟩ := x
    obtain ⟨ys, b⟩ := y
    obtain rfl : a = b := Number.floatText_injective hvalue
    obtain rfl : xs = ys := hlabels
    rw [hname]
  · intro h
    obtain ⟨rfl, rfl⟩ := Prod.mk.inj h
    rfl

theorem readSeries_of_mem {s : Inventory} {family : Family Inventory}
    (hfamily : family ∈ storageFamilies) {x : Series} (hx : x ∈ family.series s) :
    readSeries (x.line family.name) = some (x.reading family.name) :=
  readSeries_line (storageFamilies_wellNamed family hfamily).1
    (isLabelName_of_mem_series hfamily hx)

theorem readSeries_comments {ε : Type} (family : Family ε) :
    readSeries family.helpLine = none ∧ readSeries family.typeLine = none := by
  have hhelp := readSeries_comment ("HELP " ++ family.name ++ " " ++ family.help)
  have htype := readSeries_comment ("TYPE " ++ family.name ++ " " ++ family.measure.word)
  simp only [← String.append_assoc] at hhelp htype
  exact ⟨hhelp, htype⟩

/-- Reading the lines gives all series and nothing else. -/
theorem encodeLines_filterMap (s : Inventory) :
    (encodeLines s).filterMap readSeries = (exposed s).map fun e => e.2.reading e.1 := by
  rw [encodeLines_eq, exposed_eq, List.filterMap_flatMap, List.map_flatMap]
  refine List.flatMap_congr fun family hshown => ?_
  obtain ⟨hhelp, htype⟩ := readSeries_comments family
  rw [Family.block, List.filterMap_cons_none hhelp, List.filterMap_cons_none htype,
    List.filterMap_map, List.map_map]
  refine List.filterMap_eq_map_iff_forall_eq_some.mpr fun x hx => ?_
  exact readSeries_of_mem (List.mem_of_mem_filter hshown) hx

/-- The series exposed under the name of a family are those of the family. -/
theorem familiesSeries_filter {s : Inventory} {families : List (Family Inventory)}
    (hnames : (families.map Family.name).Nodup) {family : Family Inventory}
    (hfamily : family ∈ families) :
    (familiesSeries families s).filter (fun e => e.1 = family.name) =
      (family.series s).map fun series => (family.name, series) := by
  induction families with
  | nil => contradiction
  | cons first rest ih =>
    rw [List.map_cons, List.nodup_cons] at hnames
    have hother : ∀ g ∈ rest, first.name ≠ g.name :=
      fun g hg heq => hnames.1 (heq ▸ List.mem_map_of_mem hg)
    rw [familiesSeries, List.flatMap_cons, List.filter_append, ← familiesSeries]
    rcases List.mem_cons.mp hfamily with rfl | hrest
    · have hnone : (familiesSeries rest s).filter (fun e => e.1 = family.name) = [] := by
        simp only [familiesSeries, List.filter_eq_nil_iff, List.mem_flatMap, List.mem_map]
        rintro e ⟨g, hg, x, -, rfl⟩
        simpa using (hother g hg).symm
      rw [hnone, List.append_nil]
      simp
    · rw [ih hnames.2 hrest]
      simp [hother family hrest]

theorem exposed_eq_iff {s t : Inventory} : exposed s = exposed t ↔
    ∀ family ∈ storageFamilies, family.series s = family.series t := by
  constructor
  · intro h family hfamily
    have hs := familiesSeries_filter (s := s) names_nodup hfamily
    rw [← exposed, h, exposed, familiesSeries_filter names_nodup hfamily] at hs
    exact (List.map_injective_iff.mpr (Prod.mk_right_injective family.name) hs).symm
  · intro h
    rw [exposed, exposed, familiesSeries, familiesSeries]
    exact List.flatMap_congr fun family hfamily => by rw [h family hfamily]

/-- Inventories have the same text just if they expose the same series. -/
theorem encode_eq_iff_exposed {s t : Inventory} : encode s = encode t ↔ exposed s = exposed t := by
  rw [encode_eq_iff_lines]
  constructor
  · intro h
    have hread := encodeLines_filterMap s
    rw [h, encodeLines_filterMap] at hread
    have hinjective : Function.Injective fun e : String × Series => e.2.reading e.1 :=
      fun _ _ heq => Series.reading_inj.mp heq
    exact (List.map_injective_iff.mpr hinjective hread).symm
  · intro h
    rw [encodeLines, encodeLines, familiesLines, familiesLines, familiesLines, familiesLines,
      ← List.flatMap_append, ← List.flatMap_append]
    refine List.flatMap_congr fun family hfamily => ?_
    rw [Family.lines, Family.lines, exposed_eq_iff.mp h family hfamily]

end Series

theorem storageFamilies_sorted : (storageFamilies.map Family.name).Pairwise (· < ·) := by
  rw [← List.isChain_iff_pairwise]
  decide +kernel

/-- The text is a line of help, a line with the type and one line for each series, family by family
in the order of their names. The line of a series is read back as this series, with its labels in
the order of their names; all lines together give just the series that are exposed, so texts are
the same just if the series are. -/
theorem encode_readBack (s : Inventory) :
    encode? s = .ok (encode s) ∧
    Text.splitWhere (· == '\n') (encode s).toList =
      ((shown s).flatMap fun family => family.helpLine :: family.typeLine ::
        (family.series s).map (·.line family.name)) ++ [[]] ∧
    ((shown s).map Family.name).Pairwise (· < ·) ∧
    (∀ family ∈ shown s, ((family.series s).map Series.labels).Nodup ∧
      ∀ x ∈ family.series s, readSeries (x.line family.name) = some (x.reading family.name) ∧
        (x.labels.map LabelPair.name).Pairwise (· < ·)) ∧
    (Text.splitWhere (· == '\n') (encode s).toList).filterMap readSeries =
      (exposed s).map (fun e => e.2.reading e.1) ∧
    ∀ t, encode s = encode t ↔ exposed s = exposed t := by
  refine ⟨encode?_eq_ok s, ?_, ?_, fun family hshown => ?_, ?_, fun t => encode_eq_iff_exposed⟩
  · rw [splitWhere_encode, encodeLines_eq]
    rfl
  · exact storageFamilies_sorted.sublist (List.filter_sublist.map Family.name)
  · have hfamily := List.mem_of_mem_filter hshown
    exact ⟨storageFamilies_series_nodup hfamily, fun x hx =>
      ⟨readSeries_of_mem hfamily hx, (series_names hfamily hx).2⟩⟩
  · rw [splitWhere_encode, List.filterMap_append, encodeLines_filterMap]
    exact List.append_nil _

end PoolGauge.Metrics
