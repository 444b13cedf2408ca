import PoolGauge.Proofs.Metrics.ReadBack

/-!
# The figures about the exporter in the text

Rendered with the figures about the exporter, the text of an inventory is what it is without them,
with twelve lines more: three for each figure, between the families about datasets and those about
pools, where the names of their families belong. Rendering leaves the figures alone, however often
it happens.
-/
namespace PoolGauge.Metrics

theorem datasetFamilies_prefix :
    ∀ family ∈ datasetFamilies, "zfs_dataset_".toList <+: family.name.toList := by
  decide +kernel

theorem poolFamilies_prefix :
    ∀ family ∈ poolFamilies, "zfs_pool_".toList <+: family.name.toList := by
  decide +kernel

theorem shown_eq (s : Inventory) : shown s = shownOf datasetFamilies s ++ shownOf poolFamilies s :=
  List.filter_append ..

namespace SelfMetrics

/-- The lines about the exporter, in the order of the names of the families. -/
def shownLines (m : SelfMetrics) : List (List Char) :=
  [ ("# HELP zfs_exporter_collection_duration_seconds " ++
      "Time taken to collect the latest snapshot").toList,
    "# TYPE zfs_exporter_collection_duration_seconds gauge".toList,
    "zfs_exporter_collection_duration_seconds ".toList ++ Number.floatText m.duration,
    ("# HELP zfs_exporter_collection_failures_total " ++
      "Collections that failed and left the previous snapshot in place").toList,
    "# TYPE zfs_exporter_collection_failures_total counter".toList,
    "zfs_exporter_collection_failures_total ".toList ++
      Number.floatText (Number.ofWord m.failures),
    ("# HELP zfs_exporter_last_collection_timestamp_seconds " ++
      "Unix time the latest snapshot was collected").toList,
    "# TYPE zfs_exporter_last_collection_timestamp_seconds gauge".toList,
    "zfs_exporter_last_collection_timestamp_seconds ".toList ++ Number.floatText m.collectedAt,
    "# HELP zfs_exporter_up Whether the last collection succeeded (1) or failed (0)".toList,
    "# TYPE zfs_exporter_up gauge".toList,
    "zfs_exporter_up ".toList ++ Number.floatText m.up ]

theorem familiesLines_families (m : SelfMetrics) : familiesLines families m = m.shownLines := by
  have hshow := m.families_show
  simp only [families, figures, List.forall₂_cons, List.Forall₂.nil, and_true, true_and] at hshow
  obtain ⟨hduration, hfailures, hcollectedAt, hup⟩ := hshow
  simp only [familiesLines, families, List.flatMap_cons, List.flatMap_nil, Family.lines, hduration,
    hfailures, hcollectedAt, hup]
  rfl

theorem newline_notMem_help : ∀ family ∈ families, '\n' ∉ family.help.toList := by
  decide +kernel

theorem labels_eq_nil {m : SelfMetrics} {family : Family SelfMetrics} (hfamily : family ∈ families)
    {x : Series} (hx : x ∈ family.series m) : x.labels = [] := by
  have hunlabelled := m.families_show.imp fun family figure hshow =>
    And.intro (show ∀ x ∈ family.series m, x.labels = [] by simp [hshow.2]) hshow
  exact ((List.forall₂_and_left _ _).mp hunlabelled).1 family hfamily x hx

theorem newline_notMem_familiesLines (m : SelfMetrics) :
    ∀ line ∈ familiesLines families m, '\n' ∉ line := by
  intro line hline
  obtain ⟨family, hfamily, hmem⟩ := List.mem_flatMap.mp hline
  refine Family.newline_notMem_lines (selfFamilies_wellNamed family hfamily).1
    (newline_notMem_help family hfamily) (fun x hx => ?_) line hmem
  rw [labels_eq_nil hfamily hx]
  exact List.forall_mem_nil _

end SelfMetrics

section Text

theorem renderLines_eq (s : Inventory) (m : SelfMetrics) : renderLines s m =
    (shownOf datasetFamilies s).flatMap (·.block s) ++ m.shownLines ++
      (shownOf poolFamilies s).flatMap (·.block s) := by
  rw [renderLines, familiesLines_eq, familiesLines_eq, SelfMetrics.familiesLines_families]

theorem newline_notMem_renderLines (s : Inventory) (m : SelfMetrics) :
    ∀ line ∈ renderLines s m, '\n' ∉ line := by
  intro line hline
  simp only [renderLines, List.mem_append] at hline
  rcases hline with (hdataset | hself) | hpool
  · exact newline_notMem_encodeLines s line (List.mem_append_left _ hdataset)
  · exact m.newline_notMem_familiesLines line hself
  · exact newline_notMem_encodeLines s line (List.mem_append_right _ hpool)

theorem splitWhere_render (s : Inventory) (m : SelfMetrics) :
    Text.splitWhere (· == '\n') (render s m).toList = renderLines s m ++ [[]] :=
  splitWhere_textOfLines (newline_notMem_renderLines s m)

/-- All families in the order in which they are registered, each with its name and its lines. -/
def registered (s : Inventory) (m : SelfMetrics) : List (String × List (List Char)) :=
  storageFamilies.map (fun family => (family.name, family.lines s)) ++
    SelfMetrics.families.map fun family => (family.name, family.lines m)

theorem registered_names (s : Inventory) (m : SelfMetrics) :
    (registered s m).map Prod.fst = familyNames := by
  simp [registered, familyNames, Function.comp_def]

/-- The lines are those of all families in the order of their names. -/
theorem renderLines_eq_sorted (s : Inventory) (m : SelfMetrics) : renderLines s m =
    ((registered s m).mergeSort fun a b => decide (a.1 ≤ b.1)).flatMap Prod.snd := by
  let entries (families : List (Family Inventory)) :=
    families.map fun family => (family.name, family.lines s)
  let figures := SelfMetrics.families.map fun family => (family.name, family.lines m)
  have hperm : (entries datasetFamilies ++ figures ++ entries poolFamilies).Perm
      (registered s m) := by
    rw [registered, storageFamilies, List.map_append, List.append_assoc, List.append_assoc]
    exact List.perm_append_comm.append_left _
  have hsorted : (entries datasetFamilies ++ figures ++ entries poolFamilies).Pairwise
      fun a b => a.1 ≤ b.1 := by
    rw [← List.pairwise_map (f := Prod.fst) (R := fun a b : String => a ≤ b),
      ← List.isChain_iff_pairwise]
    simp only [entries, figures, List.map_append, List.map_map, Function.comp_def]
    decide +kernel
  have hnames : ((registered s m).map Prod.fst).Nodup := by
    rw [registered_names]
    exact familyNames_nodup
  have heq := List.Perm.eq_of_pairwise (fun a b ha hb hab hba =>
      List.inj_on_of_nodup_map hnames (hperm.mem_iff.mp ha) (List.mem_mergeSort.mp hb)
        (le_antisymm hab hba))
    hsorted (Text.pairwise_sortByName Prod.fst (registered s m))
    (hperm.trans (List.mergeSort_perm _ _).symm)
  rw [← heq, List.flatMap_append, List.flatMap_append, List.flatMap_map, List.flatMap_map,
    List.flatMap_map]
  rfl

end Text

namespace SelfMetrics

/-- What happens to an exporter. -/
inductive Event where
  | succeeded (snapshot : Snapshot)
  | failed
  | rendered (inventory : Inventory)

namespace Event

def isRendering : Event → Bool
  | rendered _ => true
  | _ => false

def isFailure : Event → Bool
  | failed => true
  | _ => false

end Event

/-- The figures after some events, and what rendering gave each time. -/
def run : SelfMetrics → List Event → SelfMetrics × List (Except Refusal String)
  | m, [] => (m, [])
  | m, .succeeded snapshot :: later => run (m.succeed snapshot) later
  | m, .failed :: later => run m.fail later
  | m, .rendered inventory :: later =>
    ((run m later).1, render? inventory m :: (run m later).2)

theorem run_append (m : SelfMetrics) (history later : List Event) : m.run (history ++ later) =
    (((m.run history).1.run later).1, (m.run history).2 ++ ((m.run history).1.run later).2) := by
  induction history generalizing m with
  | nil => rfl
  | cons event history ih =>
    cases event with
    | succeeded snapshot => exact ih _
    | failed => exact ih _
    | rendered inventory =>
      rw [List.cons_append, run, ih, run, List.cons_append]

/-- Only what is recorded changes the figures. -/
theorem run_filter (m : SelfMetrics) (history : List Event) :
    (m.run (history.filter fun event => !event.isRendering)).1 = (m.run history).1 := by
  induction history generalizing m with
  | nil => rfl
  | cons event history ih =>
    cases event with
    | succeeded snapshot => exact ih _
    | failed => exact ih _
    | rendered inventory => exact ih _

theorem failures_run (m : SelfMetrics) (history : List Event) :
    (m.run history).1.failures = m.failures + .ofNat (history.countP Event.isFailure) := by
  induction history generalizing m with
  | nil => exact (UInt64.add_zero _).symm
  | cons event history ih =>
    cases event with
    | succeeded snapshot => exact ih _
    | failed =>
      have hcount : (Event.failed :: history).countP Event.isFailure =
          1 + history.countP Event.isFailure := by
        rw [List.countP_cons_of_pos rfl, Nat.add_comm]
      rw [hcount, UInt64.ofNat_add, ← UInt64.add_assoc]
      exact ih m.fail
    | rendered inventory => exact ih _

end SelfMetrics

/-- After any history an inventory can be rendered with the figures about the exporter, as it can be
encoded without them. The text has the same lines, with those about the exporter between the
families about datasets and those about pools; so all families stand in the order of their names.
Rendering changes no figure: what counts are the collections recorded, and each failure counts
once. -/
theorem render_inserts_figures (s : Inventory) (history : List SelfMetrics.Event) :
    let figures := (SelfMetrics.initial.run history).1
    encode? s = .ok (encode s) ∧ render? s figures = .ok (render s figures) ∧
    (∃ datasets pools, shown s = datasets ++ pools ∧
      (∀ family ∈ datasets, "zfs_dataset_".toList <+: family.name.toList) ∧
      (∀ family ∈ pools, "zfs_pool_".toList <+: family.name.toList) ∧
      Text.splitWhere (· == '\n') (encode s).toList =
        datasets.flatMap (·.block s) ++ pools.flatMap (·.block s) ++ [[]] ∧
      Text.splitWhere (· == '\n') (render s figures).toList =
        datasets.flatMap (·.block s) ++ figures.shownLines ++ pools.flatMap (·.block s) ++ [[]]) ∧
    Text.splitWhere (· == '\n') (render s figures).toList =
      ((registered s figures).mergeSort fun a b => decide (a.1 ≤ b.1)).flatMap Prod.snd ++ [[]] ∧
    (SelfMetrics.initial.run (history.filter fun event => !event.isRendering)).1 = figures ∧
    figures.failures = .ofNat (history.countP SelfMetrics.Event.isFailure) ∧
    ∀ later, SelfMetrics.initial.run (history ++ .rendered s :: later) =
      ((figures.run later).1, (SelfMetrics.initial.run history).2 ++
        .ok (render s figures) :: (figures.run later).2) := by
  intro figures
  refine ⟨encode?_eq_ok s, render?_eq_ok s figures, ⟨shownOf datasetFamilies s,
    shownOf poolFamilies s, shown_eq s, ?_, ?_, ?_, ?_⟩, ?_, SelfMetrics.run_filter _ history, ?_,
    fun later => ?_⟩
  · exact fun family hfamily => datasetFamilies_prefix family (List.mem_of_mem_filter hfamily)
  · exact fun family hfamily => poolFamilies_prefix family (List.mem_of_mem_filter hfamily)
  · rw [splitWhere_encode, encodeLines, familiesLines_eq, familiesLines_eq]
  · rw [splitWhere_render, renderLines_eq]
  · rw [splitWhere_render, renderLines_eq_sorted]
  · exact (SelfMetrics.failures_run _ history).trans (UInt64.zero_add _)
  · rw [SelfMetrics.run_append, SelfMetrics.run, render?_eq_ok]

end PoolGauge.Metrics
