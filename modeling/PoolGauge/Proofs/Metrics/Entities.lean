import Mathlib.Data.List.Forall2
import Mathlib.Data.List.Perm.Basic
import PoolGauge.Proofs.Metrics.Series

/-!
# Entities and their series

The families of an inventory with distinct entities expose one series for each state of a pool or
vdev and one for each figure of a pool, vdev or dataset, and nothing else.
-/
namespace PoolGauge.Metrics

def familiesSeries (families : List (Family Inventory)) (s : Inventory) : List (String × Series) :=
  families.flatMap fun family => (family.series s).map fun series => (family.name, series)

def exposed (s : Inventory) : List (String × Series) :=
  familiesSeries (datasetFamilies ++ poolFamilies) s

/-- The series of a pool: the errors counted and one for each possible state. -/
def poolSeries (p : Pool) : List (String × Series) :=
  ("zfs_pool_error_count", ⟨[⟨"pool", p.name⟩], Number.ofWord p.errorCount⟩) ::
    PoolState.all.map fun state =>
      ("zfs_pool_state",
        ⟨[⟨"pool", p.name⟩, ⟨"state", state.word⟩], if state = p.state then 1 else 0⟩)

def vdevFigures : List (String × (VdevStats → UInt64)) :=
  [ ("zfs_pool_vdev_alloc_space", VdevStats.allocSpace),
    ("zfs_pool_vdev_checksum_errors", VdevStats.checksumErrors),
    ("zfs_pool_vdev_read_bytes", VdevStats.readBytes),
    ("zfs_pool_vdev_read_errors", VdevStats.readErrors),
    ("zfs_pool_vdev_read_ops", VdevStats.readOps),
    ("zfs_pool_vdev_total_space", VdevStats.totalSpace),
    ("zfs_pool_vdev_write_bytes", VdevStats.writeBytes),
    ("zfs_pool_vdev_write_errors", VdevStats.writeErrors),
    ("zfs_pool_vdev_write_ops", VdevStats.writeOps) ]

/-- The series of a vdev: one for each possible state and one for each figure. -/
def vdevSeries (p : Pool) (v : Vdev) : List (String × Series) :=
  (VdevState.all.map fun state =>
    ("zfs_pool_vdev_state",
      ⟨[⟨"pool", p.name⟩, ⟨"state", state.word⟩, ⟨"vdev", v.name⟩, ⟨"vdev_type", v.kind.word⟩],
        if state = v.state then 1 else 0⟩)) ++
  vdevFigures.map fun figure =>
    (figure.1, ⟨[⟨"pool", p.name⟩, ⟨"vdev", v.name⟩, ⟨"vdev_type", v.kind.word⟩],
      Number.ofWord (figure.2 v.stats)⟩)

def datasetFigures : List (String × (DatasetStats → Float)) :=
  [ ("zfs_dataset_available", fun s => Number.ofWord s.available),
    ("zfs_dataset_compress_ratio", fun s => s.compressRatio),
    ("zfs_dataset_logical_referenced", fun s => Number.ofWord s.logicalReferenced),
    ("zfs_dataset_logical_used", fun s => Number.ofWord s.logicalUsed),
    ("zfs_dataset_nread", fun s => Number.ofWord s.bytesRead),
    ("zfs_dataset_nunlinked", fun s => Number.ofWord s.unlinked),
    ("zfs_dataset_nunlinks", fun s => Number.ofWord s.unlinks),
    ("zfs_dataset_nwritten", fun s => Number.ofWord s.bytesWritten),
    ("zfs_dataset_reads", fun s => Number.ofWord s.reads),
    ("zfs_dataset_ref_compress_ratio", fun s => s.refCompressRatio),
    ("zfs_dataset_referenced", fun s => Number.ofWord s.referenced),
    ("zfs_dataset_used", fun s => Number.ofWord s.used),
    ("zfs_dataset_used_by_children", fun s => Number.ofWord s.usedByChildren),
    ("zfs_dataset_used_by_dataset", fun s => Number.ofWord s.usedByDataset),
    ("zfs_dataset_used_by_ref_reservation", fun s => Number.ofWord s.usedByRefReservation),
    ("zfs_dataset_used_by_snapshots", fun s => Number.ofWord s.usedBySnapshots),
    ("zfs_dataset_writes", fun s => Number.ofWord s.writes) ]

def datasetSeries (d : Dataset) : List (String × Series) :=
  datasetFigures.map fun figure =>
    (figure.1, ⟨[⟨"name", d.name⟩, ⟨"pool", d.pool⟩], figure.2 d.stats⟩)

def entitySeries (s : Inventory) : List (String × Series) :=
  s.pools.flatMap poolSeries ++ s.vdevs.flatMap (fun e => vdevSeries e.1 e.2) ++
    s.datasets.flatMap datasetSeries

variable {s : Inventory}

/-- Going through two lists in either order gives the same entries. -/
theorem flatMap_map_perm_swap {α β γ : Type} (f : α → β → γ) (l : List α) (m : List β) :
    (l.flatMap fun a => m.map (f a)).Perm (m.flatMap fun b => l.map fun a => f a b) := by
  induction l with
  | nil => simp
  | cons a rest ih =>
    simp only [List.flatMap_cons, List.map_cons]
    exact (ih.append_left _).trans (List.map_append_flatMap_perm m (f a) _)

theorem flatMap_perm_of_forall₂ {α β γ : Type} {R : α → β → Prop} {f : α → List γ}
    {g : β → List γ} (hfg : ∀ a b, R a b → (f a).Perm (g b)) {l : List α} {m : List β}
    (h : List.Forall₂ R l m) : (l.flatMap f).Perm (m.flatMap g) := by
  induction h with
  | nil => rfl
  | cons hab _ ih =>
    simp only [List.flatMap_cons]
    exact (hfg _ _ hab).append ih

def ShowsDatasets (s : Inventory) (family : Family Inventory)
    (figure : String × (DatasetStats → Float)) : Prop :=
  family.Shows s figure.1 s.datasets datasetLabels
    fun d => ⟨[⟨"name", d.name⟩, ⟨"pool", d.pool⟩], figure.2 d.stats⟩

def ShowsVdevs (s : Inventory) (family : Family Inventory)
    (figure : String × (VdevStats → UInt64)) : Prop :=
  family.Shows s figure.1 s.vdevs (fun e => vdevLabels e.1 e.2)
    fun e => ⟨[⟨"pool", e.1.name⟩, ⟨"vdev", e.2.name⟩, ⟨"vdev_type", e.2.kind.word⟩],
      Number.ofWord (figure.2 e.2.stats)⟩

theorem showsDatasets_gauge (s : Inventory) (name help : String) (figure : DatasetStats → Float) :
    ShowsDatasets s (datasetGauge name help figure) (name, figure) where
  name_eq := rfl
  written := rfl
  pairs d := by simp [labelPairs, datasetGauge, datasetLabels, List.mergeSort]
  lengths _ := rfl
  nodup := by simp [datasetGauge]

theorem showsDatasets_counter (s : Inventory) (name help : String)
    (figure : DatasetStats → UInt64) :
    ShowsDatasets s (datasetCounter name help figure)
      (name, fun stats => Number.ofWord (figure stats)) where
  name_eq := rfl
  written := by simp [datasetCounter, Measure.written, datasetSamples]
  pairs d := by simp [labelPairs, datasetCounter, datasetLabels, List.mergeSort]
  lengths _ := rfl
  nodup := by simp [datasetCounter]

theorem showsVdevs_gauge (s : Inventory) (name help : String) (figure : VdevStats → UInt64) :
    ShowsVdevs s (vdevGauge name help figure) (name, figure) where
  name_eq := rfl
  written := vdevSamples_eq (fun stats => Number.ofWord (figure stats)) s
  pairs e := by simp [labelPairs, vdevGauge, vdevLabels, List.mergeSort]
  lengths _ := rfl
  nodup := by simp [vdevGauge]

theorem showsVdevs_counter (s : Inventory) (name help : String) (figure : VdevStats → UInt64) :
    ShowsVdevs s (vdevCounter name help figure) (name, figure) where
  name_eq := rfl
  written := by simp [vdevCounter, Measure.written, vdevSamples_eq]
  pairs e := by simp [labelPairs, vdevCounter, vdevLabels, List.mergeSort]
  lengths _ := rfl
  nodup := by simp [vdevCounter]

theorem datasetFamilies_show (s : Inventory) :
    List.Forall₂ (ShowsDatasets s) datasetFamilies datasetFigures := by
  simp only [datasetFamilies, datasetFigures, datasetSpace, List.forall₂_cons,
    List.forall₂_nil_left_iff, and_true]
  simp only [showsDatasets_gauge, showsDatasets_counter, and_self]

/-- The families about pools besides those about figures of vdevs. -/
theorem poolFamilies_show (s : Inventory) : ∃ errors states vdevStates figures,
    poolFamilies.Perm (errors :: states :: vdevStates :: figures) ∧
    errors.Shows s "zfs_pool_error_count" s.pools (fun p => [p.name])
      (fun p => ⟨[⟨"pool", p.name⟩], Number.ofWord p.errorCount⟩) ∧
    states.Shows s "zfs_pool_state" (withStates PoolState.all s.pools)
      (fun a => [a.1.name] ++ [a.2.word])
      (fun a => ⟨[⟨"pool", a.1.name⟩, ⟨"state", a.2.word⟩], if a.2 = a.1.state then 1 else 0⟩) ∧
    vdevStates.Shows s "zfs_pool_vdev_state" (withStates VdevState.all s.vdevs)
      (fun a => vdevLabels a.1.1 a.1.2 ++ [a.2.word])
      (fun a => ⟨[⟨"pool", a.1.1.name⟩, ⟨"state", a.2.word⟩, ⟨"vdev", a.1.2.name⟩,
        ⟨"vdev_type", a.1.2.kind.word⟩], if a.2 = a.1.2.state then 1 else 0⟩) ∧
    List.Forall₂ (ShowsVdevs s) figures vdevFigures := by
  refine ⟨poolFamilies[0], poolFamilies[1], poolFamilies[7], (poolFamilies.eraseIdx 7).drop 2,
    ?perm, ?errors, ?states, ?vdevStates, ?figures⟩
  case perm =>
    have hmoved := List.getElem_cons_eraseIdx_perm (by decide : 5 < (poolFamilies.drop 2).length)
    exact (hmoved.symm.cons _).cons _
  case errors =>
    exact {
      name_eq := rfl
      written := by simp [poolFamilies, Measure.written]
      pairs := by simp [poolFamilies, labelPairs]
      lengths _ := rfl
      nodup := by simp [poolFamilies] }
  case states =>
    exact {
      name_eq := rfl
      written := oneHot_withStates PoolState.all PoolState.word s.pools _ Pool.state
      pairs a := by simp [poolFamilies, labelPairs, List.mergeSort]
      lengths _ := rfl
      nodup := by simp [poolFamilies] }
  case vdevStates =>
    have hflat : poolFamilies[7].measure.written s = s.vdevs.flatMap fun e =>
        oneHot VdevState.all VdevState.word (vdevLabels e.1 e.2) e.2.state := by
      simp [poolFamilies, Measure.written, Inventory.vdevs, List.flatMap_assoc, List.flatMap_map]
    exact {
      name_eq := rfl
      written := by
        rw [hflat]
        exact oneHot_withStates VdevState.all VdevState.word s.vdevs _ fun e => e.2.state
      pairs a := by simp [poolFamilies, labelPairs, vdevLabels, List.mergeSort]
      lengths _ := rfl
      nodup := by simp [poolFamilies] }
  case figures =>
    simp only [poolFamilies, vdevFigures, List.eraseIdx, List.drop, List.forall₂_cons,
      List.forall₂_nil_left_iff, and_true]
    simp only [showsVdevs_gauge, showsVdevs_counter, and_self]

theorem datasetFamilies_apart (h : s.Distinct) {family : Family Inventory}
    (hfamily : family ∈ datasetFamilies) : family.Apart s := by
  have hshow := (datasetFamilies_show s).imp fun _ _ hshows =>
    And.intro (hshows.apart (datasetKeys h)) hshows
  exact ((List.forall₂_and_left _ _).mp hshow).1 family hfamily

theorem poolFamilies_apart (h : s.Distinct) {family : Family Inventory}
    (hfamily : family ∈ poolFamilies) : family.Apart s := by
  obtain ⟨errors, states, vdevStates, figures, hperm, herrors, hstates, hvdevStates, hfigures⟩ :=
    poolFamilies_show s
  simp only [hperm.mem_iff, List.mem_cons] at hfamily
  rcases hfamily with rfl | rfl | rfl | hfigure
  · exact herrors.apart (poolKeys h)
  · exact hstates.apart (poolStateKeys h)
  · exact hvdevStates.apart (vdevStateKeys h)
  · have hshow := hfigures.imp fun _ _ hshows => And.intro (hshows.apart (vdevKeys h)) hshows
    exact ((List.forall₂_and_left _ _).mp hshow).1 family hfigure

theorem datasetFamilies_perm (h : s.Distinct) :
    (familiesSeries datasetFamilies s).Perm (s.datasets.flatMap datasetSeries) := by
  have hshow := (datasetFamilies_show s).imp fun _ _ hshows =>
    hshows.series_perm (datasetKeys h)
  exact (flatMap_perm_of_forall₂ (fun _ _ hperm => hperm) hshow).trans
    (flatMap_map_perm_swap _ datasetFigures s.datasets)

theorem vdevFigures_perm (h : s.Distinct) {figures : List (Family Inventory)}
    (hfigures : List.Forall₂ (ShowsVdevs s) figures vdevFigures) :
    (familiesSeries figures s).Perm (s.vdevs.flatMap fun e => vdevFigures.map fun figure =>
      (figure.1, ⟨[⟨"pool", e.1.name⟩, ⟨"vdev", e.2.name⟩, ⟨"vdev_type", e.2.kind.word⟩],
        Number.ofWord (figure.2 e.2.stats)⟩)) := by
  have hshow := hfigures.imp fun _ _ hshows => hshows.series_perm (vdevKeys h)
  exact (flatMap_perm_of_forall₂ (fun _ _ hperm => hperm) hshow).trans
    (flatMap_map_perm_swap _ vdevFigures s.vdevs)

theorem poolFamilies_perm (h : s.Distinct) :
    (familiesSeries poolFamilies s).Perm
      (s.pools.flatMap poolSeries ++ s.vdevs.flatMap fun e => vdevSeries e.1 e.2) := by
  obtain ⟨errors, states, vdevStates, figures, hperm, herrors, hstates, hvdevStates, hfigures⟩ :=
    poolFamilies_show s
  have hpools := (herrors.series_perm (poolKeys h)).append (hstates.series_perm (poolStateKeys h))
  have hvdevs := (hvdevStates.series_perm (vdevStateKeys h)).append (vdevFigures_perm h hfigures)
  refine (hperm.flatMap_right _).trans ?_
  simp only [List.flatMap_cons, ← List.append_assoc]
  rw [List.append_assoc _ _ (List.flatMap _ figures)]
  refine (hpools.append hvdevs).trans (List.Perm.append ?_ ?_)
  · rw [withStates, List.map_flatMap]
    simp only [List.map_map]
    exact List.map_append_flatMap_perm _ _ _
  · rw [withStates, List.map_flatMap]
    simp only [List.map_map]
    exact List.flatMap_append_perm _ _ _

theorem exposed_perm (h : s.Distinct) : (exposed s).Perm (entitySeries s) := by
  rw [exposed, familiesSeries, List.flatMap_append]
  exact ((datasetFamilies_perm h).append (poolFamilies_perm h)).trans List.perm_append_comm

theorem names_nodup : ((datasetFamilies ++ poolFamilies).map Family.name).Nodup := by
  decide +kernel

/-- No two series have the name of their family and all labels in common. -/
theorem exposed_nodup (h : s.Distinct) :
    ((exposed s).map fun e => (e.1, e.2.labels)).Nodup := by
  have hnames := names_nodup
  rw [List.Nodup, List.pairwise_map] at hnames
  rw [List.Nodup, List.pairwise_map, exposed, familiesSeries, List.pairwise_flatMap]
  constructor
  · intro family hfamily
    have hapart : family.Apart s := by
      rcases List.mem_append.mp hfamily with hdataset | hpool
      · exact datasetFamilies_apart h hdataset
      · exact poolFamilies_apart h hpool
    have hlabels := Family.labels_nodup hapart.labels hapart.lengths
    rw [List.Nodup, List.pairwise_map] at hlabels
    rw [List.pairwise_map]
    exact hlabels.imp fun hne heq => hne (Prod.mk.inj heq).2
  · refine hnames.imp fun hne a ha b hb heq => hne ?_
    obtain ⟨x, -, rfl⟩ := List.mem_map.mp ha
    obtain ⟨y, -, rfl⟩ := List.mem_map.mp hb
    exact (Prod.mk.inj heq).1

/-- Whether a line is not one about the family itself. -/
def isSeriesLine (line : List Char) : Bool :=
  line.head? != some '#'

theorem Family.lines_filter {ε : Type} (family : Family ε) (source : ε)
    (hname : family.name.toList.head? = some 'z') :
    (family.lines source).filter isSeriesLine =
      (family.series source).map (·.line family.name) := by
  have hline : ∀ x : Series, isSeriesLine (x.line family.name) = true := by
    intro x
    simp [isSeriesLine, Series.line, List.head?_append, hname]
  rw [Family.lines]
  split
  · rename_i hnone
    simp [hnone]
  · rw [List.filter_cons_of_neg (by simp [isSeriesLine, String.toList_append]),
      List.filter_cons_of_neg (by simp [isSeriesLine, String.toList_append]),
      List.filter_eq_self.mpr fun line hmem => ?_]
    obtain ⟨x, -, rfl⟩ := List.mem_map.mp hmem
    exact hline x

theorem encodeLines_filter (s : Inventory) :
    (encodeLines s).filter isSeriesLine = (exposed s).map fun e => e.2.line e.1 := by
  have hnames : ∀ family ∈ datasetFamilies ++ poolFamilies,
      family.name.toList.head? = some 'z' := by
    decide +kernel
  rw [encodeLines, familiesLines, familiesLines, ← List.flatMap_append, List.filter_flatMap,
    exposed, familiesSeries, List.map_flatMap]
  refine List.flatMap_congr fun family hfamily => ?_
  rw [family.lines_filter s (hnames family hfamily), List.map_map]
  rfl

theorem vdevs_names (s : Inventory) : s.vdevs.map (fun e => (e.1.name, e.2.name)) =
    s.pools.flatMap fun p => p.vdevs.names.map fun name => (p.name, name) := by
  simp only [Inventory.vdevs, VdevTree.names, List.map_flatMap, List.map_map, Function.comp_def]

end PoolGauge.Metrics
