import PoolGauge.Metrics.Exposition
import PoolGauge.Metrics.Self
import PoolGauge.Snapshot

/-!
# Metrics about the storage

The families that a snapshot fills. A state is exposed as one series for each possible state, with
the value one for the actual state. The names of families sort datasets first, then the exporter,
then pools.
-/
namespace PoolGauge.Metrics

/-- One sample for each possible state: one for the actual state, zero for the others. -/
def oneHot {σ : Type} [DecidableEq σ] (all : List σ) (word : σ → String) (labels : List String)
    (actual : σ) : List (Sample Float) :=
  all.map fun state =>
    ⟨labels ++ [word state], if state = actual then Number.nearest 1 1 else Number.nearest 0 1⟩

def vdevLabels (pool : Pool) (v : Vdev) : List String :=
  [pool.name, v.name, v.kind.word]

def datasetLabels (d : Dataset) : List String :=
  [d.name, d.pool]

def vdevSamples {α : Type} (figure : VdevStats → α) (snapshot : Inventory) : List (Sample α) :=
  snapshot.pools.flatMap fun pool =>
    pool.vdevs.toList.map fun v => ⟨vdevLabels pool v, figure v.stats⟩

def datasetSamples {α : Type} (figure : DatasetStats → α) (snapshot : Inventory) :
    List (Sample α) :=
  snapshot.datasets.map fun d => ⟨datasetLabels d, figure d.stats⟩

def vdevCounter (name help : String) (figure : VdevStats → UInt64) : Family Inventory :=
  ⟨name, help, ["pool", "vdev", "vdev_type"], .counter (vdevSamples figure)⟩

def vdevGauge (name help : String) (figure : VdevStats → UInt64) : Family Inventory :=
  ⟨name, help, ["pool", "vdev", "vdev_type"],
    .gauge (vdevSamples fun s => Number.ofWord (figure s))⟩

def datasetCounter (name help : String) (figure : DatasetStats → UInt64) :
    Family Inventory :=
  ⟨name, help, ["name", "pool"], .counter (datasetSamples figure)⟩

def datasetGauge (name help : String) (figure : DatasetStats → Float) :
    Family Inventory :=
  ⟨name, help, ["name", "pool"], .gauge (datasetSamples figure)⟩

def datasetSpace (name help : String) (figure : DatasetStats → UInt64) :
    Family Inventory :=
  datasetGauge name help fun s => Number.ofWord (figure s)

/-- The families about datasets, in the order of their names. -/
def datasetFamilies : List (Family Inventory) :=
  [ datasetSpace "zfs_dataset_available" "Space available to the dataset in bytes" (·.available),
    datasetGauge "zfs_dataset_compress_ratio" "Compression ratio of the used space"
      (·.compressRatio),
    datasetSpace "zfs_dataset_logical_referenced" "Logical data referenced by the dataset in bytes"
      (·.logicalReferenced),
    datasetSpace "zfs_dataset_logical_used" "Logical space used by the dataset in bytes"
      (·.logicalUsed),
    datasetCounter "zfs_dataset_nread" "Bytes read from the dataset" (·.bytesRead),
    datasetCounter "zfs_dataset_nunlinked" "Files unlinked in the dataset" (·.unlinked),
    datasetCounter "zfs_dataset_nunlinks" "Files queued for unlinking in the dataset" (·.unlinks),
    datasetCounter "zfs_dataset_nwritten" "Bytes written to the dataset" (·.bytesWritten),
    datasetCounter "zfs_dataset_reads" "Read operations on the dataset" (·.reads),
    datasetGauge "zfs_dataset_ref_compress_ratio" "Compression ratio of the referenced data"
      (·.refCompressRatio),
    datasetSpace "zfs_dataset_referenced" "Data referenced by the dataset in bytes" (·.referenced),
    datasetSpace "zfs_dataset_used" "Space used by the dataset and its descendants in bytes"
      (·.used),
    datasetSpace "zfs_dataset_used_by_children" "Space used by children of the dataset in bytes"
      (·.usedByChildren),
    datasetSpace "zfs_dataset_used_by_dataset" "Space used by the dataset itself in bytes"
      (·.usedByDataset),
    datasetSpace "zfs_dataset_used_by_ref_reservation"
      "Space used by the refreservation of the dataset in bytes" (·.usedByRefReservation),
    datasetSpace "zfs_dataset_used_by_snapshots" "Space used by snapshots of the dataset in bytes"
      (·.usedBySnapshots),
    datasetCounter "zfs_dataset_writes" "Write operations on the dataset" (·.writes) ]

/-- The families about pools and their vdevs, in the order of their names. -/
def poolFamilies : List (Family Inventory) :=
  [ ⟨"zfs_pool_error_count", "Persistent data errors in the pool", ["pool"],
      .counter fun s => s.pools.map fun pool => ⟨[pool.name], pool.errorCount⟩⟩,
    ⟨"zfs_pool_state", "Pool state (1 for the current state, 0 otherwise)", ["pool", "state"],
      .gauge fun s => s.pools.flatMap fun pool =>
        oneHot PoolState.all PoolState.word [pool.name] pool.state⟩,
    vdevGauge "zfs_pool_vdev_alloc_space" "Allocated space of the vdev in bytes" (·.allocSpace),
    vdevCounter "zfs_pool_vdev_checksum_errors" "Checksum errors on the vdev" (·.checksumErrors),
    vdevCounter "zfs_pool_vdev_read_bytes" "Bytes read from the vdev" (·.readBytes),
    vdevCounter "zfs_pool_vdev_read_errors" "Read errors on the vdev" (·.readErrors),
    vdevCounter "zfs_pool_vdev_read_ops" "Read operations issued to the vdev" (·.readOps),
    ⟨"zfs_pool_vdev_state", "Vdev state (1 for the current state, 0 otherwise)",
      ["pool", "vdev", "vdev_type", "state"],
      .gauge fun s => s.pools.flatMap fun pool => pool.vdevs.toList.flatMap fun v =>
        oneHot VdevState.all VdevState.word (vdevLabels pool v) v.state⟩,
    vdevGauge "zfs_pool_vdev_total_space" "Total space of the vdev in bytes" (·.totalSpace),
    vdevCounter "zfs_pool_vdev_write_bytes" "Bytes written to the vdev" (·.writeBytes),
    vdevCounter "zfs_pool_vdev_write_errors" "Write errors on the vdev" (·.writeErrors),
    vdevCounter "zfs_pool_vdev_write_ops" "Write operations issued to the vdev" (·.writeOps) ]

def encodeLines (inventory : Inventory) : List (List Char) :=
  familiesLines datasetFamilies inventory ++ familiesLines poolFamilies inventory

def encode (inventory : Inventory) : String :=
  textOfLines (encodeLines inventory)

/-- The lines that expose an inventory together with the figures about the exporter. -/
def renderLines (inventory : Inventory) (self : SelfMetrics) : List (List Char) :=
  familiesLines datasetFamilies inventory ++ familiesLines SelfMetrics.families self ++
    familiesLines poolFamilies inventory

def render (inventory : Inventory) (self : SelfMetrics) : String :=
  textOfLines (renderLines inventory self)

end PoolGauge.Metrics
