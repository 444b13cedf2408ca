import PoolGauge.Cache.Basic
import PoolGauge.Cache.Refresher
import PoolGauge.Cache.Schedule
import PoolGauge.Collection
import PoolGauge.Config.Basic
import PoolGauge.Config.Decode
import PoolGauge.Config.Load
import PoolGauge.Dataset.Activity
import PoolGauge.Dataset.Basic
import PoolGauge.Dataset.Properties
import PoolGauge.Duration
import PoolGauge.Failure
import PoolGauge.FileTree
import PoolGauge.Health
import PoolGauge.Http.Response
import PoolGauge.Main
import PoolGauge.Metrics.Exposition
import PoolGauge.Metrics.Family
import PoolGauge.Metrics.Self
import PoolGauge.Metrics.Storage
import PoolGauge.Number.Binary64
import PoolGauge.Number.Radix
import PoolGauge.Number.Reading
import PoolGauge.Number.Shortest
import PoolGauge.Number.Whole
import PoolGauge.Options
import PoolGauge.Pool.Basic
import PoolGauge.Pool.Listing
import PoolGauge.Pool.Status
import PoolGauge.Proofs.Cache.Acts
import PoolGauge.Proofs.Cache.Log
import PoolGauge.Proofs.Cache.Records
import PoolGauge.Proofs.Cache.Refreshes
import PoolGauge.Proofs.Cache.Runs
import PoolGauge.Proofs.Cache.Tasks
import PoolGauge.Proofs.Cache.Turns
import PoolGauge.Proofs.Metrics.Entities
import PoolGauge.Proofs.Metrics.Keys
import PoolGauge.Proofs.Metrics.Series
import PoolGauge.Proofs.Pool.Table
import PoolGauge.Proofs.Vdev.Arena
import PoolGauge.Proofs.Vdev.Names
import PoolGauge.RefreshMode
import PoolGauge.Settings.Basic
import PoolGauge.Settings.Environment
import PoolGauge.Settings.EnvironmentFile
import PoolGauge.Settings.Json
import PoolGauge.Settings.Path
import PoolGauge.Settings.Toml.Document
import PoolGauge.Settings.Toml.Scalar
import PoolGauge.Settings.Toml.Tables
import PoolGauge.Settings.Toml.Text
import PoolGauge.Snapshot
import PoolGauge.Source.Commands
import PoolGauge.Source.Query
import PoolGauge.Source.Script
import PoolGauge.Text.Alphanumeric
import PoolGauge.Text.Blank
import PoolGauge.Text.Quoted
import PoolGauge.Text.Reader
import PoolGauge.Text.Split
import PoolGauge.Text.Unprintable
import PoolGauge.Text.Utf8
import PoolGauge.Vdev.Kind
import PoolGauge.Vdev.Properties
import PoolGauge.Vdev.Tree
import PoolGauge.Proofs.Number.Decimal
import PoolGauge.Proofs.Pool.Topology
import PoolGauge.Proofs.Text.Cuts
import PoolGauge.Proofs.Pool.Printed
import PoolGauge.Proofs.Pool.Rows
import PoolGauge.Proofs.Pool.Grammar
import PoolGauge.Proofs.Pool.Figures
import PoolGauge.Proofs.Vdev.Growth
import PoolGauge.Proofs.Collection.Course
import PoolGauge.Proofs.Collection.Containment
import PoolGauge.Proofs.Collection.Presence
import PoolGauge.Proofs.Collection.Isolation
import PoolGauge.Proofs.Metrics.Rendered
import PoolGauge.Proofs.Cache.Requests
import PoolGauge.Proofs.Cache.Pages
import PoolGauge.Proofs.Cache.Collections
import PoolGauge.Proofs.Cache.Drops
import PoolGauge.Proofs.Cache.Staleness
import PoolGauge.Proofs.Dataset.Rows
import PoolGauge.Proofs.Source.Steady
import PoolGauge.Proofs.Collection.Reordering
import PoolGauge.Proofs.Collection.Names
import PoolGauge.Proofs.Metrics.ReadBack
import PoolGauge.Proofs.Text.Fields
import PoolGauge.Proofs.Dataset.Values
import PoolGauge.Proofs.Dataset.Counters
import PoolGauge.Proofs.Metrics.Canonical
import PoolGauge.Proofs.Metrics.Exporter
import PoolGauge.Proofs.Pool.Leaves
import PoolGauge.Proofs.Text.Utf8
import PoolGauge.Proofs.Source.Launches
import PoolGauge.Proofs.Text.Beginnings
import PoolGauge.Proofs.Collection.Interrupted
import PoolGauge.Proofs.Cache.Steps
import PoolGauge.Proofs.Cache.Timeline
import PoolGauge.Proofs.Cache.Clock
import PoolGauge.Proofs.Cache.Clocked
import PoolGauge.Proofs.Cache.Progress
import PoolGauge.Proofs.Cache.Accounts
import PoolGauge.Proofs.Cache.Attempts
import PoolGauge.Proofs.Cache.Deadlines
import PoolGauge.Proofs.Cache.Waiting
import PoolGauge.Proofs.Cache.Background
import PoolGauge.Proofs.Cache.Ticks
import PoolGauge.Proofs.Pool.Branches
import PoolGauge.Proofs.Metrics.Totals
import PoolGauge.Proofs.Collection.Repeats
