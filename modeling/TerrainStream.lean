import TerrainStream.Build.Crew
import TerrainStream.Build.Job
import TerrainStream.Cell.Grid
import TerrainStream.Cell.Key
import TerrainStream.Cell.Snapshot
import TerrainStream.Collision.Command
import TerrainStream.Collision.Simulation
import TerrainStream.Demo.Basic
import TerrainStream.Demo.CommandLine
import TerrainStream.Exchange.Mailbox
import TerrainStream.Main
import TerrainStream.Physics.Body
import TerrainStream.Physics.Pose
import TerrainStream.Physics.Recorder
import TerrainStream.Physics.Scene
import TerrainStream.Pipeline.Basic
import TerrainStream.Pipeline.Step
import TerrainStream.Pipeline.Supply
import TerrainStream.Proofs.Cell.Enumeration
import TerrainStream.Proofs.Cell.Packing
import TerrainStream.Proofs.Cell.Surroundings
import TerrainStream.Proofs.Cell.Table
import TerrainStream.Proofs.Collision.Accountable
import TerrainStream.Proofs.Collision.Agreement
import TerrainStream.Proofs.Collision.Portions
import TerrainStream.Proofs.Exchange.Mailbox
import TerrainStream.Proofs.Physics.Motion
import TerrainStream.Proofs.Physics.Scene
import TerrainStream.Proofs.Pipeline.Activation
import TerrainStream.Proofs.Pipeline.Admission
import TerrainStream.Proofs.Pipeline.Album
import TerrainStream.Proofs.Pipeline.Carriers
import TerrainStream.Proofs.Pipeline.Chronicle
import TerrainStream.Proofs.Pipeline.Completion
import TerrainStream.Proofs.Pipeline.Draining
import TerrainStream.Proofs.Pipeline.Edits
import TerrainStream.Proofs.Pipeline.Geometry
import TerrainStream.Proofs.Pipeline.Heralds
import TerrainStream.Proofs.Pipeline.Installs
import TerrainStream.Proofs.Pipeline.Journal
import TerrainStream.Proofs.Pipeline.Ledger
import TerrainStream.Proofs.Pipeline.Lockstep
import TerrainStream.Proofs.Pipeline.Merging
import TerrainStream.Proofs.Pipeline.Mirror
import TerrainStream.Proofs.Pipeline.Orders
import TerrainStream.Proofs.Pipeline.Passage
import TerrainStream.Proofs.Pipeline.Provision
import TerrainStream.Proofs.Pipeline.Reclamation
import TerrainStream.Proofs.Pipeline.References
import TerrainStream.Proofs.Pipeline.Register
import TerrainStream.Proofs.Pipeline.Repetition
import TerrainStream.Proofs.Pipeline.Retries
import TerrainStream.Proofs.Pipeline.Run
import TerrainStream.Proofs.Pipeline.Running
import TerrainStream.Proofs.Pipeline.Shapes
import TerrainStream.Proofs.Pipeline.Watch
import TerrainStream.Proofs.Residency.Activation
import TerrainStream.Proofs.Residency.Acts
import TerrainStream.Proofs.Residency.Admission
import TerrainStream.Proofs.Residency.Arrivals
import TerrainStream.Proofs.Residency.Backlog
import TerrainStream.Proofs.Residency.Balance
import TerrainStream.Proofs.Residency.Clearance
import TerrainStream.Proofs.Residency.Coalescing
import TerrainStream.Proofs.Residency.Departure
import TerrainStream.Proofs.Residency.Hearing
import TerrainStream.Proofs.Residency.Lineage
import TerrainStream.Proofs.Residency.Ranking
import TerrainStream.Proofs.Residency.Regions
import TerrainStream.Proofs.Residency.Respite
import TerrainStream.Proofs.Residency.Standing
import TerrainStream.Proofs.Residency.Steady
import TerrainStream.Proofs.Residency.Stillness
import TerrainStream.Proofs.Residency.Vacancy
import TerrainStream.Proofs.Shape.Carving
import TerrainStream.Proofs.Shape.Covering
import TerrainStream.Proofs.Shape.Fallback
import TerrainStream.Proofs.Shape.Maximal
import TerrainStream.Proofs.Shape.Partition
import TerrainStream.Proofs.Shape.Reuse
import TerrainStream.Proofs.Shape.Strict
import TerrainStream.Proofs.Store.Accounts
import TerrainStream.Proofs.Store.Alike
import TerrainStream.Proofs.Store.Builds
import TerrainStream.Proofs.Store.Claims
import TerrainStream.Proofs.Store.Deeds
import TerrainStream.Proofs.Store.History
import TerrainStream.Proofs.Store.Lives
import TerrainStream.Proofs.Store.Lookup
import TerrainStream.Proofs.Store.Refusals
import TerrainStream.Proofs.Store.Room
import TerrainStream.Proofs.Store.Sound
import TerrainStream.Proofs.Store.Tenancy
import TerrainStream.Proofs.Store.Withdrawal
import TerrainStream.Proofs.World.Snapshots
import TerrainStream.Proofs.World.Supplier
import TerrainStream.Residency.Event
import TerrainStream.Residency.Pass
import TerrainStream.Residency.Planner
import TerrainStream.Residency.Report
import TerrainStream.Residency.Request
import TerrainStream.Residency.Run
import TerrainStream.Residency.Settings
import TerrainStream.Residency.Tracker
import TerrainStream.Settings.Basic
import TerrainStream.Shape.Basic
import TerrainStream.Shape.Cover
import TerrainStream.Shape.Merge
import TerrainStream.Shape.Scratch
import TerrainStream.Space.Aabb
import TerrainStream.Space.Vec3
import TerrainStream.Store.Basic
import TerrainStream.Store.Census
import TerrainStream.Store.Lifecycle
import TerrainStream.Store.Slot
import TerrainStream.Toml.Document
import TerrainStream.Toml.Number
import TerrainStream.Toml.Reader
import TerrainStream.Toml.Text
import TerrainStream.Toml.Value
import TerrainStream.World.Ground
import TerrainStream.World.Heightmap
import TerrainStream.World.Supplier
