import TerrainStream.Build.Job
import TerrainStream.Physics.Pose
import TerrainStream.Residency.Pass
import TerrainStream.World.Supplier

/-! The whole terrain pipeline: a planner, a world that supplies snapshots, builds, and a simulation,
joined by the store and by three queues. Any of the three parties may go away; its queue closes with it. -/

namespace TerrainStream

open Cell Store Shape Collision Build Residency Physics World

/-- Work on the store that other owners have lined up for the next calls of each collaborator. -/
structure Interludes where
  addition : List Interlude
  building : List Interlude
  snapshot : List Interlude

namespace Interludes

def quiet : Interludes := ⟨[], [], []⟩

end Interludes

structure Pipeline (σ ω : Type) where
  grid : Grid
  store : Store
  planner : Option Planner
  /-- To the planner. -/
  events : Mailbox Event
  /-- To the world. -/
  requests : Mailbox Request
  /-- To the simulation. -/
  commands : Mailbox Command
  builder : Builder
  scratch : Scratch
  /-- Jobs held back while the gate before the builders is closed. -/
  parked : Option (Array (Job × Lane))
  world : ω
  sim : σ
  poses : PoseBoard
  interludes : Interludes
  /-- Jobs submitted, for whoever watches. -/
  lanes : Array (Key × Lane)
  outcomes : Array (Key × Outcome)
  /-- What all drains so far came to. -/
  drained : Tally

namespace Pipeline

variable {σ ω : Type}

/-- A pipeline at rest: an empty store, no bodies, nothing queued. -/
def new (grid : Grid) (store : Store) (pacing : Pacing) (margins : Margins) (builder : Builder) (world : ω)
    (sim : σ) : Pipeline σ ω :=
  { grid, store, planner := some (Planner.new grid pacing margins)
    events := Mailbox.empty, requests := Mailbox.empty, commands := Mailbox.empty
    builder, scratch := Scratch.empty, parked := none, world, sim, poses := ∅
    interludes := Interludes.quiet, lanes := #[], outcomes := #[], drained := Tally.zero }

/-- Tell the planner something; it arrives while the queue of events is open. -/
def send (p : Pipeline σ ω) (e : Event) : Pipeline σ ω := { p with events := p.events.post e }

def command (p : Pipeline σ ω) (c : Command) : Pipeline σ ω := { p with commands := p.commands.post c }

/-- The pipeline once whoever watches has read what was logged. -/
def watched (p : Pipeline σ ω) : Pipeline σ ω := { p with lanes := #[], outcomes := #[] }

def dropPlanner (p : Pipeline σ ω) : Pipeline σ ω := { p with planner := none, events := Mailbox.closed }

def dropSupply (p : Pipeline σ ω) : Pipeline σ ω := { p with requests := Mailbox.closed }

def dropSimulation (p : Pipeline σ ω) : Pipeline σ ω := { p with commands := Mailbox.closed }

end Pipeline

end TerrainStream
