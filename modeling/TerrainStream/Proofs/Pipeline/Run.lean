import TerrainStream.Pipeline.Step
import TerrainStream.World.Ground

/-! Runs of a pipeline: any number of moves in any order, while all three parties stay and nobody else
works on the store. The world and the bodies change between moves as they like. -/

namespace TerrainStream

open Cell Store Shape Collision Build Residency Physics World

variable {σ ω : Type}

/-- One thing that happens to a pipeline around a world `ω`. -/
inductive Move (ω : Type)
  | send (event : Event)
  | pass
  | supply (most : Nat)
  | closeGate
  | openGate
  /-- A job that waits at the gate is run, wherever it stands in line. -/
  | build (place : Nat)
  | drain (most : Nat)
  | world (world : ω)
  | poses (poses : PoseBoard)

namespace Pipeline

/-- Run one of the jobs that wait at the gate. -/
def build (p : Pipeline σ ω) (place : Nat) : Pipeline σ ω :=
  let jobs := p.parked.getD #[]
  match jobs[place]? with
  | none => p
  | some job => { p with parked := some (jobs.eraseIdxIfInBounds place) }.runJob job.1

def move [Simulation σ] [Supplier ω] (p : Pipeline σ ω) : Move ω → Pipeline σ ω
  | .send event => p.send event
  | .pass => p.pass.1
  | .supply most => (p.supply most).1
  | .closeGate => p.closeGate
  | .openGate => p.openGate
  | .build place => p.build place
  | .drain most => (p.drain most).1
  | .world world => { p with world }
  | .poses poses => { p with poses }

def run [Simulation σ] [Supplier ω] (p : Pipeline σ ω) (moves : List (Move ω)) : Pipeline σ ω := moves.foldl move p

/-- The events that the planner's next pass applies. -/
def batch (p : Pipeline σ ω) : List Event := p.planner.elim [] (·.inbox) ++ p.events.letters.toList

/-- All the events that passes apply in the course of some moves. -/
def applied [Simulation σ] [Supplier ω] (p : Pipeline σ ω) : List (Move ω) → List Event
  | [] => []
  | .pass :: rest => p.batch ++ applied p.pass.1 rest
  | other :: rest => applied (p.move other) rest

/-- Whether no pass among some moves runs out of room. -/
def Unfailing [Simulation σ] [Supplier ω] (p : Pipeline σ ω) : List (Move ω) → Prop
  | [] => True
  | .pass :: rest => (∃ report, p.pass.2 = some (.ok report)) ∧ Unfailing p.pass.1 rest
  | other :: rest => Unfailing (p.move other) rest

theorem answered {answer : Option (Except Fault Report)} :
    answer.any (·.toBool) = true ↔ ∃ report, answer = some (.ok report) := by
  rcases answer with _ | (fault | report) <;> simp [Except.toBool]

instance decideUnfailing [Simulation σ] [Supplier ω] (p : Pipeline σ ω) :
    (moves : List (Move ω)) → Decidable (p.Unfailing moves)
  | [] => .isTrue trivial
  | .pass :: rest =>
    have := decideUnfailing p.pass.1 rest
    decidable_of_iff (p.pass.2.any (·.toBool) = true ∧ p.pass.1.Unfailing rest) (and_congr_left' answered)
  | .send event :: rest => decideUnfailing (p.move (.send event)) rest
  | .supply most :: rest => decideUnfailing (p.move (.supply most)) rest
  | .closeGate :: rest => decideUnfailing (p.move .closeGate) rest
  | .openGate :: rest => decideUnfailing (p.move .openGate) rest
  | .build place :: rest => decideUnfailing (p.move (.build place)) rest
  | .drain most :: rest => decideUnfailing (p.move (.drain most)) rest
  | .world world :: rest => decideUnfailing (p.move (.world world)) rest
  | .poses poses :: rest => decideUnfailing (p.move (.poses poses)) rest

/-- Every party is there, every queue is open, and nobody else has work on the store lined up. -/
structure Intact (p : Pipeline σ ω) : Prop where
  planner : p.planner.isSome
  events : p.events.isOpen = true
  requests : p.requests.isOpen = true
  commands : p.commands.isOpen = true
  interludes : p.interludes = Interludes.quiet

theorem new_intact (grid : Grid) (store : Store) (pacing : Pacing) (margins : Margins) (builder : Builder)
    (world : ω) (sim : σ) : (new grid store pacing margins builder world sim).Intact := by
  constructor <;> rfl

/-- A pipeline to try runs on: cells of eight voxels on a floor of stone, and room for one page of them. -/
def small (sim : σ) : Pipeline σ Ground :=
  new (Grid.ofSize 2) (Store.ofLimits 1 1) Pacing.standard Margins.standard (merge (limitOf usualLimit))
    (Ground.ofTerrain (.floor ⟨Grid.ofSize 2, 1, ∅⟩)) sim

end Pipeline

end TerrainStream
