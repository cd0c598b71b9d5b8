import TerrainStream.Build.Job

/-! A crew of builders with a lane for edits and one for everything else. What the jobs come to does not
depend on who runs them or when, as long as no claim has two jobs out at once; here waiting edits are
run before the rest. -/

namespace TerrainStream.Build

open Cell Store Shape Collision

structure Crew where
  editWorkers : Nat
  backgroundWorkers : Nat
  editQueue : Array Job
  backgroundQueue : Array Job
  arena : Arena
  built : Nat
  placeholders : Nat
  dropped : Nat

namespace Crew

/-- There is always a worker for edits. -/
def ofWorkers (edit background : Nat) : Crew :=
  ⟨max edit 1, background, #[], #[], Arena.ofRetain Arena.usualRetain, 0, 0, 0⟩

/-- Queue a job; without background workers everything goes to the edit lane. -/
def submit (c : Crew) (job : Job) (lane : Lane) : Crew :=
  if lane = .background ∧ c.backgroundWorkers > 0 then { c with backgroundQueue := c.backgroundQueue.push job }
  else { c with editQueue := c.editQueue.push job }

def isIdle (c : Crew) : Bool := c.editQueue.isEmpty && c.backgroundQueue.isEmpty

def count (c : Crew) : Outcome → Crew
  | .built => { c with built := c.built + 1 }
  | .placeholder => { c with placeholders := c.placeholders + 1 }
  | .dropped => { c with dropped := c.dropped + 1 }

def run (builder : Builder) (state : Crew × Store × Mailbox Command) (job : Job) : Crew × Store × Mailbox Command :=
  let (crew, store, commands) := state
  let (bench, outcome) := Bench.run ⟨store, crew.arena.scratch, commands, []⟩ builder job
  ({ crew with arena := { crew.arena with scratch := bench.scratch }.endJob }.count outcome,
    bench.store, bench.commands)

/-- Run every queued job, edits first. -/
def finish (c : Crew) (builder : Builder) (store : Store) (commands : Mailbox Command) :
    Crew × Store × Mailbox Command :=
  (c.editQueue ++ c.backgroundQueue).foldl (run builder)
    ({ c with editQueue := #[], backgroundQueue := #[] }, store, commands)

end Crew

end TerrainStream.Build
