import TerrainStream.Collision.Simulation
import TerrainStream.Shape.Cover

/-! Build jobs: a snapshot together with the claim that it was taken for. A job begins its claim,
builds, and posts the result; others may work on the store while it builds, so a claim that was
superseded meanwhile posts nothing. -/

namespace TerrainStream.Build

open Cell Store Shape Collision

structure Job where
  key : Key
  index : Nat
  version : UInt32
  initial : Bool
  snapshot : Snapshot
deriving DecidableEq, Repr, Inhabited

/-- Edits are built ahead of everything else. -/
inductive Lane
  | edit
  | background
deriving DecidableEq, Repr, Inhabited

def Lane.text : Lane → String
  | .edit => "Edit"
  | .background => "Background"

inductive Outcome
  | built
  | placeholder
  /-- The claim was superseded, or the cell went away. -/
  | dropped
deriving DecidableEq, Repr, Inhabited

def Outcome.text : Outcome → String
  | .built => "Built"
  | .placeholder => "Placeholder"
  | .dropped => "Dropped"

/-- What jobs work with: the store, scratch memory, the way to the simulation, and the interludes in
line for the next builds. -/
structure Bench where
  store : Store
  scratch : Scratch
  commands : Mailbox Command
  interludes : List Interlude

namespace Bench

def claim (b : Bench) (job : Job) : Bench × Bool :=
  if b.store.keyAt job.index = some job.key then
    let (store, begun) := b.store.begin job.index job.version
    ({ b with store }, begun)
  else (b, false)

def shape (b : Bench) (builder : Builder) (job : Job) : Bench × Shape × Bool :=
  let (interludes, store) := runInterlude b.interludes b.store
  let (scratch, shape, placeholder) := buildOrCover builder job.snapshot b.scratch
  ({ b with store, scratch, interludes }, shape, placeholder)

def run (b : Bench) (builder : Builder) (job : Job) : Bench × Outcome :=
  match b.claim job with
  | (b, false) => (b, .dropped)
  | (b, true) =>
    let (b, shape, placeholder) := b.shape builder job
    if b.store.isStale job.index job.version then (b, .dropped)
    else
      let delivery : Delivery := ⟨job.key, job.index, job.version, shape, placeholder, job.initial⟩
      ({ b with commands := b.commands.post (.install delivery) },
        if placeholder then .placeholder else .built)

end Bench

end TerrainStream.Build
