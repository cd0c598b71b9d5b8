import TerrainStream.Cell.Key

/-! One slot of the cell store: the cell that lives there, how far its collision has been
built, and who still needs it. -/

namespace TerrainStream.Store

open Cell

inductive Stage
  /-- No shape and no work under way. -/
  | unloaded
  /-- Claimed for a build that waits for a snapshot. -/
  | scheduled
  | generating
  | ready
  /-- The slot is about to be given up. -/
  | removing
deriving DecidableEq, Repr, Inhabited

namespace Stage

def code : Stage → Nat
  | unloaded => 0
  | scheduled => 1
  | generating => 2
  | ready => 3
  | removing => 4

def text : Stage → String
  | unloaded => "Unloaded"
  | scheduled => "Scheduled"
  | generating => "Generating"
  | ready => "Ready"
  | removing => "Removing"

def isInFlight : Stage → Bool
  | scheduled | generating => true
  | _ => false

def acceptsClaim : Stage → Bool
  | unloaded | ready => true
  | _ => false

end Stage

/-- The simulation's name for a shape that it holds. -/
structure Handle where
  id : Nat
deriving DecidableEq, Repr, Inhabited

namespace Handle

/-- Handles are numbered from 1; 0 stands for no shape. -/
def ofId? (id : Nat) : Option Handle := if id = 0 then none else some ⟨id⟩

def text (h : Handle) : String := s!"#{h.id}"

end Handle

structure Slot where
  live : Bool
  key : Key
  stage : Stage
  shape : Option Handle
  /-- Whether no build, or only a coarse one, has been completed. -/
  placeholder : Bool
  active : Bool
  /-- The number of the latest claim, never set back when the slot changes hands. -/
  version : UInt32
  /-- One for a caller outside that holds the cell and one for each tracker that needs it; with fewer than 2^32 - 1
  bodies, a number of 32 bits. -/
  refs : Nat
deriving DecidableEq, Repr, Inhabited

/-- Why a finished build is turned away. -/
inductive Rejection
  /-- The slot does not hold the cell that the build was made for. -/
  | evicted
  /-- A later claim has replaced the one of the build. -/
  | stale (version current : UInt32)
  /-- No build of the cell is under way. -/
  | notGenerating (stage : Stage)
deriving DecidableEq, Repr

namespace Slot

/-- A slot that was never handed out. -/
def blank : Slot := ⟨false, ⟨0⟩, .unloaded, none, true, false, 0, 0⟩

/-- The slot with a new tenant. The version stays, so results meant for an earlier tenant stay stale. -/
def settle (s : Slot) (key : Key) : Slot :=
  { s with live := true, key, stage := .unloaded, shape := none, placeholder := true, active := false, refs := 0 }

/-- The slot after its tenant has left; the version moves on. -/
def vacate (s : Slot) : Slot :=
  { s with live := false, stage := .removing, shape := none, active := false, refs := 0, version := s.version + 1 }

/-- The stage that giving up a claim leads back to. -/
def fallback (s : Slot) : Stage := if s.shape.isSome || !s.placeholder then .ready else .unloaded

def accepts (s : Slot) (key : Key) (version : UInt32) : Except Rejection Unit :=
  if s.key ≠ key then .error .evicted
  else if version ≠ s.version then .error (.stale version s.version)
  else if s.stage ≠ .generating then .error (.notGenerating s.stage)
  else .ok ()

/-- Put a finished build in and name the shape it replaces. Both the shape and the flag are put back
when no build is under way. -/
def swapIn (s : Slot) (shape : Option Handle) (placeholder : Bool) : Slot × Except Rejection (Option Handle) :=
  let filled := { s with shape, placeholder }
  if s.stage = .generating then ({ filled with stage := .ready }, .ok s.shape)
  else ({ filled with shape := s.shape, placeholder := s.placeholder }, .error (.notGenerating s.stage))

end Slot

end TerrainStream.Store
