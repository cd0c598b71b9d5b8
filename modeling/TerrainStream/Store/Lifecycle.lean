import TerrainStream.Store.Basic

/-! The life of a claim and of a tenancy. A claim is a slot together with the version it was issued
at: it is issued, begun, and then finished or given up. References keep a cell from being removed.
An operation that is refused hands back the store as it was. -/

namespace TerrainStream.Store

open Cell

/-- Claim a cell for a build and answer the claim's version. At most one claim per cell is out. -/
def schedule (s : Store) (i : Nat) : Store × Option UInt32 :=
  match s.live? i with
  | none => (s, none)
  | some slot =>
    if slot.stage.acceptsClaim then
      (s.put i { slot with stage := .scheduled, version := slot.version + 1 }, some (slot.version + 1))
    else (s, none)

def begin (s : Store) (i : Nat) (version : UInt32) : Store × Bool :=
  match s.live? i with
  | none => (s, false)
  | some slot =>
    if slot.version = version ∧ slot.stage = .scheduled then (s.put i { slot with stage := .generating }, true)
    else (s, false)

/-- Give up the current claim. The cell goes back to ready if a build was ever completed, and to
unloaded if not. -/
def abandon (s : Store) (i : Nat) (version : UInt32) : Store × Bool :=
  match s.live? i with
  | none => (s, false)
  | some slot =>
    if slot.version = version ∧ slot.stage.isInFlight then (s.put i { slot with stage := slot.fallback }, true)
    else (s, false)

/-- Whether a build of this cell, for this claim, may be installed. -/
def checkInstall (s : Store) (i : Nat) (key : Key) (version : UInt32) : Except Rejection Unit :=
  match s.live? i with
  | none => .error .evicted
  | some slot => slot.accepts key version

/-- Install a finished build and name the shape it replaces. A rejected build changes nothing, and its
shape stays with the caller. -/
def finish (s : Store) (i : Nat) (key : Key) (version : UInt32) (shape : Option Handle) (placeholder : Bool) :
    Store × Except Rejection (Option Handle) :=
  match s.checkInstall i key version with
  | .error reason => (s, .error reason)
  | .ok () =>
    match s.live? i with
    | none => (s, .error .evicted)
    | some slot =>
      let (slot, answer) := slot.swapIn shape placeholder
      (s.put i slot, answer)

/-- Mark a cell as leaving, which needs it to be unreferenced and without a claim. -/
def tryRetire (s : Store) (i : Nat) : Store × Bool :=
  match s.live? i with
  | none => (s, false)
  | some slot =>
    if slot.refs ≠ 0 then (s, false)
    else if slot.stage = .removing then (s, true)
    else if slot.stage.isInFlight then (s, false)
    else (s.put i { slot with stage := .removing }, true)

/-- Take a reference and answer the new count; 1 marks the first. -/
def retain (s : Store) (i : Nat) : Store × Option Nat :=
  match s.live? i with
  | none => (s, none)
  | some slot => (s.put i { slot with refs := slot.refs + 1 }, some (slot.refs + 1))

/-- Drop a reference and answer the new count, which stops at 0. -/
def release (s : Store) (i : Nat) : Store × Option Nat :=
  match s.live? i with
  | none => (s, none)
  | some slot => (s.put i { slot with refs := slot.refs - 1 }, some (slot.refs - 1))

/-- Switch a cell's collision on or off and answer whether that changed anything. -/
def setActive (s : Store) (i : Nat) (active : Bool) : Store × Bool :=
  match s.live? i with
  | none => (s, false)
  | some slot => if slot.active = active then (s, false) else (s.put i { slot with active }, true)

end TerrainStream.Store
