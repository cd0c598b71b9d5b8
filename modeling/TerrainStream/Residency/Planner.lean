import TerrainStream.Collision.Command
import TerrainStream.Residency.Event
import TerrainStream.Residency.Report
import TerrainStream.Residency.Tracker
import TerrainStream.Store.Lifecycle

/-! The planner decides which cells are resident and active and which builds are claimed. It remembers
the trackers and holds that reference cells, and what it owes to each cell: a claim awaiting admission,
a deferred edit, a retry, a removal. -/

namespace TerrainStream.Residency

open Cell Physics Store Collision

structure Planner where
  grid : Grid
  pacing : Pacing
  margins : Margins
  inbox : List Event
  trackers : Std.ExtTreeMap BodyId Tracker
  /-- Cells held for callers outside, one reference each. -/
  holds : KeySet
  active : KeySet
  /-- Claims that wait for admission. -/
  pending : Backlog
  /-- Edits that came after the cell's snapshot was taken. -/
  deferred : KeyMap Priority
  /-- Cells to claim again, with the pass that this falls due in. -/
  retry : KeyMap Nat
  /-- Unreferenced cells, with the first pass that may remove them. -/
  leaving : KeyMap Nat
  passes : Nat
  running : Bool

namespace Planner

def new (grid : Grid) (pacing : Pacing) (margins : Margins) : Planner :=
  { grid, pacing, margins, inbox := [], trackers := ∅, holds := ∅, active := ∅, pending := Backlog.empty
    deferred := ∅, retry := ∅, leaving := ∅, passes := 0, running := true }

def wanted (p : Planner) : KeySet :=
  p.trackers.foldl (fun all _ t => all ∪ t.cells.active) ∅

end Planner

/-- The pass that comes a number of passes after another. Passes are counted in 64 bits, so a date past the last of
them comes round to an early one. -/
def passAfter (now delay : Nat) : Nat := (now + delay) % UInt64.size

/-- Everything a pass works on: the planner, the store, the two queues it posts to, and the report. -/
structure Desk where
  planner : Planner
  store : Store
  commands : Mailbox Command
  requests : Mailbox Request
  report : Report

/-- A step of a pass that can run out of room. A failed step hands back the desk as it was left. -/
abbrev Attempt := Except (Desk × Fault) Desk

namespace Desk

/-- Claim a cell and queue its request; refused while a claim is out. -/
def claim (d : Desk) (key : Key) (index : Nat) (priority : Priority) : Desk × Bool :=
  match d.store.schedule index with
  | (store, none) => ({ d with store }, false)
  | (store, some version) =>
    let initial := store.isPlaceholder index && (store.shape index).isNone
    let pending := d.planner.pending.record ⟨key, index, version, initial, priority⟩
    ({ d with store, planner := { d.planner with pending } }, true)

/-- Take the first reference of a cell: it no longer leaves, and it is claimed if it has no build. -/
def welcome (d : Desk) (key : Key) (index : Nat) : Desk :=
  let d := { d with planner := { d.planner with leaving := d.planner.leaving.erase key } }
  if d.store.stage index = .unloaded then (d.claim key index .load).1 else d

/-- Take one reference on a cell, adding the cell when it is new. -/
def acquire (d : Desk) (key : Key) : Attempt :=
  match d.store.add key with
  | (store, .error fault) => .error ({ d with store }, fault)
  | (store, .ok index) =>
    let (store, count) := store.retain index
    let d := { d with store, report := { d.report with acquired := d.report.acquired + 1 } }
    .ok (if count = some 1 then d.welcome key index else d)

/-- Drop one reference on a cell; the last one starts its grace period. -/
def release (d : Desk) (key : Key) : Desk :=
  match d.store.indexOf key with
  | none => d
  | some index =>
    let (store, count) := d.store.release index
    let d := { d with store, report := { d.report with released := d.report.released + 1 } }
    if count = some 0 then
      let due := passAfter d.planner.passes d.planner.pacing.removalGrace
      { d with planner := { d.planner with leaving := d.planner.leaving.insertIfNew key due } }
    else d

def releaseAll (d : Desk) (keys : List Key) : Desk := keys.foldl release d

def acquireAll (d : Desk) (keys : List Key) : Attempt := keys.foldlM acquire d

/-- Note an edit for later, at the highest priority it has been given. -/
def defer (d : Desk) (key : Key) (priority : Priority) : Desk :=
  let priority := (d.planner.deferred[key]?).elim priority (·.max priority)
  { d with planner := { d.planner with deferred := d.planner.deferred.insert key priority } }

/-- Have a cell built anew because its voxels changed. A request that still waits will see the edit; a
claim is made if one can be; otherwise the edit is deferred. -/
def invalidate (d : Desk) (priority : Priority) (key : Key) : Desk :=
  match d.store.indexOf key with
  | none => d
  | some index =>
    match d.planner.pending.raise key priority with
    | (pending, true) => { d with planner := { d.planner with pending } }
    | (_, false) =>
      let (d, claimed) := if d.store.refs index > 0 then d.claim key index priority else (d, false)
      if claimed then { d with report := { d.report with invalidated := d.report.invalidated + 1 } }
      else if d.store.stage index ≠ .removing then d.defer key priority
      else d

/-- Whether a cell has no build, or only a coarse one, and none under way. -/
def lacksBuild (store : Store) (index : Nat) : Bool :=
  match store.stage index with
  | .unloaded => true
  | .ready => store.isPlaceholder index
  | _ => false

/-- Raise a waiting request, or claim a referenced cell that lacks a full build. -/
def prioritize (d : Desk) (key : Key) (priority : Priority) : Desk :=
  match d.planner.pending.raise key priority with
  | (pending, true) => { d with planner := { d.planner with pending } }
  | (_, false) =>
    match d.store.indexOf key with
    | none => d
    | some index =>
      if d.store.refs index ≠ 0 && lacksBuild d.store index then
        let (d, claimed) := d.claim key index priority
        if claimed then { d with report := { d.report with invalidated := d.report.invalidated + 1 } } else d
      else d

def dropPending (d : Desk) (key : Key) : Desk :=
  match d.planner.pending.remove key with
  | (_, none) => d
  | (pending, some r) =>
    { d with store := (d.store.abandon r.index r.version).1, planner := { d.planner with pending } }

/-- The world let go of a cell: its waiting claim and its deferred edit are void, and it is removed at
once or tried again later. -/
def unload (d : Desk) (key : Key) : Desk :=
  let d := d.dropPending key
  let p := { d.planner with deferred := d.planner.deferred.erase key }
  match d.store.indexOf key with
  | none => { d with planner := p }
  | some index =>
    if d.store.refs index = 0 then { d with planner := { p with leaving := p.leaving.insert key p.passes } }
    else { d with planner := { p with retry := p.retry.insert key (passAfter p.passes p.pacing.retryAfter) } }

def applyEvent (d : Desk) : Event → Attempt
  | .bodyAdded body =>
    .ok { d with planner := { d.planner with trackers := d.planner.trackers.insertIfNew body (Tracker.new body) } }
  | .bodyRemoved body =>
    match d.planner.trackers[body]? with
    | none => .ok d
    | some tracker =>
      let d := { d with planner := { d.planner with trackers := d.planner.trackers.erase body } }
      .ok (d.releaseAll tracker.held)
  | .voxelEdited place =>
    .ok (((d.planner.grid.affected place).map Coord.key).foldl (fun d key => d.invalidate .edit key) d)
  | .cellUnloaded key => .ok (d.unload key)
  | .requested key =>
    if d.planner.holds.contains key then .ok d
    else { d with planner := { d.planner with holds := d.planner.holds.insert key } }.acquire key
  | .released key =>
    if d.planner.holds.contains key then
      .ok ({ d with planner := { d.planner with holds := d.planner.holds.erase key } }.release key)
    else .ok d
  | .prioritized key priority => .ok (d.prioritize key priority)
  | .snapshotUnavailable key =>
    let p := d.planner
    .ok { d with planner := { p with retry := p.retry.insert key (passAfter p.passes p.pacing.retryAfter) } }
  | .claimAbandoned key =>
    let p := d.planner
    .ok { d with planner := { p with retry := p.retry.insertIfNew key p.passes } }
  | .configured pacing margins => .ok { d with planner := { d.planner with pacing, margins } }
  | .shutdown => .ok { d with planner := { d.planner with running := false } }

def applyEvents (d : Desk) (batch : List Event) : Attempt := batch.foldlM applyEvent d

end Desk

end TerrainStream.Residency
