import TerrainStream.Residency.Planner

/-! One planning pass: apply the events, follow the bodies, switch cells on and off, remove what has
been unreferenced long enough, retry what is due, drop claims that nobody needs, and admit the
best-ranked requests under the budget. Only running out of room in the store stops a pass. -/

namespace TerrainStream.Residency

open Cell Physics Store Collision

namespace Desk

/-- Let one tracker adopt the cells its body needs now; without an answer it keeps those it has. -/
def follow (d : Desk) (update : BodyId × Option Cells) : Attempt :=
  match update.2, d.planner.trackers[update.1]? with
  | some cells, some tracker =>
    let (tracker, diff) := tracker.adopt cells
    let d := { d with planner := { d.planner with trackers := d.planner.trackers.insert update.1 tracker } }
    (d.acquireAll diff.acquired).map (·.releaseAll diff.released)
  | _, _ => .ok d

def followAll (d : Desk) (probe : BodyId → Option Pose) : Attempt :=
  (d.planner.trackers.toList.map fun (body, tracker) =>
    (body, tracker.needs probe d.planner.grid d.planner.margins)).foldlM follow d

def switch (d : Desk) (enabled : Bool) (key : Key) : Desk :=
  match d.store.indexOf key with
  | none => d
  | some index =>
    let report :=
      if enabled then { d.report with activated := d.report.activated + 1 }
      else { d.report with deactivated := d.report.deactivated + 1 }
    { d with
      store := (d.store.setActive index enabled).1
      commands := d.commands.post (.toggle key index enabled)
      report }

/-- Make the active cells those that some tracker wants active. -/
def activate (d : Desk) : Desk :=
  let wanted := d.planner.wanted
  let d' := (wanted \ d.planner.active).toList.foldl (·.switch true) d
  let d' := (d.planner.active \ wanted).toList.foldl (·.switch false) d'
  { d' with planner := { d'.planner with active := wanted } }

/-- Forget what is owed to a cell that is being removed. -/
def forget (p : Planner) (key : Key) : Planner :=
  { p with
    leaving := p.leaving.erase key
    deferred := p.deferred.erase key
    retry := p.retry.erase key
    active := p.active.erase key }

def evict (d : Desk) (key : Key) : Desk :=
  match d.store.remove key with
  | (store, none) => { d with store }
  | (store, some removed) =>
    { d with
      store
      commands := removed.shape.elim d.commands fun shape => d.commands.post (.remove key shape)
      report := { d.report with removed := d.report.removed + 1 } }

/-- Remove a cell whose grace period is over. A referenced cell stays for good; one with a claim out
is looked at again in the next pass. -/
def sweepOne (d : Desk) (key : Key) : Desk :=
  let stay := { d with planner := { d.planner with leaving := d.planner.leaving.erase key } }
  match d.store.indexOf key with
  | none => stay
  | some index =>
    if d.store.refs index ≠ 0 then stay
    else
      match d.store.tryRetire index with
      | (store, false) => { d with store }
      | (store, true) => { d with store, planner := forget d.planner key }.evict key

/-- The cells of a table whose pass has come, by ascending key. -/
def due (table : KeyMap Nat) (now : Nat) : List Key := (table.toList.filter (·.2 ≤ now)).map (·.1)

def sweep (d : Desk) : Desk := (due d.planner.leaving d.planner.passes).foldl sweepOne d

/-- Look at a deferred edit again: raise the waiting request, claim, or defer it once more. -/
def resumeOne (d : Desk) (edit : Key × Priority) : Desk :=
  let (key, priority) := edit
  match d.store.indexOf key with
  | none => d
  | some index =>
    match d.planner.pending.raise key priority with
    | (pending, true) => { d with planner := { d.planner with pending } }
    | (_, false) =>
      let (d, claimed) := if d.store.refs index > 0 then d.claim key index priority else (d, false)
      if claimed then { d with report := { d.report with retried := d.report.retried + 1 } }
      else { d with planner := { d.planner with deferred := d.planner.deferred.insert key priority } }

def resume (d : Desk) : Desk :=
  d.planner.deferred.toList.foldl resumeOne { d with planner := { d.planner with deferred := ∅ } }

/-- Claim a cell whose retry is due, if it is referenced and still lacks a full build. -/
def retryOne (d : Desk) (key : Key) : Desk :=
  let d := { d with planner := { d.planner with retry := d.planner.retry.erase key } }
  if d.planner.pending.contains key then d
  else
    match d.store.indexOf key with
    | none => d
    | some index =>
      if d.store.refs index ≠ 0 && lacksBuild d.store index then
        let (d, claimed) := d.claim key index .load
        if claimed then { d with report := { d.report with retried := d.report.retried + 1 } } else d
      else d

def retryAll (d : Desk) : Desk := (due d.planner.retry d.planner.passes).foldl retryOne d

def unneeded (store : Store) (r : Request) : Bool :=
  store.keyAt r.index != some r.key || store.refs r.index == 0

def abandonOne (d : Desk) (r : Request) : Desk :=
  { d with
    store := (d.store.abandon r.index r.version).1
    report := { d.report with abandoned := d.report.abandoned + 1 } }

/-- Give up the waiting claims that nobody needs. -/
def dropUnneeded (d : Desk) : Desk :=
  let (pending, dropped) := d.planner.pending.extract (unneeded d.store)
  dropped.foldl abandonOne { d with planner := { d.planner with pending } }

/-- Queue one request for a snapshot; without anyone to take it, its claim is given up. -/
def dispatchOne (d : Desk) (r : Request) : Desk :=
  if d.requests.isOpen then
    { d with
      requests := d.requests.post r
      report := { d.report with admitted := d.report.admitted + 1 } }
  else { d with store := (d.store.abandon r.index r.version).1 }

/-- Admit the best-ranked requests; those still queued count against the budget. -/
def dispatch (d : Desk) : Desk :=
  let budget := d.planner.pacing.snapshotsPerPass - d.requests.size
  let (pending, taken) := d.planner.pending.takeRanked budget
  taken.foldl dispatchOne { d with planner := { d.planner with pending } }

def opened (d : Desk) (batch : Nat) : Desk :=
  let pass := d.planner.passes + 1
  { d with
    planner := { d.planner with passes := pass, inbox := [] }
    report := { Report.ofPass pass with events := batch } }

/-- What follows once the references are settled. -/
def settle (d : Desk) : Desk := d.activate.sweep.resume.retryAll.dropUnneeded.dispatch

def closed (d : Desk) : Desk :=
  { d with report := { d.report with
      trackers := d.planner.trackers.size
      pending := d.planner.pending.size
      deferred := d.planner.deferred.size } }

/-- Run a pass: the events received earlier come before those that waited in the queue. -/
def pass (d : Desk) (queued : List Event) (probe : BodyId → Option Pose) : Attempt :=
  let batch := d.planner.inbox ++ queued
  (((d.opened batch.length).applyEvents batch).bind (·.followAll probe)).map fun d => d.settle.closed

end Desk

end TerrainStream.Residency
