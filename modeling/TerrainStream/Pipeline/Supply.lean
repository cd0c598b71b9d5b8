import TerrainStream.Pipeline.Basic

/-! The world's side of the pipeline: requests are taken in the order they were admitted, and each
becomes a build job, or is given up because nobody needs it or the world has no snapshot. -/

namespace TerrainStream

open Cell Store Shape Collision Build Residency Physics World

structure SupplyTally where
  taken : Nat
  unavailable : Nat
  /-- Requests whose claim was over, or whose cell had lost every reference. -/
  skipped : Nat
deriving DecidableEq, Repr, Inhabited

namespace SupplyTally

def zero : SupplyTally := ⟨0, 0, 0⟩

def add (t u : SupplyTally) : SupplyTally :=
  ⟨t.taken + u.taken, t.unavailable + u.unavailable, t.skipped + u.skipped⟩

instance : Add SupplyTally := ⟨add⟩

end SupplyTally

namespace Pipeline

variable {σ ω : Type}

def runJob (p : Pipeline σ ω) (job : Job) : Pipeline σ ω :=
  let (bench, outcome) := Bench.run ⟨p.store, p.scratch, p.commands, p.interludes.building⟩ p.builder job
  { p with
    store := bench.store
    scratch := bench.scratch
    commands := bench.commands
    interludes := { p.interludes with building := bench.interludes }
    outcomes := p.outcomes.push (job.key, outcome) }

/-- Submit a job: it runs at once, or waits while the gate is closed. -/
def submit (p : Pipeline σ ω) (job : Job) (lane : Lane) : Pipeline σ ω :=
  let p := { p with lanes := p.lanes.push (job.key, lane) }
  match p.parked with
  | some jobs => { p with parked := some (jobs.push (job, lane)) }
  | none => p.runJob job

/-- Close the gate; closing it twice keeps the jobs that wait. -/
def closeGate (p : Pipeline σ ω) : Pipeline σ ω := { p with parked := some (p.parked.getD #[]) }

/-- Open the gate and run the jobs that waited, in order. -/
def openGate (p : Pipeline σ ω) : Pipeline σ ω :=
  (p.parked.getD #[]).foldl (fun p job => p.runJob job.1) { p with parked := none }

/-- Whether the claim behind a request is still waiting for its snapshot. -/
def isCurrent (store : Store) (r : Request) : Bool :=
  store.keyAt r.index == some r.key && store.version r.index == r.version && store.stage r.index == .scheduled

/-- Edits and anything more urgent go to the edit lane. -/
def laneOf (r : Request) : Lane := if r.priority.isEdit then .edit else .background

/-- Give up the claim of a request that nobody needs, and tell the planner if there was one. -/
def excuse (p : Pipeline σ ω) (r : Request) : Pipeline σ ω :=
  match p.store.abandon r.index r.version with
  | (store, true) => { p with store }.send (.claimAbandoned r.key)
  | (store, false) => { p with store }

/-- Ask the world for a snapshot, others working on the store meanwhile. -/
def ask [Supplier ω] (p : Pipeline σ ω) (key : Key) : Pipeline σ ω × Except NotLoaded Snapshot :=
  let (rest, store) := runInterlude p.interludes.snapshot p.store
  let (world, answer) := Supplier.snapshot p.world key
  ({ p with store, world, interludes := { p.interludes with snapshot := rest } }, answer)

def serve [Supplier ω] (p : Pipeline σ ω) (r : Request) : Pipeline σ ω × SupplyTally :=
  if !isCurrent p.store r then (p, { SupplyTally.zero with skipped := 1 })
  else if p.store.refs r.index = 0 then (p.excuse r, { SupplyTally.zero with skipped := 1 })
  else
    match p.ask r.key with
    | (p, .ok snapshot) =>
      (p.submit ⟨r.key, r.index, r.version, r.initial, snapshot⟩ (laneOf r), { SupplyTally.zero with taken := 1 })
    | (p, .error e) =>
      ({ p with store := (p.store.abandon r.index r.version).1 }.send (.snapshotUnavailable e.key),
        { SupplyTally.zero with unavailable := 1 })

def supply [Supplier ω] (p : Pipeline σ ω) (most : Nat) : Pipeline σ ω × SupplyTally :=
  (p.requests.firsts most).foldl
    (fun (p, tally) r => let (p, t) := p.serve r; (p, tally + t))
    ({ p with requests := p.requests.rest most }, SupplyTally.zero)

end Pipeline

end TerrainStream
