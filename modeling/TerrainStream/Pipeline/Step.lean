import TerrainStream.Pipeline.Supply

/-! The three moves of the pipeline, and the whole step made of all three: the planner passes, the world
supplies, the simulation drains. -/

namespace TerrainStream.Pipeline

open Cell Store Shape Collision Build Residency Physics World

variable {σ ω : Type}

def desk (p : Pipeline σ ω) (planner : Planner) : Desk :=
  ⟨planner, p.store, p.commands, p.requests, Report.ofPass planner.passes⟩

/-- The pipeline once a pass has left the desk, finished or not. -/
def afterPass (p : Pipeline σ ω) (d : Desk) : Pipeline σ ω :=
  { p with
    planner := some d.planner
    store := d.store
    commands := d.commands
    requests := d.requests
    events := p.events.emptied }

def passWith (p : Pipeline σ ω) (planner : Planner) : Pipeline σ ω × Except Fault Report :=
  match (p.desk planner).pass p.events.letters.toList p.poses.sample with
  | .ok d => (p.afterPass d, .ok d.report)
  | .error (d, fault) => (p.afterPass d, .error fault)

/-- One planning pass; no answer once the planner has gone. -/
def pass (p : Pipeline σ ω) : Pipeline σ ω × Option (Except Fault Report) :=
  match p.planner with
  | none => (p, none)
  | some planner =>
    let (p, answer) := p.passWith planner
    (p, some answer)

def drain [Simulation σ] (p : Pipeline σ ω) (most : Nat) : Pipeline σ ω × Tally :=
  let (site, commands, tally) :=
    Site.drain ⟨p.sim, p.store, p.interludes.addition⟩ p.commands most
  ({ p with
      sim := site.sim
      store := site.store
      commands
      interludes := { p.interludes with addition := site.interludes }
      drained := p.drained + tally },
    tally)

/-- A whole step: one pass, then every queued request, then every queued command. -/
def step [Simulation σ] [Supplier ω] (p : Pipeline σ ω) :
    Pipeline σ ω × Option (Except Fault Report) × SupplyTally × Tally :=
  let (p, answer) := p.pass
  let (p, supplied) := p.supply p.requests.size
  let (p, tally) := p.drain p.commands.size
  (p, answer, supplied, tally)

end TerrainStream.Pipeline
