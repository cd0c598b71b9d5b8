import TerrainStream.Physics.Scene
import TerrainStream.Pipeline.Step
import TerrainStream.Settings.Basic
import TerrainStream.Store.Census
import TerrainStream.World.Heightmap

/-! A demonstration: bodies dropped onto a heightmap, with the pipeline keeping solid ground under them
and a voxel edited now and then. What happens by chance is drawn from a seed. -/

namespace TerrainStream.Demo

open Space Cell Store Shape Collision Build Residency Physics World

structure Options where
  ticks : Nat
  bodies : Nat
  seed : Nat
  extent : Int
deriving DecidableEq, Repr, Inhabited

def timeStep : Float32 := 1.0 / 60.0

/-- A tick has an edit in one of so many cases. -/
def editOdds : Int := 20

/-- How far from the middle of a body, along x and z, an edit may be. -/
def editReach : Int := 3

/-- A whole number between two bounds, both included, and the generator for the next one. -/
def draw (lo hi : Int) (dice : StdGen) : Int × StdGen :=
  let (n, dice) := randNat dice 0 (hi - lo).toNat
  (lo + n, dice)

def drawSpeed (dice : StdGen) : Float32 × StdGen :=
  let (n, dice) := draw (-3999) 3999 dice
  (ofWhole n / 1000.0, dice)

structure State where
  pipe : Pipeline Scene Heightmap
  dice : StdGen
  ticks : Nat
  edits : Nat
  supplied : SupplyTally

/-- Drop a body in its place in the row, and have it tracked. -/
def drop (s : State) (number : Nat) : State :=
  let p := s.pipe
  let size := Float32.ofNat p.grid.size
  let x := Float32.ofNat number * size * 1.5
  let ground := ofWhole (p.world.height (truncWhole x) 0)
  let (vx, dice) := drawSpeed s.dice
  let (vz, dice) := drawSpeed dice
  let (sim, poses) := p.sim.spawn p.poses number ⟨x, ground + size * 0.5, 0.0⟩ ⟨vx, 0.0, vz⟩
  { s with pipe := { p with sim, poses }.send (.bodyAdded number), dice }

def start (settings : Settings) (options : Options) : State :=
  let grid := Grid.ofSize settings.cellSize
  let pipe : Pipeline Scene Heightmap :=
    Pipeline.new grid Store.standard settings.pacing settings.margins (merge (limitOf settings.maxBoxes))
      (Heightmap.ofGrid grid Heightmap.still options.extent) Scene.empty
  (List.range options.bodies).foldl drop ⟨pipe, mkStdGen options.seed, 0, 0, SupplyTally.zero⟩

/-- Turn a voxel to air, or air to stone, and tell the planner. -/
def State.flip (s : State) (place : Position) : State :=
  let next := if (s.pipe.world.voxel place).isSolid then Voxel.air else stone
  let pipe := { s.pipe with world := (s.pipe.world.set place next).1 }
  { s with pipe := pipe.send (.voxelEdited place), edits := s.edits + 1 }

def edit (s : State) : State :=
  let ids := s.pipe.poses.ids
  let (choice, dice) := draw 0 (ids.length - 1) s.dice
  match (ids[choice.toNat]?).bind s.pipe.poses.sample with
  | none => { s with dice }
  | some pose =>
    let c := pose.bounds.center
    let (dx, dice) := draw (-editReach) editReach dice
    let (dz, dice) := draw (-editReach) editReach dice
    { s with dice }.flip ⟨floorWhole c.x + dx, floorWhole pose.bounds.lo.y - 1, floorWhole c.z + dz⟩

def State.pass (s : State) : Except Fault State :=
  match s.pipe.pass with
  | (_, some (.error fault)) => .error fault
  | (pipe, _) => .ok { s with pipe }

def reconfigure (s : State) (settings : Settings) : State :=
  { s with pipe := s.pipe.send (.configured settings.pacing settings.margins) }

/-- One tick: maybe an edit, then a pass, a supply within the budget, a drain and a physics step. -/
def tick (settings : Settings) (s : State) : Except Fault State := do
  let (chance, dice) := draw 1 editOdds s.dice
  let s := { s with dice }
  let s ← (if chance = 1 then edit s else s).pass
  let (pipe, supplied) := s.pipe.supply settings.pacing.snapshotsPerPass
  let (pipe, _) := pipe.drain pipe.commands.size
  let (sim, poses) := pipe.sim.step pipe.poses timeStep
  pure { s with pipe := { pipe with sim, poses }, ticks := s.ticks + 1, supplied := s.supplied + supplied }

def finish (s : State) : Except Fault State := do
  let pipe := s.pipe.poses.ids.foldl (fun p id => p.send (.bodyRemoved id)) s.pipe
  let s ← { s with pipe := pipe.send .shutdown }.pass
  pure { s with pipe := (s.pipe.drain s.pipe.commands.size).1 }

structure Summary where
  passes : Nat
  ticks : Nat
  edits : Nat
  supplied : SupplyTally
  worldSnapshots : Nat
  census : Census
  built : Nat
  drained : Tally
  physics : SceneStats
deriving DecidableEq, Repr

def State.summary (s : State) : Summary where
  passes := s.pipe.planner.elim 0 (·.passes)
  ticks := s.ticks
  edits := s.edits
  supplied := s.supplied
  worldSnapshots := s.pipe.world.served
  census := s.pipe.store.census
  built := s.pipe.outcomes.countP fun (_, outcome) => outcome = .built
  drained := s.pipe.drained
  physics := s.pipe.sim.stats

def Summary.lines (s : Summary) : List String :=
  [s!"{s.ticks} world ticks, {s.passes} planning passes, {s.edits} edits",
    s!"snapshots: taken={s.supplied.taken} unavailable={s.supplied.unavailable} " ++
      s!"skipped={s.supplied.skipped} (world served {s.worldSnapshots})",
    s!"cells: live={s.census.live} capacity={s.census.capacity} ready={s.census.ready} " ++
      s!"active={s.census.active} built={s.built}",
    s!"commands: installed={s.drained.installed} replaced={s.drained.replaced} stale={s.drained.stale} " ++
      s!"removed={s.drained.removed} toggled={s.drained.toggled}",
    s!"physics: steps={s.physics.steps} contacts={s.physics.contacts} respawns={s.physics.respawns}"]

/-- The whole demonstration; it stops early when the store runs out of room. -/
def run (settings : Settings) (options : Options) : Except Fault Summary := do
  let s ← (List.range options.ticks).foldlM (fun s _ => tick settings s) (start settings options)
  State.summary <$> finish s

end TerrainStream.Demo
