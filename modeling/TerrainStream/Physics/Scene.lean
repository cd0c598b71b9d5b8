import TerrainStream.Collision.Simulation
import TerrainStream.Physics.Body

/-! A collision world: bodies that fall onto the boxes of enabled shapes. -/

namespace TerrainStream.Physics

open Space Cell Store Collision

structure Installed where
  key : Key
  shape : Shape
  boxes : Array Aabb
  enabled : Bool

structure SceneStats where
  steps : Nat
  contacts : Nat
  respawns : Nat
  added : Nat
  removed : Nat
deriving DecidableEq, Repr, Inhabited

structure Scene where
  /-- The shapes held, by the number of their handle. -/
  shapes : Std.ExtTreeMap Nat Installed
  /-- The number of the next handle; numbers start at 1 and are never used again. -/
  nextHandle : Nat
  bodies : List Body
  stats : SceneStats

namespace Scene

def empty : Scene := ⟨∅, 1, [], ⟨0, 0, 0, 0, 0⟩⟩

def shape? (s : Scene) (handle : Handle) : Option Installed := s.shapes[handle.id]?

def shapeCount (s : Scene) : Nat := s.shapes.size

def enabledShapes (s : Scene) : List Installed := (s.shapes.toList.map (·.2)).filter (·.enabled)

/-- The cells of the enabled shapes by ascending key, one entry per shape. -/
def enabledCells (s : Scene) : List Key := (s.enabledShapes.map (·.key)).mergeSort fun a b => a.raw ≤ b.raw

def blocked (s : Scene) (b : Aabb) : Bool :=
  s.enabledShapes.any fun shape => shape.boxes.any (·.intersects b)

/-- Place a new body, and publish its pose. -/
def spawn (s : Scene) (board : PoseBoard) (id : BodyId) (pos vel : Vec3) : Scene × PoseBoard :=
  let body := Body.spawned id pos vel
  ({ s with bodies := s.bodies ++ [body] }, board.publish id body.pose)

/-- Move every body by one step, and publish the poses. -/
def step (s : Scene) (board : PoseBoard) (dt : Float32) : Scene × PoseBoard :=
  let hop := s.stats.steps % hopEvery == hopEvery - 1
  let motions := s.bodies.map fun b => b.step s.blocked hop dt
  let bodies := motions.map (·.body)
  ({ s with
      bodies
      stats := { s.stats with
        steps := s.stats.steps + 1
        contacts := motions.foldl (fun sum m => sum + m.contacts) s.stats.contacts
        respawns := motions.foldl (fun sum m => sum + m.respawns) s.stats.respawns } },
    bodies.foldl (fun board b => board.publish b.id b.pose) board)

def steps (s : Scene) (board : PoseBoard) (dt : Float32) : Nat → Scene × PoseBoard
  | 0 => (s, board)
  | n + 1 =>
    let (s, board) := s.step board dt
    s.steps board dt n

def addShape (s : Scene) (key : Key) (shape : Shape) (enabled : Bool) : Handle × Scene :=
  (⟨s.nextHandle⟩,
    { s with
      shapes := s.shapes.insert s.nextHandle ⟨key, shape, shape.worldBoxes, enabled⟩
      nextHandle := s.nextHandle + 1
      stats := { s.stats with added := s.stats.added + 1 } })

/-- Take a shape out; an unknown handle changes nothing. -/
def removeShape (s : Scene) (handle : Handle) : Scene :=
  if s.shapes.contains handle.id then
    { s with
      shapes := s.shapes.erase handle.id
      stats := { s.stats with removed := s.stats.removed + 1 } }
  else s

def setEnabled (s : Scene) (handle : Handle) (enabled : Bool) : Scene :=
  { s with shapes := s.shapes.modify handle.id fun installed => { installed with enabled } }

instance : Simulation Scene := ⟨addShape, removeShape, setEnabled⟩

end Scene

end TerrainStream.Physics
