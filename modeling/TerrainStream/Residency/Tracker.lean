import TerrainStream.Cell.Grid
import TerrainStream.Physics.Pose
import TerrainStream.Residency.Settings

/-! The cells that one body needs. Its box, swept along its way ahead and widened by the load margin,
must be resident; its box now, widened by the activation margin, must be active as well. -/

namespace TerrainStream.Residency

open Space Cell Physics

/-- The cells a body needs; the active ones are among the resident ones. -/
structure Cells where
  resident : KeySet
  active : KeySet
deriving DecidableEq

namespace Cells

def empty : Cells := ⟨∅, ∅⟩

end Cells

def lookahead (velocity : Vec3) (margins : Margins) : Vec3 :=
  let ahead := velocity * greater margins.lookaheadSecs 0.0
  let length := ahead.lengthSq.sqrt
  let most := greater margins.maxLookahead 0.0
  if length > most then ahead * (most / length) else ahead

/-- The region whose cells a body keeps resident: its box, swept along its way ahead and widened. -/
def reach (margins : Margins) (pose : Pose) : Aabb :=
  (pose.bounds.swept (lookahead pose.velocity margins)).inflate (greater margins.load 0.0)

def vicinity (margins : Margins) (pose : Pose) : Aabb := pose.bounds.inflate (greater margins.activation 0.0)

/-- The cells for a pose. None is the answer for a pose that is not finite and for a region beyond the
cell limit; an active region beyond the limit counts as empty. -/
def Cells.ofPose (grid : Grid) (margins : Margins) (pose : Pose) : Option Cells :=
  if pose.bounds.isFinite && pose.velocity.isFinite then
    match grid.overlapping (reach margins pose) margins.maxCells with
    | none => none
    | some coords =>
      let resident := KeySet.ofList (coords.map Coord.key)
      let near := (grid.overlapping (vicinity margins pose) margins.maxCells).getD []
      some ⟨resident, KeySet.ofList ((near.map Coord.key).filter resident.contains)⟩
  else none

/-- Whether the cells for a pose can be listed; the active region matters only where the resident one is not refused. -/
def Cells.hasRoom (grid : Grid) (margins : Margins) (pose : Pose) : Bool :=
  !(pose.bounds.isFinite && pose.velocity.isFinite) ||
    grid.hasRoom (reach margins pose) margins.maxCells &&
      ((grid.overlapping (reach margins pose) margins.maxCells).isNone ||
        grid.hasRoom (vicinity margins pose) margins.maxCells)

/-- A body's tracker holds one reference on every resident cell. -/
structure Tracker where
  body : BodyId
  cells : Cells

structure Diff where
  acquired : List Key
  released : List Key
deriving DecidableEq, Repr

namespace Tracker

def new (body : BodyId) : Tracker := ⟨body, Cells.empty⟩

/-- The cells the body needs now; none when it has no pose or its region cannot be had. -/
def needs (t : Tracker) (probe : BodyId → Option Pose) (grid : Grid) (margins : Margins) : Option Cells :=
  (probe t.body).bind (Cells.ofPose grid margins)

/-- Adopt cells, and tell which references that takes and drops. -/
def adopt (t : Tracker) (next : Cells) : Tracker × Diff :=
  ({ t with cells := next },
    ⟨(next.resident \ t.cells.resident).toList, (t.cells.resident \ next.resident).toList⟩)

def held (t : Tracker) : List Key := t.cells.resident.toList

end Tracker

end TerrainStream.Residency
