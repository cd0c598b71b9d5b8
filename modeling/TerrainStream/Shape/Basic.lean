import TerrainStream.Cell.Grid
import TerrainStream.Cell.Snapshot

/-! Collision shapes: compounds of boxes in the voxel units of one cell. A box reaches from
its lower corner up to, and without, its upper corner. -/

namespace TerrainStream.Shape

open Space Cell

/-- A corner of a box; cells are small enough for 16 bits per axis. -/
structure Corner where
  x : UInt16
  y : UInt16
  z : UInt16
deriving DecidableEq, Repr, Inhabited

namespace Corner

/-- The corner at a spot, cut down to 16 bits per axis. -/
def ofSpot (p : Spot) : Corner := ⟨UInt16.ofNat p.x, UInt16.ofNat p.y, UInt16.ofNat p.z⟩

def toVec3 (c : Corner) : Vec3 := ⟨c.x.toFloat32, c.y.toFloat32, c.z.toFloat32⟩

end Corner

structure Box where
  lo : Corner
  hi : Corner
deriving DecidableEq, Repr, Inhabited

namespace Box

def volume (b : Box) : Nat :=
  (b.hi.x.toNat - b.lo.x.toNat) * (b.hi.y.toNat - b.lo.y.toNat) * (b.hi.z.toNat - b.lo.z.toNat)

def contains (b : Box) (p : Spot) : Bool :=
  b.lo.x.toNat ≤ p.x && p.x < b.hi.x.toNat && b.lo.y.toNat ≤ p.y && p.y < b.hi.y.toNat &&
    b.lo.z.toNat ≤ p.z && p.z < b.hi.z.toNat

end Box

end Shape

structure Shape where
  cell : Cell.Coord
  size : Nat
  boxes : Array Shape.Box
deriving DecidableEq, Repr, Inhabited

namespace Shape

open Space Cell

def isEmpty (s : Shape) : Bool := s.boxes.isEmpty

def volume (s : Shape) : Nat := s.boxes.foldl (fun sum b => sum + b.volume) 0

/-- How many boxes hold a spot. -/
def hits (s : Shape) (p : Spot) : Nat := s.boxes.countP (·.contains p)

def worldBoxes (s : Shape) : Array Aabb :=
  let p := (Grid.ofSize s.size).origin s.cell
  let base : Vec3 := ⟨ofWhole p.x, ofWhole p.y, ofWhole p.z⟩
  s.boxes.map fun b => ⟨base + b.lo.toVec3, base + b.hi.toVec3⟩

/-- The least world box around the shape; an empty shape, or one of a cell without voxels,
has none. -/
def bounds (s : Shape) : Option Aabb :=
  if s.size = 0 then none
  else s.worldBoxes.foldl (fun sum b => some (sum.elim b (·.union b))) none

end Shape

end TerrainStream
