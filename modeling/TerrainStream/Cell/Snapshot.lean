import TerrainStream.Cell.Key

/-! A snapshot is a copy of one cell's voxels, layer by layer: y slowest, then z, then x.
It holds no link back into the world that it was taken from. -/

namespace TerrainStream.Cell

/-- The material of one voxel; number 0 is air. -/
structure Voxel where
  id : UInt16
deriving DecidableEq, Repr, Inhabited

namespace Voxel

def air : Voxel := ⟨0⟩

def isSolid (v : Voxel) : Bool := v.id != 0

end Voxel

structure Spot where
  x : Nat
  y : Nat
  z : Nat
deriving DecidableEq, Repr, Inhabited

/-- The spots of a cube of `n` voxels per edge, in storage order. -/
def Spot.cube (n : Nat) : List Spot :=
  (List.range n).flatMap fun y =>
    (List.range n).flatMap fun z =>
      (List.range n).map fun x => ⟨x, y, z⟩

structure Snapshot where
  coord : Coord
  size : Nat
  voxels : Array Voxel
deriving DecidableEq, Repr, Inhabited

namespace Snapshot

/-- The voxel list cut, or filled up with air, to `count` voxels. -/
def fit (voxels : Array Voxel) (count : Nat) : Array Voxel :=
  if voxels.size < count then voxels ++ Array.replicate (count - voxels.size) Voxel.air
  else voxels.extract 0 count

def ofVoxels (coord : Coord) (size : Nat) (voxels : Array Voxel) : Snapshot :=
  ⟨coord, size, fit voxels (size * size * size)⟩

def filled (coord : Coord) (size : Nat) (voxel : Voxel) : Snapshot :=
  ⟨coord, size, Array.replicate (size * size * size) voxel⟩

def key (s : Snapshot) : Key := s.coord.key

def index (s : Snapshot) (p : Spot) : Nat := (p.y * s.size + p.z) * s.size + p.x

/-- The voxel stored for a spot; none past the end of the list. -/
def get? (s : Snapshot) (p : Spot) : Option Voxel := s.voxels[s.index p]?

/-- The snapshot with one voxel replaced; none past the end of the list. -/
def set? (s : Snapshot) (p : Spot) (v : Voxel) : Option Snapshot :=
  if s.index p < s.voxels.size then some { s with voxels := s.voxels.setIfInBounds (s.index p) v }
  else none

/-- Whether a spot holds matter; a spot without a stored voxel does not. -/
def solidAt (s : Snapshot) (p : Spot) : Bool := (s.get? p).any Voxel.isSolid

def solidCount (s : Snapshot) : Nat := s.voxels.countP Voxel.isSolid

def isAllAir (s : Snapshot) : Bool := !s.voxels.any Voxel.isSolid

structure Reach where
  lo : Spot
  hi : Spot
deriving DecidableEq, Repr

def Reach.include (r : Option Reach) (p : Spot) : Reach :=
  match r with
  | none => ⟨p, p⟩
  | some r => ⟨⟨min r.lo.x p.x, min r.lo.y p.y, min r.lo.z p.z⟩, ⟨max r.hi.x p.x, max r.hi.y p.y, max r.hi.z p.z⟩⟩

/-- The least region around the solid voxels, or none when all is air. -/
def solidReach (s : Snapshot) : Option Reach :=
  (Spot.cube s.size).foldl (fun r p => if s.solidAt p then some (Reach.include r p) else r) none

/-- Whether there is a voxel for every spot of the cell. -/
def coversCell (s : Snapshot) : Bool := s.size * s.size * s.size ≤ s.voxels.size

/-- The voxels with equal neighbours counted as one entry. -/
def runs (s : Snapshot) : List (Voxel × Nat) :=
  s.voxels.foldr
    (fun v runs =>
      match runs with
      | (w, n) :: rest => if v = w then (w, n + 1) :: rest else (v, 1) :: runs
      | [] => [(v, 1)])
    []

structure Survey where
  count : Nat
  solid : Nat
  allAir : Bool
  reach : Option Reach
  key : Key

/-- The survey reads every spot of the cell, so it needs a voxel for each. -/
def survey? (s : Snapshot) : Option Survey :=
  if s.coversCell then some ⟨s.voxels.size, s.solidCount, s.isAllAir, s.solidReach, s.key⟩ else none

end Snapshot

end TerrainStream.Cell
