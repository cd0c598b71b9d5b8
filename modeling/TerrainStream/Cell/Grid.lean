import TerrainStream.Space.Aabb
import TerrainStream.Cell.Key

/-! A grid lays cubic cells over the voxels of the world: which cell owns a voxel,
which cells a box overlaps, and which cells an edit can touch. -/

namespace TerrainStream.Cell

open Space

structure Position where
  x : Int
  y : Int
  z : Int
deriving DecidableEq, Repr, Inhabited

instance : Ord Position :=
  ⟨compareLex (compareOn (·.x)) (compareLex (compareOn (·.y)) (compareOn (·.z)))⟩

instance : Std.TransOrd Position :=
  inferInstanceAs (Std.TransCmp (compareLex (compareOn (Position.x))
    (compareLex (compareOn (Position.y)) (compareOn (Position.z)))))

instance : Std.LawfulEqOrd Position where
  eq_of_compare {a b} same := by
    obtain ⟨x, y, z⟩ := compareLex_eq_eq.mp same |>.imp_right compareLex_eq_eq.mp
    cases a
    cases b
    simp_all [compareOn]

structure Grid where
  edge : Int
deriving DecidableEq, Repr, Inhabited

namespace Grid

/-- A grid of cells of at least one voxel; the edge is held in a signed 32-bit word, and a
size too large for it wraps. -/
def ofSize (size : Nat) : Grid := ⟨Int.bmod (max size 1) UInt32.size⟩

/-- The edge read back as an unsigned 64-bit size. -/
def size (g : Grid) : Nat := (g.edge % UInt64.size).toNat

def cellOf (g : Grid) (p : Position) : Coord := ⟨p.x / g.edge, p.y / g.edge, p.z / g.edge⟩

/-- Whether a 32-bit division by the edge has an answer for this number. -/
def divides (g : Grid) (v : Int) : Bool := g.edge != 0 && v / g.edge ≤ Int32.maxValue.toInt

def hasCell (g : Grid) (p : Position) : Bool := g.divides p.x && g.divides p.y && g.divides p.z

def origin (g : Grid) (c : Coord) : Position := ⟨c.x * g.edge, c.y * g.edge, c.z * g.edge⟩

def bounds (g : Grid) (c : Coord) : Aabb :=
  let p := g.origin c
  let lo : Vec3 := ⟨ofWhole p.x, ofWhole p.y, ofWhole p.z⟩
  ⟨lo, lo + Vec3.splat (ofWhole g.edge)⟩

/-- The index, along one axis, of the cell that a world coordinate falls into. -/
def indexOf (g : Grid) (v : Float32) : Int := floorWhole (v / ofWhole g.edge)

def span (lo hi : Int) : List Int := (List.range (hi - lo + 1).toNat).map fun (n : Nat) => lo + n

def spanSize (lo hi : Int) : Nat := (hi - lo + 1).toNat

/-- The product of three spans, refused where a 64-bit word cannot hold it. -/
def volume? (a b c : Nat) : Option Nat :=
  if a * b < UInt64.size ∧ a * b * c < UInt64.size then some (a * b * c) else none

/-- Every cell in three ranges of indices, by y, then z, then x. -/
def block (lo hi : Coord) : List Coord :=
  (span lo.y hi.y).flatMap fun y =>
    (span lo.z hi.z).flatMap fun z =>
      (span lo.x hi.x).map fun x => ⟨x, y, z⟩

def count? (lo hi : Coord) : Option Nat :=
  volume? (spanSize lo.x hi.x) (spanSize lo.y hi.y) (spanSize lo.z hi.z)

def lowest (g : Grid) (b : Aabb) : Coord := ⟨g.indexOf b.lo.x, g.indexOf b.lo.y, g.indexOf b.lo.z⟩

def highest (g : Grid) (b : Aabb) : Coord := ⟨g.indexOf b.hi.x, g.indexOf b.hi.y, g.indexOf b.hi.z⟩

/-- Every cell that a box overlaps, touching faces included; none when the box is not finite or
covers more than `limit` cells. -/
def overlapping (g : Grid) (b : Aabb) (limit : Nat) : Option (List Coord) :=
  if b.isFinite then
    match count? (g.lowest b) (g.highest b) with
    | some count => if count ≤ limit then some (block (g.lowest b) (g.highest b)) else none
    | none => none
  else none

/-- The longest list of cells: three 32-bit indices a cell, and no more bytes than a signed 64-bit word counts. -/
def listLimit : Nat := ((1 <<< 63) - 1) / 12

/-- Whether the cells of a box can be listed. Room for a list is made before it is filled, and making room for too long
a list is fatal. -/
def hasRoom (g : Grid) (b : Aabb) (limit : Nat) : Bool :=
  !b.isFinite || (count? (g.lowest b) (g.highest b)).all fun count => limit < count || count ≤ listLimit

/-- Which neighbours along one axis a voxel borders on, by its place inside its cell. -/
def border (g : Grid) (place : Int) : List Int :=
  if place = 0 then [0, -1] else if place = g.edge - 1 then [0, 1] else [0]

/-- The cells whose geometry can change with a voxel: its own cell first, then each neighbour
across a face, an edge or a corner that the voxel sits on. -/
def affected (g : Grid) (p : Position) : List Coord :=
  let home := g.cellOf p
  let corner := g.origin home
  let moves : List Coord :=
    (g.border (p.x - corner.x)).flatMap fun dx =>
      (g.border (p.y - corner.y)).flatMap fun dy =>
        (g.border (p.z - corner.z)).map fun dz => ⟨dx, dy, dz⟩
  home :: (moves.filter (· ≠ ⟨0, 0, 0⟩)).map home.offset

end Grid

end TerrainStream.Cell
