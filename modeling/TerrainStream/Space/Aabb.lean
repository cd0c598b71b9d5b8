import TerrainStream.Space.Vec3

/-! Axis-aligned boxes in world units. Boxes made from corners are ordered on
every axis; a box written down directly keeps its corners as given. -/

namespace TerrainStream.Space

structure Aabb where
  lo : Vec3
  hi : Vec3
deriving Inhabited

namespace Aabb

/-- The box spanned by two opposite corners, in either order. -/
def ofCorners (p q : Vec3) : Aabb := ⟨p.min q, p.max q⟩

/-- The box around a centre that reaches `half` to either side. -/
def ofCenter (center half : Vec3) : Aabb := ofCorners (center - half) (center + half)

def center (b : Aabb) : Vec3 := (b.lo + b.hi) * (0.5 : Float32)

def inflate (b : Aabb) (margin : Float32) : Aabb :=
  ⟨b.lo - Vec3.splat margin, b.hi + Vec3.splat margin⟩

/-- The box together with its copy moved by `delta`. -/
def swept (b : Aabb) (delta : Vec3) : Aabb :=
  ⟨b.lo.min (b.lo + delta), b.hi.max (b.hi + delta)⟩

def union (a b : Aabb) : Aabb := ⟨a.lo.min b.lo, a.hi.max b.hi⟩

/-- Boxes that share a face, an edge or a corner intersect. -/
def intersects (a b : Aabb) : Bool :=
  a.lo.x ≤ b.hi.x && a.hi.x ≥ b.lo.x && a.lo.y ≤ b.hi.y && a.hi.y ≥ b.lo.y &&
    a.lo.z ≤ b.hi.z && a.hi.z ≥ b.lo.z

/-- Points on the surface belong to the box. -/
def contains (b : Aabb) (p : Vec3) : Bool :=
  p.x ≥ b.lo.x && p.x ≤ b.hi.x && p.y ≥ b.lo.y && p.y ≤ b.hi.y && p.z ≥ b.lo.z && p.z ≤ b.hi.z

def isFinite (b : Aabb) : Bool := b.lo.isFinite && b.hi.isFinite

end Aabb

end TerrainStream.Space
