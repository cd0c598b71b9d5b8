import TerrainStream.Shape.Merge

/-! The coarse fallback for a build that failed: one box around everything solid, so a cell
never loses its collision entirely. -/

namespace TerrainStream.Shape

open Cell

def Block.ofReach (r : Snapshot.Reach) : Block := ⟨r.lo, ⟨r.hi.x + 1, r.hi.y + 1, r.hi.z + 1⟩⟩

/-- One box around every solid voxel; the whole cell when the voxels cannot be trusted. -/
def cover? (snap : Snapshot) : Option Block :=
  if snap.voxels.size ≠ snap.size * snap.size * snap.size ∨ snap.size > 65535 then
    let edge := min snap.size 65535
    if edge = 0 then none else some ⟨⟨0, 0, 0⟩, ⟨edge, edge, edge⟩⟩
  else snap.solidReach.map Block.ofReach

def coarse (snap : Snapshot) : Shape :=
  ⟨snap.coord, snap.size, (cover? snap).elim #[] fun b => #[b.toBox]⟩

/-- Build a shape, or fall back on the coarse one; the flag tells which. -/
def buildOrCover (builder : Builder) (snap : Snapshot) (scratch : Scratch) : Scratch × Shape × Bool :=
  match builder snap scratch with
  | (scratch, .ok shape) => (scratch, shape, false)
  | (scratch, .error _) => (scratch, coarse snap, true)

end TerrainStream.Shape
