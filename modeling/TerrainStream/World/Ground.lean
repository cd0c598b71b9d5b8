import TerrainStream.World.Heightmap

/-! Ground to try the terrain on: a flat floor or a heightmap, from which cells can be unloaded by hand. -/

namespace TerrainStream.World

open Cell

/-- A floor of stone below a height, with single-voxel edits. -/
structure Floor where
  grid : Grid
  height : Int
  edits : Edits

namespace Floor

def voxel (f : Floor) (p : Position) : Voxel :=
  (f.edits[p]?).getD (if p.y < f.height then stone else Voxel.air)

def snapshot (f : Floor) (key : Key) : Snapshot :=
  let n := f.grid.size
  let corner := f.grid.origin key.coord
  Snapshot.ofVoxels key.coord n
    ((Spot.cube n).map fun p => f.voxel ⟨corner.x + p.x, corner.y + p.y, corner.z + p.z⟩).toArray

end Floor

inductive Terrain
  | floor (floor : Floor)
  | heightmap (map : Heightmap)

structure Ground where
  terrain : Terrain
  unloaded : KeySet
  served : Nat

namespace Ground

def ofTerrain (terrain : Terrain) : Ground := ⟨terrain, ∅, 0⟩

def set (g : Ground) (p : Position) (v : Voxel) : Ground :=
  match g.terrain with
  | .floor f => { g with terrain := .floor { f with edits := f.edits.insert p v } }
  | .heightmap w => { g with terrain := .heightmap (w.set p v).1 }

/-- Unload a cell; whether it was loaded before is whether it was not in the set. -/
def unload (g : Ground) (key : Key) : Ground := { g with unloaded := g.unloaded.insert key }

def load (g : Ground) (key : Key) : Ground := { g with unloaded := g.unloaded.erase key }

def snapshot (g : Ground) (key : Key) : Ground × Except NotLoaded Snapshot :=
  if g.unloaded.contains key then (g, .error ⟨key⟩)
  else
    match g.terrain with
    | .floor f => ({ g with served := g.served + 1 }, .ok (f.snapshot key))
    | .heightmap w =>
      let (w, answer) := w.snapshot key
      ({ g with terrain := .heightmap w, served := g.served + 1 }, answer)

instance : Supplier Ground := ⟨snapshot⟩

end Ground

end TerrainStream.World
