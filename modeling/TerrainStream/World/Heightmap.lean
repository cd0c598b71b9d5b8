import TerrainStream.Cell.Grid
import TerrainStream.World.Supplier

/-! A world of rolling ground: a height for every column, soil over stone, and single-voxel edits on
top. Only cells near the origin are loaded. -/

namespace TerrainStream.World

open Space Cell

def stone : Voxel := ⟨1⟩

def dirt : Voxel := ⟨2⟩

def topsoil : Int := 3

/-- Voxels that were set by hand. -/
abbrev Edits := Std.ExtTreeMap Position Voxel

structure Heightmap where
  grid : Grid
  /-- A value between -1 and 1 for every column. -/
  noise : Float32 → Float32 → Float32
  /-- Cells further than this from the origin, along x or z, are not loaded. -/
  extent : Int
  edits : Edits
  served : Nat

namespace Heightmap

def ofGrid (grid : Grid) (noise : Float32 → Float32 → Float32) (extent : Int) : Heightmap :=
  ⟨grid, noise, max extent 0, ∅, 0⟩

/-- The lowest air voxel of a column as generated: one cell high, give or take three quarters of one. Heights are
reckoned in signed 32-bit words. -/
def height (w : Heightmap) (x z : Int) : Int :=
  Int.bmod (w.grid.edge + truncWhole (w.noise (ofWhole x) (ofWhole z) * (Float32.ofNat w.grid.size * 0.75))) UInt32.size

def generated (y height : Int) : Voxel :=
  if y ≥ height then Voxel.air else if y ≥ Int.bmod (height - topsoil) UInt32.size then dirt else stone

def voxel (w : Heightmap) (p : Position) : Voxel := (w.edits[p]?).getD (generated p.y (w.height p.x p.z))

def set (w : Heightmap) (p : Position) (v : Voxel) : Heightmap × Voxel :=
  ({ w with edits := w.edits.insert p v }, w.voxel p)

def isLoaded (w : Heightmap) (c : Coord) : Bool := c.x.natAbs ≤ w.extent && c.z.natAbs ≤ w.extent

/-- The heights of a cell's columns: z slowest, then x. -/
def heights (w : Heightmap) (corner : Position) : Array Int :=
  let n := w.grid.size
  ((List.range n).flatMap fun (z : Nat) =>
    (List.range n).map fun (x : Nat) => w.height (corner.x + x) (corner.z + z)).toArray

/-- The voxel of a spot, by the height of its column. -/
def fill (w : Heightmap) (corner : Position) (heights : Array Int) (p : Spot) : Voxel :=
  (w.edits[(⟨corner.x + p.x, corner.y + p.y, corner.z + p.z⟩ : Position)]?).getD
    (generated (corner.y + p.y) (heights.getD (p.z * w.grid.size + p.x) 0))

def snapshot (w : Heightmap) (key : Key) : Heightmap × Except NotLoaded Snapshot :=
  if w.isLoaded key.coord then
    let n := w.grid.size
    let corner := w.grid.origin key.coord
    let heights := w.heights corner
    ({ w with served := w.served + 1 },
      .ok (Snapshot.ofVoxels key.coord n ((Spot.cube n).map (w.fill corner heights)).toArray))
  else (w, .error ⟨key⟩)

instance : Supplier Heightmap := ⟨snapshot⟩

/-- The noise of a flat world. -/
def still (_ _ : Float32) : Float32 := 0.0

end Heightmap

end TerrainStream.World
