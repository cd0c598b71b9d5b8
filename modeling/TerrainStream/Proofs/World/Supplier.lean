import TerrainStream.Proofs.Shape.Carving
import TerrainStream.World.Ground

/-! Worlds that can be relied on: the snapshots that they supply have as many voxels as their sizes ask for. -/

namespace TerrainStream

open Cell World

namespace World

/-- In sane states a world supplies whole snapshots only, and being asked leaves it sane. -/
structure Wholesome {ω : Type} [Supplier ω] (sane : ω → Prop) : Prop where
  lasting : ∀ world key, sane world → sane (Supplier.snapshot world key).1
  whole : ∀ world key s, sane world → (Supplier.snapshot world key).2 = .ok s → s.Whole

end World

/-- A voxel list that was cut or filled up has the length that it was cut or filled up to. -/
theorem Cell.Snapshot.size_fit (voxels : Array Voxel) (count : Nat) : (fit voxels count).size = count := by
  unfold fit
  split
  · rw [Array.size_append, Array.size_replicate]
    omega
  · rw [Array.size_extract]
    omega

theorem Cell.Snapshot.whole_ofVoxels (coord : Coord) {size : Nat} (positive : 0 < size) (bounded : size ≤ 65535)
    (voxels : Array Voxel) : (ofVoxels coord size voxels).Whole := ⟨positive, bounded, size_fit voxels _⟩

namespace World.Ground

/-- The grid of the terrain. -/
def grid (g : Ground) : Grid :=
  match g.terrain with
  | .floor f => f.grid
  | .heightmap w => w.grid

/-- Ground supplies whole snapshots if its cells are of a size that shapes can have. -/
theorem wholesome : Wholesome fun g : Ground => 0 < g.grid.size ∧ g.grid.size ≤ 65535 where
  lasting := by
    rintro ⟨terrain, unloaded, served⟩ key ⟨positive, bounded⟩
    simp only [Supplier.snapshot, snapshot]
    split
    · exact ⟨positive, bounded⟩
    · cases terrain with
      | floor f => exact ⟨positive, bounded⟩
      | heightmap w =>
        simp only [Heightmap.snapshot]
        split <;> exact ⟨positive, bounded⟩
  whole := by
    rintro ⟨terrain, unloaded, served⟩ key s ⟨positive, bounded⟩ answer
    simp only [Supplier.snapshot, snapshot] at answer
    split at answer
    · cases answer
    · cases terrain with
      | floor f =>
        rw [← Except.ok.inj answer]
        exact Snapshot.whole_ofVoxels _ positive bounded _
      | heightmap w =>
        simp only [Heightmap.snapshot] at answer
        split at answer
        · rw [← Except.ok.inj answer]
          exact Snapshot.whole_ofVoxels _ positive bounded _
        · cases answer

end World.Ground

end TerrainStream
