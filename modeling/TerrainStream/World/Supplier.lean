import TerrainStream.Cell.Snapshot

/-! What the terrain needs of a world: a snapshot of a cell, or word that the cell is not loaded. -/

namespace TerrainStream.World

open Cell

structure NotLoaded where
  key : Key
deriving DecidableEq, Repr

def NotLoaded.message (e : NotLoaded) : String := s!"cell {e.key.text} is not loaded"

/-- A world that can be asked for snapshots; asking may change it. -/
class Supplier (ω : Type) where
  snapshot : ω → Key → ω × Except NotLoaded Snapshot

end TerrainStream.World
