/-! The two sets of numbers that residency is tuned by: the pace of planning passes, and the margins
around tracked bodies. -/

namespace TerrainStream.Residency

structure Pacing where
  passIntervalMs : Nat
  /-- Snapshot requests that may be queued at once. -/
  snapshotsPerPass : Nat
  /-- Passes that a cell stays unreferenced before it is removed. -/
  removalGrace : Nat
  /-- Passes before a cell that the world could not supply is tried again. -/
  retryAfter : Nat
  trackerThreads : Nat
deriving DecidableEq, Repr, Inhabited

namespace Pacing

def standard : Pacing := ⟨50, 32, 1, 4, 0⟩

/-- The time between passes in milliseconds, never nothing. -/
def interval (p : Pacing) : Nat := max p.passIntervalMs 1

end Pacing

/-- How far around a body, in voxels, cells are kept. -/
structure Margins where
  load : Float32
  activation : Float32
  /-- How far ahead along its velocity a body's region reaches, in seconds. -/
  lookaheadSecs : Float32
  /-- The longest way ahead, whatever the speed. -/
  maxLookahead : Float32
  /-- A body that would need more cells than this keeps the ones it has. -/
  maxCells : Nat
deriving Inhabited

def Margins.standard : Margins := ⟨8.0, 2.0, 0.5, 16.0, 4096⟩

end TerrainStream.Residency
