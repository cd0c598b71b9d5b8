import TerrainStream.Cell.Grid
import TerrainStream.Physics.Pose
import TerrainStream.Residency.Request
import TerrainStream.Residency.Settings

/-! What the planner is told between passes. Events are applied in the order they arrive, at the start
of the next pass. -/

namespace TerrainStream.Residency

open Cell Physics

inductive Event
  | bodyAdded (body : BodyId)
  | bodyRemoved (body : BodyId)
  /-- A voxel has changed; the edit is in the world already. -/
  | voxelEdited (place : Position)
  /-- The world has let go of the region behind this cell. -/
  | cellUnloaded (key : Key)
  /-- Hold a cell for a caller outside; asking again while it is held does nothing. -/
  | requested (key : Key)
  | released (key : Key)
  | prioritized (key : Key) (priority : Priority)
  /-- The world had no snapshot of the cell, and its claim was given up. -/
  | snapshotUnavailable (key : Key)
  /-- A queued claim was given up because nobody referenced the cell. -/
  | claimAbandoned (key : Key)
  | configured (pacing : Pacing) (margins : Margins)
  | shutdown
deriving Inhabited

end TerrainStream.Residency
