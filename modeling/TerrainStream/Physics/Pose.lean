import Std.Data.ExtTreeMap
import TerrainStream.Space.Aabb

namespace TerrainStream.Physics

open Space

abbrev BodyId := Nat

structure Pose where
  bounds : Aabb
  velocity : Vec3
deriving Inhabited

abbrev PoseBoard := Std.ExtTreeMap BodyId Pose

namespace PoseBoard

def publish (board : PoseBoard) (id : BodyId) (pose : Pose) : PoseBoard := board.insert id pose

def sample (board : PoseBoard) (id : BodyId) : Option Pose := board[id]?

def ids (board : PoseBoard) : List BodyId := board.keys

end PoseBoard

end TerrainStream.Physics
