import TerrainStream.Physics.Scene

namespace TerrainStream.Physics

open Cell Store Collision

/-- A call, with the cell that the scene knew the handle by. -/
inductive Call
  | add (cell : Key) (handle : Handle) (volume : Nat) (enabled : Bool)
  | remove (cell : Option Key) (handle : Handle)
  | enable (cell : Option Key) (handle : Handle) (enabled : Bool)
deriving DecidableEq, Repr, Inhabited

structure Recorder where
  scene : Scene
  calls : Array Call

namespace Recorder

def empty : Recorder := ⟨Scene.empty, #[]⟩

def cell? (r : Recorder) (handle : Handle) : Option Key := (r.scene.shape? handle).map (·.key)

def addShape (r : Recorder) (key : Key) (shape : Shape) (enabled : Bool) : Handle × Recorder :=
  let (handle, scene) := r.scene.addShape key shape enabled
  (handle, ⟨scene, r.calls.push (.add key handle shape.volume enabled)⟩)

def removeShape (r : Recorder) (handle : Handle) : Recorder :=
  ⟨r.scene.removeShape handle, r.calls.push (.remove (r.cell? handle) handle)⟩

def setEnabled (r : Recorder) (handle : Handle) (enabled : Bool) : Recorder :=
  ⟨r.scene.setEnabled handle enabled, r.calls.push (.enable (r.cell? handle) handle enabled)⟩

instance : Simulation Recorder := ⟨addShape, removeShape, setEnabled⟩

end Recorder

end TerrainStream.Physics
