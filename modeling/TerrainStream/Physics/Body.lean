import TerrainStream.Physics.Pose

/-! A falling body. Each step moves it along y, then x, then z; a move into terrain is not made, and
stops or turns the velocity on that axis. Below the kill plane a body starts over. -/

namespace TerrainStream.Physics

open Space

def gravity : Float32 := -20.0

/-- Bodies below this height have fallen through unloaded terrain. -/
def killPlane : Float32 := -64.0

/-- The number of steps from one hop to the next. -/
def hopEvery : Nat := 240

def hopSpeed : Float32 := 8.0

structure Body where
  id : BodyId
  spawn : Vec3
  pos : Vec3
  vel : Vec3
  half : Vec3
  grounded : Bool
deriving Inhabited

namespace Body

def spawned (id : BodyId) (pos vel : Vec3) : Body := ⟨id, pos, pos, vel, ⟨0.4, 0.9, 0.4⟩, false⟩

def boundsAt (b : Body) (pos : Vec3) : Aabb := Aabb.ofCenter pos b.half

def pose (b : Body) : Pose := ⟨b.boundsAt b.pos, b.vel⟩

structure Motion where
  body : Body
  contacts : Nat
  respawns : Nat

variable (blocked : Aabb → Bool)

/-- Hop if it is time and the body stands, then fall faster. -/
def accelerate (b : Body) (hop : Bool) (dt : Float32) : Body :=
  let vy := if b.grounded && hop then hopSpeed else b.vel.y
  { b with vel := { b.vel with y := vy + gravity * dt } }

/-- Move by `delta`, or leave the body in place and turn its velocity to `turned`. -/
def tryMove (m : Motion) (delta turned : Vec3) (landed : Bool) : Motion :=
  if blocked (m.body.boundsAt (m.body.pos + delta)) then
    { m with body := { m.body with vel := turned, grounded := landed }, contacts := m.contacts + 1 }
  else { m with body := { m.body with pos := m.body.pos + delta } }

/-- Move up or down; a body stopped on its way down stands. -/
def moveY (m : Motion) (dt : Float32) : Motion :=
  let v := m.body.vel
  let m := { m with body := { m.body with grounded := false } }
  tryMove blocked m ⟨0.0, v.y * dt, 0.0⟩ { v with y := 0.0 } (v.y < 0.0)

def moveX (m : Motion) (dt : Float32) : Motion :=
  let v := m.body.vel
  tryMove blocked m ⟨v.x * dt, 0.0, 0.0⟩ { v with x := -v.x } m.body.grounded

def moveZ (m : Motion) (dt : Float32) : Motion :=
  let v := m.body.vel
  tryMove blocked m ⟨0.0, 0.0, v.z * dt⟩ { v with z := -v.z } m.body.grounded

/-- Put a body that fell through back where it started. -/
def respawn (m : Motion) : Motion :=
  if m.body.pos.y < killPlane then
    { m with
      body := { m.body with pos := m.body.spawn, vel := { m.body.vel with y := 0.0 } }
      respawns := m.respawns + 1 }
  else m

def step (b : Body) (hop : Bool) (dt : Float32) : Motion :=
  let m : Motion := ⟨b.accelerate hop dt, 0, 0⟩
  respawn (moveZ blocked (moveX blocked (moveY blocked m dt) dt) dt)

end Body

end TerrainStream.Physics
