import TerrainStream.Proofs.Physics.Scene

/-! Bodies among terrain. A move is made only into free space, so that a body that is clear of all terrain stays clear
until it falls through and starts over; its way depends on itself and on the enabled shapes alone. -/

namespace TerrainStream.Physics

open Space Cell Shape

namespace Body

/-- The box that a body takes up. -/
def box (b : Body) : Aabb := b.boundsAt b.pos

variable {blocked : Aabb → Bool} {b : Body} {m : Motion} {hop : Bool} {dt : Float32}

/-- A body's number, and a respawn count, that a part of a step leaves as they are. -/
structure Motion.Stays (m m' : Motion) : Prop where
  id : m'.body.id = m.body.id
  respawns : m'.respawns = m.respawns

theorem tryMove_stays (m : Motion) (delta turned : Vec3) (landed : Bool) :
    m.Stays (tryMove blocked m delta turned landed) := by
  unfold tryMove
  split <;> exact ⟨rfl, rfl⟩

/-- A move that is made leads into free space, and one that is not leaves the body in place. -/
theorem tryMove_free (free : blocked m.body.box = false) (delta turned : Vec3) (landed : Bool) :
    blocked (tryMove blocked m delta turned landed).body.box = false := by
  unfold tryMove
  split
  case isTrue => exact free
  case isFalse passable => exact Bool.eq_false_iff.mpr passable

/-- A step without its end: the body has fallen faster and tried its three moves. -/
def moved (blocked : Aabb → Bool) (b : Body) (hop : Bool) (dt : Float32) : Motion :=
  moveZ blocked (moveX blocked (moveY blocked ⟨b.accelerate hop dt, 0, 0⟩ dt) dt) dt

theorem moved_stays (b : Body) (hop : Bool) (dt : Float32) : Motion.Stays ⟨b, 0, 0⟩ (b.moved blocked hop dt) := by
  have risen : Motion.Stays _ (moveY blocked ⟨b.accelerate hop dt, 0, 0⟩ dt) := tryMove_stays _ _ _ _
  have crossed : Motion.Stays _ (moveX blocked (moveY blocked ⟨b.accelerate hop dt, 0, 0⟩ dt) dt) :=
    tryMove_stays _ _ _ _
  have through : Motion.Stays _ (b.moved blocked hop dt) := tryMove_stays _ _ _ _
  exact ⟨through.id.trans (crossed.id.trans risen.id), through.respawns.trans (crossed.respawns.trans risen.respawns)⟩

theorem moved_free (free : blocked b.box = false) : blocked (b.moved blocked hop dt).body.box = false := by
  have risen : blocked (moveY blocked ⟨b.accelerate hop dt, 0, 0⟩ dt).body.box = false :=
    tryMove_free (m := ⟨{ b.accelerate hop dt with grounded := false }, 0, 0⟩) free _ _ _
  have crossed : blocked (moveX blocked (moveY blocked ⟨b.accelerate hop dt, 0, 0⟩ dt) dt).body.box = false :=
    tryMove_free risen _ _ _
  exact tryMove_free crossed _ _ _

theorem step_eq (b : Body) (hop : Bool) (dt : Float32) : b.step blocked hop dt = respawn (b.moved blocked hop dt) := rfl

theorem step_id (b : Body) (hop : Bool) (dt : Float32) : (b.step blocked hop dt).body.id = b.id := by
  have kept : (b.moved blocked hop dt).body.id = b.id := (moved_stays b hop dt).id
  rw [step_eq, respawn]
  split <;> exact kept

/-- A body starts over in a step if its moves have led it below the kill plane, and in no other case. -/
theorem step_respawns (b : Body) (hop : Bool) (dt : Float32) : (b.step blocked hop dt).respawns = 0 ↔
    ¬ (b.moved blocked hop dt).body.pos.y < killPlane := by
  have none : (b.moved blocked hop dt).respawns = 0 := (moved_stays b hop dt).respawns
  rw [step_eq, respawn]
  split
  case isTrue fell => exact ⟨nofun, fun above => absurd fell above⟩
  case isFalse above => exact ⟨fun _ => above, fun _ => none⟩

/-- Unless it starts over, a body that begins a step in free space ends it there. -/
theorem step_free (free : blocked b.box = false) (stayed : (b.step blocked hop dt).respawns = 0) :
    blocked (b.step blocked hop dt).body.box = false := by
  rw [step_eq, respawn, if_neg ((step_respawns b hop dt).mp stayed)]
  exact moved_free free

/-- Whether a body that stands hops in a step, by the number of the steps before it. -/
def hopsAt (steps : Nat) : Bool := steps % hopEvery == hopEvery - 1

/-- A body's way through steps of given lengths, so many steps into the scene; what the steps count adds up. -/
def travel (blocked : Aabb → Bool) (steps : Nat) (b : Body) : List Float32 → Motion
  | [] => ⟨b, 0, 0⟩
  | dt :: rest =>
    let m := b.step blocked (hopsAt steps) dt
    let later := travel blocked (steps + 1) m.body rest
    ⟨later.body, m.contacts + later.contacts, m.respawns + later.respawns⟩

theorem travel_id (steps : Nat) (b : Body) (times : List Float32) : (b.travel blocked steps times).body.id = b.id := by
  induction times generalizing steps b with
  | nil => rfl
  | cons dt rest ih => exact (ih _ _).trans (step_id b _ dt)

/-- Unless it starts over on its way, a body that begins it in free space ends it there. -/
theorem travel_free {steps : Nat} {times : List Float32} (free : blocked b.box = false)
    (stayed : (b.travel blocked steps times).respawns = 0) :
    blocked (b.travel blocked steps times).body.box = false := by
  induction times generalizing steps b with
  | nil => exact free
  | cons dt rest ih =>
    obtain ⟨first, later⟩ := Nat.add_eq_zero_iff.mp stayed
    exact ih (step_free free first) later

end Body

namespace Scene

variable {s t : Scene} {board board' : PoseBoard} {b : Body} {i j : Nat}

/-- The boxes of enabled shapes. -/
def Solid (s : Scene) (box : Aabb) : Prop :=
  ∃ (id : Nat) (held : Installed), s.shapes[id]? = some held ∧ held.enabled = true ∧ box ∈ held.boxes

/-- A box that touches no box of an enabled shape. -/
def Clear (s : Scene) (box : Aabb) : Prop := ∀ solid, s.Solid solid → solid.intersects box = false

theorem mem_enabledShapes {held : Installed} :
    held ∈ s.enabledShapes ↔ ∃ id : Nat, s.shapes[id]? = some held ∧ held.enabled = true := by
  simp only [enabledShapes, List.mem_filter, List.mem_map, Prod.exists, Table.mem_toList]
  constructor
  · rintro ⟨⟨id, _, found, rfl⟩, enabled⟩
    exact ⟨id, found, enabled⟩
  · rintro ⟨id, found, enabled⟩
    exact ⟨⟨id, held, found, rfl⟩, enabled⟩

theorem blocked_iff {box : Aabb} : s.blocked box = true ↔ ∃ solid, s.Solid solid ∧ solid.intersects box = true := by
  simp only [blocked, List.any_eq_true, mem_enabledShapes, Array.any_eq_true', Solid]
  constructor
  · rintro ⟨held, ⟨id, found, enabled⟩, solid, member, touches⟩
    exact ⟨solid, ⟨id, held, found, enabled, member⟩, touches⟩
  · rintro ⟨solid, ⟨id, held, found, enabled, member⟩, touches⟩
    exact ⟨held, ⟨id, found, enabled⟩, solid, member, touches⟩

theorem blocked_eq_false_iff {box : Aabb} : s.blocked box = false ↔ s.Clear box := by
  rw [← Bool.not_eq_true, blocked_iff]
  simp only [Clear, not_exists, not_and, Bool.not_eq_true]

/-- Only the boxes of enabled shapes block. -/
theorem blocked_congr (same : ∀ box, s.Solid box ↔ t.Solid box) : s.blocked = t.blocked := by
  funext box
  rw [Bool.eq_iff_iff, blocked_iff, blocked_iff]
  simp only [same]

/-- A shape that is not enabled makes nothing solid. -/
theorem solid_addShape (numbered : s.Numbered) (key : Key) (shape : Shape) (box : Aabb) :
    (s.addShape key shape false).2.Solid box ↔ s.Solid box := by
  have absent : s.shapes[s.nextHandle]? = none :=
    Std.ExtTreeMap.getElem?_eq_none fun used => Nat.lt_irrefl _ (numbered _ used)
  have sees (id : Nat) : (s.addShape key shape false).2.shapes[id]? =
      if s.nextHandle = id then some ⟨key, shape, shape.worldBoxes, false⟩ else s.shapes[id]? :=
    Table.getElem?_insert _ _ _ _
  refine exists_congr fun id => exists_congr fun held => ?_
  rw [sees]
  split
  case isTrue here =>
    subst here
    rw [absent]
    constructor
    · rintro ⟨⟨⟩, ⟨⟩, _⟩
    · rintro ⟨⟨⟩, _⟩
  case isFalse => exact Iff.rfl

theorem step_bodies (s : Scene) (board : PoseBoard) (dt : Float32) : (s.step board dt).1.bodies =
    s.bodies.map fun b => (b.step s.blocked (Body.hopsAt s.stats.steps) dt).body := by
  rw [step]
  exact List.map_map

theorem step_blocked (s : Scene) (board : PoseBoard) (dt : Float32) : (s.step board dt).1.blocked = s.blocked := rfl

theorem spawn_blocked (s : Scene) (board : PoseBoard) (id : BodyId) (pos vel : Vec3) :
    (s.spawn board id pos vel).1.blocked = s.blocked := rfl

theorem step_ids (s : Scene) (board : PoseBoard) (dt : Float32) :
    (s.step board dt).1.bodies.map (·.id) = s.bodies.map (·.id) := by
  rw [step_bodies, List.map_map]
  exact List.map_congr_left fun b _ => Body.step_id b _ dt

theorem publish_sample (board : PoseBoard) (id other : BodyId) (pose : Pose) :
    (board.publish id pose).sample other = if id = other then some pose else board.sample other :=
  Table.getElem?_insert board id other pose

theorem publishAll_other {bodies : List Body} {id : BodyId} (absent : id ∉ bodies.map (·.id)) (board : PoseBoard) :
    (bodies.foldl (fun board b => board.publish b.id b.pose) board).sample id = board.sample id := by
  induction bodies generalizing board with
  | nil => rfl
  | cons b bodies ih =>
    obtain ⟨different, absent⟩ := List.ne_and_not_mem_of_not_mem_cons absent
    rw [List.foldl_cons, ih absent, publish_sample, if_neg (Ne.symm different)]

/-- Bodies with numbers of their own all find their place on the board. -/
theorem publishAll_sample {bodies : List Body} (distinct : (bodies.map (·.id)).Nodup) (member : b ∈ bodies)
    (board : PoseBoard) :
    (bodies.foldl (fun board b => board.publish b.id b.pose) board).sample b.id = some b.pose := by
  induction bodies generalizing board with
  | nil => cases member
  | cons head bodies ih =>
    obtain ⟨fresh, distinct⟩ := List.nodup_cons.mp distinct
    rw [List.foldl_cons]
    rcases List.mem_cons.mp member with rfl | later
    · rw [publishAll_other fresh, publish_sample, if_pos rfl]
    · exact ih distinct later _

/-- Every body has its pose on the board. -/
def Posted (s : Scene) (board : PoseBoard) : Prop := ∀ b ∈ s.bodies, board.sample b.id = some b.pose

theorem step_posted (distinct : (s.bodies.map (·.id)).Nodup) (board : PoseBoard) (dt : Float32) :
    (s.step board dt).1.Posted (s.step board dt).2 := by
  rw [← s.step_ids board dt] at distinct
  exact fun b member => publishAll_sample distinct member board

theorem spawn_posted {id : BodyId} (posted : s.Posted board) (fresh : id ∉ s.bodies.map (·.id)) (pos vel : Vec3) :
    (s.spawn board id pos vel).1.Posted (s.spawn board id pos vel).2 := by
  intro b member
  have sampled : (s.spawn board id pos vel).2.sample b.id =
      if id = b.id then some (Body.spawned id pos vel).pose else board.sample b.id := publish_sample _ _ _ _
  rcases List.mem_append.mp member with before | new
  · have different : id ≠ b.id := fun same => fresh (same ▸ List.mem_map.mpr ⟨b, before, rfl⟩)
    rw [sampled, if_neg different]
    exact posted b before
  · obtain rfl := List.mem_singleton.mp new
    exact sampled.trans (if_pos rfl)

/-- What may happen between changes of the shapes. -/
inductive Turn
  | step (dt : Float32)
  | spawn (id : BodyId) (pos vel : Vec3)

def Turn.time? : Turn → Option Float32
  | .step dt => some dt
  | .spawn _ _ _ => none

def Turn.newcomer? : Turn → Option BodyId
  | .step _ => none
  | .spawn id _ _ => some id

/-- Steps and newcomers in turn. -/
def play (s : Scene) (board : PoseBoard) : List Turn → Scene × PoseBoard
  | [] => (s, board)
  | .step dt :: turns => (s.step board dt).1.play (s.step board dt).2 turns
  | .spawn id pos vel :: turns => (s.spawn board id pos vel).1.play (s.spawn board id pos vel).2 turns

theorem play_blocked (s : Scene) (board : PoseBoard) (turns : List Turn) :
    (s.play board turns).1.blocked = s.blocked := by
  induction turns generalizing s board with
  | nil => rfl
  | cons turn turns ih =>
    cases turn with
    | step dt => exact (ih _ _).trans (s.step_blocked board dt)
    | spawn id pos vel => exact (ih _ _).trans (s.spawn_blocked board id pos vel)

/-- The way of a body through a run is its own, whoever comes and goes beside it. -/
theorem play_bodies (listed : s.bodies[i]? = some b) (board : PoseBoard) (turns : List Turn) :
    (s.play board turns).1.bodies[i]? = some (b.travel s.blocked s.stats.steps (turns.filterMap Turn.time?)).body := by
  induction turns generalizing s board b with
  | nil => exact listed
  | cons turn turns ih =>
    cases turn with
    | step dt =>
      have stepped : (s.step board dt).1.bodies[i]? = some (b.step s.blocked (Body.hopsAt s.stats.steps) dt).body := by
        rw [step_bodies, List.getElem?_map, listed, Option.map_some]
      exact ih stepped _
    | spawn id pos vel =>
      have kept : (s.spawn board id pos vel).1.bodies[i]? = some b := by
        obtain ⟨inside, same⟩ := List.getElem?_eq_some_iff.mp listed
        exact (List.getElem?_append_left inside).trans listed
      exact ih kept _

/-- After a step the board shows where the bodies are, and it goes on to do so. -/
theorem play_posted {turns : List Turn} (distinct : (s.bodies.map (·.id) ++ turns.filterMap Turn.newcomer?).Nodup)
    (posted : turns.filterMap Turn.time? ≠ [] ∨ s.Posted board) :
    (s.play board turns).1.Posted (s.play board turns).2 := by
  induction turns generalizing s board with
  | nil => exact posted.resolve_left fun some => some rfl
  | cons turn turns ih =>
    cases turn with
    | step dt =>
      have now := s.step_posted (List.nodup_append.mp distinct).1 board dt
      refine ih ?_ (.inr now)
      rw [step_ids]
      exact distinct
    | spawn id pos vel =>
      have ids : (s.spawn board id pos vel).1.bodies.map (·.id) = s.bodies.map (·.id) ++ [id] := List.map_append
      have fresh : id ∉ s.bodies.map (·.id) := fun used =>
        (List.nodup_append.mp distinct).2.2 id used id List.mem_cons_self rfl
      refine ih ?_ (posted.imp_right fun posted => spawn_posted posted fresh pos vel)
      rw [ids, List.append_assoc]
      exact distinct

/-- A body that is clear of the terrain and does not start over is clear of it after a step, and the pose that the step
publishes for it is the box where it is; so it is after any number of steps while the shapes stay, whichever bodies are
added between them. Its way through the steps is the same in any scene with the same boxes of enabled shapes and the
same number of steps before, whatever disabled shapes and other bodies there are. -/
theorem bodies_stay_clear (s : Scene) (board : PoseBoard) (turns : List Turn)
    (distinct : (s.bodies.map (·.id) ++ turns.filterMap Turn.newcomer?).Nodup) (listed : s.bodies[i]? = some b) :
    (∀ dt, s.Clear b.box → (b.step s.blocked (Body.hopsAt s.stats.steps) dt).respawns = 0 →
      ∃ b', (s.step board dt).1.bodies[i]? = some b' ∧ b'.id = b.id ∧ (s.step board dt).1.Clear b'.box ∧
        ∃ pose, (s.step board dt).2.sample b.id = some pose ∧ pose.bounds = b'.box) ∧
    let way := b.travel s.blocked s.stats.steps (turns.filterMap Turn.time?)
    let after := s.play board turns
    (after.1.bodies[i]? = some way.body ∧ way.body.id = b.id) ∧
    (s.Clear b.box → way.respawns = 0 → after.1.Clear way.body.box) ∧
    (turns.filterMap Turn.time? ≠ [] → ∃ pose, after.2.sample b.id = some pose ∧ pose.bounds = way.body.box) ∧
    ∀ (t : Scene) (board' : PoseBoard) (turns' : List Turn) (j : Nat), (∀ box, t.Solid box ↔ s.Solid box) →
      t.stats.steps = s.stats.steps → t.bodies[j]? = some b →
      turns'.filterMap Turn.time? = turns.filterMap Turn.time? →
      (t.play board' turns').1.bodies[j]? = some way.body := by
  have clear (turns : List Turn) (free : s.Clear b.box)
      (stayed : (b.travel s.blocked s.stats.steps (turns.filterMap Turn.time?)).respawns = 0) :
      (s.play board turns).1.Clear (b.travel s.blocked s.stats.steps (turns.filterMap Turn.time?)).body.box := by
    rw [← blocked_eq_false_iff, play_blocked]
    exact Body.travel_free (blocked_eq_false_iff.mpr free) stayed
  have shown (turns : List Turn) (distinct : (s.bodies.map (·.id) ++ turns.filterMap Turn.newcomer?).Nodup)
      (stepped : turns.filterMap Turn.time? ≠ []) : ∃ pose, (s.play board turns).2.sample b.id = some pose ∧
        pose.bounds = (b.travel s.blocked s.stats.steps (turns.filterMap Turn.time?)).body.box := by
    have posted : (s.play board turns).1.Posted (s.play board turns).2 := play_posted distinct (.inl stepped)
    have sampled := posted _ (List.mem_of_getElem? (play_bodies listed board turns))
    rw [Body.travel_id] at sampled
    exact ⟨_, sampled, rfl⟩
  refine ⟨fun dt free stayed => ?_, ⟨play_bodies listed board turns, Body.travel_id _ _ _⟩, clear turns,
    shown turns distinct, fun t board' turns' j same steps there times => ?_⟩
  · have alone : (s.bodies.map (·.id) ++ [Turn.step dt].filterMap Turn.newcomer?).Nodup := by
      rw [show [Turn.step dt].filterMap Turn.newcomer? = [] from rfl, List.append_nil]
      exact (List.nodup_append.mp distinct).1
    exact ⟨_, play_bodies listed board [.step dt], Body.travel_id _ _ _, clear [.step dt] free stayed,
      shown [.step dt] alone (List.cons_ne_nil _ _)⟩
  · rw [play_bodies there, blocked_congr same, steps, times]

/-- A body falls onto a floor and stays on it, while another joins in between. Without the other, and with a pillar that
is not enabled where it falls, it comes to the same place. -/
theorem bodies_stay_clear_on_floor :
    let floor : Shape := ⟨⟨0, 0, 0⟩, 8, #[⟨⟨0, 0, 0⟩, ⟨8, 1, 8⟩⟩]⟩
    let pillar : Shape := ⟨⟨0, 0, 0⟩, 8, #[⟨⟨2, 0, 2⟩, ⟨5, 8, 5⟩⟩]⟩
    let ground := (empty.addShape ⟨1⟩ floor true).2
    let b := Body.spawned 1 ⟨3, 2, 3⟩ ⟨1, 0, 0⟩
    let s := { ground with bodies := [b] }
    let t := (s.addShape ⟨1⟩ pillar false).2
    let turns : List Turn := [.step 0.25, .spawn 2 ⟨4, 3, 3⟩ ⟨0, 0, 0⟩, .step 0.25]
    let way := b.travel s.blocked s.stats.steps (turns.filterMap Turn.time?)
    let after := s.play ∅ turns
    ((s.bodies.map (·.id) ++ turns.filterMap Turn.newcomer?).Nodup ∧ s.bodies[0]? = some b ∧ s.Clear b.box ∧
      way.respawns = 0 ∧ way.contacts = 2 ∧ turns.filterMap Turn.time? ≠ []) ∧
    after.1.Clear way.body.box ∧ (∃ pose, after.2.sample 1 = some pose ∧ pose.bounds = way.body.box) ∧
    (t.play ∅ [.step 0.25, .step 0.25]).1.bodies[0]? = some way.body := by
  intro floor pillar ground b s t turns way after
  have distinct : (s.bodies.map (·.id) ++ turns.filterMap Turn.newcomer?).Nodup := by decide
  have listed : s.bodies[0]? = some b := rfl
  have free : s.Clear b.box := blocked_eq_false_iff.mp (by decide +kernel)
  have stayed : way.respawns = 0 := by decide +kernel
  have lands : way.contacts = 2 := by decide +kernel
  have numbered : s.Numbered := numbered_empty.addShape ⟨1⟩ floor true
  obtain ⟨_, _, clear, shown, alone⟩ := bodies_stay_clear s ∅ turns distinct listed
  exact ⟨⟨distinct, listed, free, stayed, lands, List.cons_ne_nil _ _⟩, clear free stayed, shown (List.cons_ne_nil _ _),
    alone t ∅ [.step 0.25, .step 0.25] 0 (solid_addShape numbered ⟨1⟩ pillar) rfl rfl rfl⟩

end Scene

end TerrainStream.Physics
