import TerrainStream.Residency.Pass

/-! The planner's own loop. It passes, then receives events until the next pass is due; a shutdown
received in between gives one last pass, and the loss of every sender ends the loop where it stands. -/

namespace TerrainStream.Residency

open Physics Store Collision

/-- How a wait between passes ends unless a shutdown ends it first. -/
inductive Ending
  | due
  | deserted
deriving DecidableEq, Repr

structure Round where
  /-- Events in the queue by the time the pass takes them. -/
  before : List Event
  /-- Events that arrive while the planner waits for the next pass. -/
  during : List Event
  ending : Ending
  probe : BodyId → Option Pose

/-- The outcome of a wait: events received, and events left in the queue. -/
structure Wait where
  received : List Event
  left : List Event
  running : Bool

/-- Receive events up to a shutdown, or to the end of the wait. -/
def Wait.receive (ending : Ending) : List Event → Wait
  | [] => ⟨[], [], ending = .due⟩
  | .shutdown :: rest => ⟨[.shutdown], rest, true⟩
  | e :: rest =>
    let w := Wait.receive ending rest
    { w with received := e :: w.received }

structure Shared where
  store : Store
  commands : Mailbox Command
  requests : Mailbox Request

/-- The desk once other parties have been at work. -/
def Desk.amid (d : Desk) (others : Shared → Shared) : Desk :=
  let shared := others ⟨d.store, d.commands, d.requests⟩
  { d with store := shared.store, commands := shared.commands, requests := shared.requests }

def Desk.waited (d : Desk) (wait : Wait) : Desk :=
  { d with planner := { d.planner with inbox := wait.received, running := wait.running } }

/-- The planner's loop over the rounds that come, each with what other parties do before its pass: the desk as it is
left, and the fault that stopped the loop, if one did. -/
def Desk.runAmong (d : Desk) (left : List Event) : List (Round × (Shared → Shared)) → Desk × Option Fault
  | [] => (d, none)
  | (round, others) :: rest =>
    if d.planner.running then
      match (d.amid others).pass (left ++ round.before) round.probe with
      | .error (d, fault) => (d, some fault)
      | .ok d =>
        if d.planner.running then
          let wait := Wait.receive round.ending round.during
          Desk.runAmong (d.waited wait) wait.left rest
        else (d, none)
    else (d, none)

/-- The loop of a planner that has the store and the queues to itself. -/
def Desk.run (d : Desk) (left : List Event) (rounds : List Round) : Desk × Option Fault :=
  d.runAmong left (rounds.map (·, id))

end TerrainStream.Residency
