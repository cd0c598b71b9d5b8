import Mathlib.Data.List.Induction
import TerrainStream.Proofs.Pipeline.Draining
import TerrainStream.Proofs.Residency.Clearance
import TerrainStream.Proofs.Residency.Vacancy

/-! Reclamation over whole runs. The moments of a run tell how the references on each cell come and go, and what
they tell decides which cells a pass removes. -/

namespace TerrainStream

open Cell Store Shape Collision Build Residency Physics World

variable {σ ω : Type}

namespace Pipeline

open Ledger

/-- The desk of the next pass when it is about to sweep. -/
def sweeping (p : Pipeline σ ω) : Option Desk := p.unsettled.map Desk.activate

/-- What the next pass tells of cells and their references. -/
def told (p : Pipeline σ ω) : List Moment :=
  p.planner.elim [] fun planner => ((p.desk planner).opened p.batch.length).telling p.batch p.poses.sample

/-- What some moves tell of cells and their references. -/
def history [Simulation σ] [Supplier ω] (p : Pipeline σ ω) : List (Move ω) → List Moment
  | [] => []
  | .pass :: rest => p.told ++ history p.pass.1 rest
  | other :: rest => history (p.move other) rest

section Histories

variable [Simulation σ] [Supplier ω]

theorem history_append (p : Pipeline σ ω) (before after : List (Move ω)) :
    p.history (before ++ after) = p.history before ++ (p.run before).history after := by
  induction before generalizing p with
  | nil => rfl
  | cons m before ih =>
    cases m with
    | pass => exact (congrArg (p.told ++ ·) (ih p.pass.1)).trans (List.append_assoc _ _ _).symm
    | _ => exact ih _

theorem history_pass (p : Pipeline σ ω) (moves : List (Move ω)) :
    p.history (moves ++ [.pass]) = p.history moves ++ (p.run moves).told := by
  rw [history_append, history, history, List.append_nil]

theorem history_other (p : Pipeline σ ω) (moves : List (Move ω)) {m : Move ω} (other : m ≠ .pass) :
    p.history (moves ++ [m]) = p.history moves := by
  have silent : (p.run moves).history [m] = [] := by
    cases m with
    | pass => exact absurd rfl other
    | _ => rfl
  rw [history_append, silent, List.append_nil]

end Histories

/-- The next pass removes a cell that is there when it sweeps. -/
structure Removes (p : Pipeline σ ω) (d : Desk) (key : Key) : Prop where
  swept : d ∈ p.sweeping
  there : d.store.contains key = true
  gone : p.pass.1.store.contains key = false

/-- After the next pass the slot of a cell is free, and its shape, if it had one, is ordered out of the simulation. -/
def Clears (p : Pipeline σ ω) (d : Desk) (key : Key) : Prop :=
  ∃ i slot sent, d.store.live? i = some slot ∧ slot.key = key ∧ i ∈ p.pass.1.store.free ∧
    p.pass.1.commands.letters.toList = p.commands.letters.toList ++ sent ∧
    ∀ handle, slot.shape = some handle → .remove key handle ∈ sent

/-- In the pass of some moment, or in a later one, a cell has been removed and cleared away. -/
def Departed [Simulation σ] [Supplier ω] (start : Pipeline σ ω) (moves : List (Move ω)) (key : Key) (m : Moment) :
    Prop :=
  ∃ earlier d, (earlier ++ [.pass]) <+: moves ∧ m.pass ≤ d.planner.passes ∧ (start.run earlier).Removes d key ∧
    (start.run earlier).Clears d key

theorem Departed.later [Simulation σ] [Supplier ω] {start : Pipeline σ ω} {moves more : List (Move ω)} {key : Key}
    {m : Moment} (departed : start.Departed moves key m) : start.Departed (moves ++ more) key m := by
  obtain ⟨earlier, d, part, since, cleared⟩ := departed
  exact ⟨earlier, d, part.trans (List.prefix_append _ _), since, cleared⟩

variable {p : Pipeline σ ω} {planner : Planner} {d ready applied followed : Desk} {key : Key} {grace : Nat}
  {departed : Moment → Prop} {past : List Moment}

/-- Up to the sweep of the next pass nothing but commands is added to their queue. -/
private theorem swept_sends (orderly : followed.Orderly p.jobs)
    (applying : ((p.desk planner).opened p.batch.length).applyEvents p.batch = .ok applied)
    (following : applied.followAll p.poses.sample = .ok followed) :
    ∃ sent, followed.activate.commands.letters.toList = p.commands.letters.toList ++ sent := by
  have heard := (Desk.applyEvents_counted ((p.desk planner).opened p.batch.length) p.batch).quiet.1
  have gone := (Desk.followAll_counted applied p.poses.sample).quiet.1
  rw [applying] at heard
  rw [following] at gone
  have same : followed.commands = p.commands := gone.trans heard
  obtain ⟨sent, letters, _⟩ := (Desk.activate_acts followed).sends orderly.commands
  exact ⟨sent, by rw [letters, same]⟩

/-- Whatever a pass removes it clears away. -/
private theorem Removes.clears (removes : p.Removes ready key) (running : p.Running planner)
    (passed : (p.desk planner).pass p.events.letters.toList p.poses.sample = .ok d) : p.Clears ready key := by
  obtain ⟨applied, followed, applying, following, unsettled, orderly, rfl⟩ := running.pass_cases passed
  have sweeping : p.sweeping = some followed.activate := by rw [Pipeline.sweeping, unsettled, Option.map_some]
  obtain rfl := Option.some.inj (sweeping.symm.trans removes.swept)
  have ends := (running.passed passed).1
  have lit := orderly.acts (Desk.activate_acts followed)
  obtain ⟨before, earlier⟩ := swept_sends orderly applying following
  obtain ⟨i, found⟩ := Option.isSome_iff_exists.mp (Std.ExtTreeMap.contains_eq_isSome_getElem?.symm.trans removes.there)
  obtain ⟨slot, living, rfl⟩ := lit.sound.lives found
  have gone := removes.gone
  obtain ⟨sound, _, sent, letters, outcome⟩ := Desk.settle_disposes lit.sound lit.commands living
  generalize followed.settle = last at *
  rw [ends] at gone
  rcases outcome with ⟨other, stays, owner, _⟩ | ⟨free, removed⟩
  · have there : last.store.contains other.key = true := by
      rw [← tenant?_isSome sound, tenant?_live sound stays]
      rfl
    rw [owner] at there
    cases there.symm.trans gone
  · refine ⟨i, slot, before ++ sent, living, rfl, ?_, ?_, fun handle owned =>
      List.mem_append_right _ (removed handle owned)⟩
    · rw [ends]
      exact free
    · rw [ends, ← List.append_assoc, ← earlier]
      exact letters

private theorem standing_there {d : Desk} (sound : d.store.Sound) (key : Key) :
    (d.standing key).slot.isSome = d.store.contains key := by
  rw [← tenant?_isSome sound]
  exact Option.isSome_map

/-- What a pass has told of a cell by the time that it sweeps, and what becomes of the cell then. -/
structure Sweeps (p : Pipeline σ ω) (grace : Nat) (key : Key) (departed : Moment → Prop) (past : List Moment)
    (ready d : Desk) : Prop where
  swept : ready ∈ p.sweeping
  sound : ready.store.Sound
  kept : p.store.contains key = true → ready.store.contains key = true
  reckoned : Reckoned grace key departed (past ++ p.told) (ready.standing key).footing
  settled : Dispatched (ready.standing key).settled (d.standing key)

/-- A pass reckons with what it tells until it sweeps. -/
private theorem Running.reckons (running : p.Running planner) (paced : Paced grace p.batch)
    (reckoned : Reckoned grace key departed past ((p.desk planner).standing key).footing)
    (passed : (p.desk planner).pass p.events.letters.toList p.poses.sample = .ok d) :
    ∃ ready, p.Sweeps grace key departed past ready d := by
  obtain ⟨applied, followed, applying, following, unsettled, orderly, rfl⟩ := running.pass_cases passed
  have sweeping : p.sweeping = some followed.activate := by rw [Pipeline.sweeping, unsettled, Option.map_some]
  have same : followed.activate.standing key = followed.standing key :=
    congrFun (Desk.activate_standing orderly.sound) key
  have opened : Reckoned grace key departed past
      (((p.desk planner).opened p.batch.length).standing key).footing := reckoned.tick
  obtain ⟨counted, kept⟩ := Desk.telling_reckons (running.orderly.opened _) paced opened applying following
  have told : p.told = ((p.desk planner).opened p.batch.length).telling p.batch p.poses.sample := by
    rw [Pipeline.told, running.present, Option.elim_some]
  have lit : followed.activate.store.Sound := (orderly.acts (Desk.activate_acts followed)).sound
  refine ⟨followed.activate, sweeping, lit, fun there => ?_, ?_, ?_⟩
  · have there : ((p.desk planner).standing key).slot.isSome = true :=
      (standing_there (d := p.desk planner) running.sound key).trans there
    rw [← standing_there lit, same]
    exact kept there
  · rw [same, told]
    exact counted
  · rw [same, Desk.closed_standing]
    exact Desk.settle_standing orderly key

section Runs

variable [Simulation σ] [Supplier ω]

/-- What the moves of a run have told of the cells' references agrees with what its planner knows. -/
structure Reclaimed (start : Pipeline σ ω) (grace : Nat) (moves : List (Move ω)) (planner : Planner) : Prop where
  running : (start.run moves).Running planner
  reckoned : ∀ key, Reckoned grace key (start.Departed moves key) (start.history moves)
    (((start.run moves).desk planner).standing key).footing

variable {start : Pipeline σ ω} {moves : List (Move ω)}

private theorem Reclaimed.passed (reclaimed : start.Reclaimed grace moves planner)
    (paced : Paced grace (start.run moves).batch)
    (passed : ((start.run moves).desk planner).pass (start.run moves).events.letters.toList
      (start.run moves).poses.sample = .ok d) :
    start.Reclaimed grace (moves ++ [.pass]) d.planner := by
  obtain ⟨ends, next⟩ := reclaimed.running.passed passed
  have last : start.run (moves ++ [.pass]) = (start.run moves).afterPass d := (run_append _ _ _).trans ends
  refine ⟨last ▸ next, fun key => ?_⟩
  rw [last, history_pass]
  obtain ⟨ready, sweeps⟩ := reclaimed.running.reckons paced (reclaimed.reckoned key) passed
  -- Only here does a cell go away, so here it is named as one that this pass has removed.
  refine sweeps.reckoned.settled sweeps.settled (fun edge departed => departed.later) fun there gone edge _ past => ?_
  have removes : (start.run moves).Removes ready key := by
    refine ⟨sweeps.swept, (standing_there sweeps.sound key).symm.trans there, ?_⟩
    rw [ends]
    exact (standing_there next.sound key).symm.trans gone
  exact ⟨moves, ready, List.prefix_rfl, past, removes, removes.clears reclaimed.running passed⟩

private theorem Reclaimed.other (reclaimed : start.Reclaimed grace moves planner) {m : Move ω} (other : m ≠ .pass) :
    start.Reclaimed grace (moves ++ [m]) planner := by
  have next := reclaimed.running.other other
  obtain ⟨_, _, works⟩ := move_works reclaimed.running.intact planner other
  have last : start.run (moves ++ [m]) = (start.run moves).move m := run_append _ _ _
  refine ⟨last ▸ next, fun key => ?_⟩
  have same : ((((start.run moves).move m).desk planner).standing key).footing =
      (((start.run moves).desk planner).standing key).footing :=
    (works.level reclaimed.running.sound).footing reclaimed.running.sound key
  rw [last, history_other start moves other, same]
  exact (reclaimed.reckoned key).imp fun edge departed => departed.later

/-- The next pass hears of no other grace period than those that have been sent. -/
private theorem Running.paced (running : start.Running planner) (empty : start.batch = [])
    (unfailing : start.Unfailing moves)
    (paced : ∀ pacing margins, .send (.configured pacing margins) ∈ moves → pacing.removalGrace = grace) :
    Paced grace (start.run moves).batch := by
  intro pacing margins listed
  rcases running.heard unfailing _ (List.mem_append_right _ listed) with early | answer | sent
  · rw [empty] at early
    cases early
  · exact answer.elim
  · exact paced pacing margins sent

end Runs

end Pipeline

end TerrainStream
