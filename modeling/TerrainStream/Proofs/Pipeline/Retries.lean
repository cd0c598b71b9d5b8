import TerrainStream.Proofs.Pipeline.Edits

/-! Claims that the world could not supply. Word of one has the cell tried again after a while, and nothing short
of another such word puts that off; but a cell that holds a full build is not claimed for it. -/

namespace TerrainStream

open Cell Store Shape Collision Build Residency Physics World

variable {σ ω : Type}

/-- The cell that an event says the world lacks: it has let go of it, or it had no snapshot of it. -/
def Residency.Event.lacking? : Event → Option Key
  | .cellUnloaded key | .snapshotUnavailable key => some key
  | _ => none

namespace Residency.Standing

variable {s s' : Standing} {due : Nat} {key : Key}

/-- A cell in the course of a pass that is to be tried again, if that is not due already. -/
structure Awaiting (now due : Nat) (s : Standing) : Prop where
  tidy : s.Tidy
  time : s.now = now
  retry : now ≤ due → s.retry = some due

theorem Awaiting.stir {now : Nat} (awaiting : s.Awaiting now due) (stir : Stir s s') : s'.Awaiting now due := by
  obtain ⟨tidy, time, retry⟩ := awaiting
  refine ⟨stir.tidy tidy, ?_, ?_⟩ <;> cases stir <;> cases there : s.slot <;>
    grind [take, drop, invalidate, renew, remind, welcome, claim]

/-- Nothing puts a retry off but word that the world lacks the cell. -/
theorem awaiting_persists (now due : Nat) (key : Key) :
    Persists key fun events s => (∀ e ∈ events, e.lacking? ≠ some key) ∧ s.Awaiting now due where
  unloaded := fun _ _ ⟨quiet, _⟩ => absurd rfl (quiet _ List.mem_cons_self)
  unavailable := fun _ _ ⟨quiet, _⟩ => absurd rfl (quiet _ List.mem_cons_self)
  configured := fun _ _ _ _ ⟨quiet, tidy, time, retry⟩ =>
    ⟨fun e listed => quiet e (List.mem_cons_of_mem _ listed), tidy, time, retry⟩
  other := fun _ _ _ _ _ ⟨quiet, awaiting⟩ => ⟨fun e listed => quiet e (List.mem_cons_of_mem _ listed), awaiting⟩
  stir := fun _ _ _ stir ⟨quiet, awaiting⟩ => ⟨quiet, awaiting.stir stir⟩

/-- A claim is out on the cell, or the cell has a full build. -/
def Served (s : Standing) : Prop :=
  ∃ slot, s.slot = some slot ∧ (slot.stage.isInFlight = true ∨ slot.stage = .ready ∧ slot.placeholder = false)

/-- A retry waits until it is due, and serves the cell then if somebody needs it. -/
theorem Awaiting.settled {now : Nat} (awaiting : s.Awaiting now due) (dispatched : Dispatched s.settled s')
    (held : 0 < s'.refs) (present : ∀ slot, s'.slot = some slot → slot.stage ≠ .removing) :
    s'.now = now ∧ (now < due → s'.retry = some due) ∧ (now = due → s'.Served) := by
  obtain ⟨tidy, rfl, retry⟩ := awaiting
  have swept : (s.swept.slot = none ∨ s.swept.retry = s.retry) ∧ s.swept.now = s.now := by
    cases there : s.slot <;> grind [Standing.swept, expire]
  have resumed : (s.swept.resumed.slot = none ∨ s.swept.resumed.retry = s.retry) ∧ s.swept.resumed.now = s.now := by
    generalize s.swept = s at swept
    cases there : s.slot <;> grind [Standing.resumed, reconsider, claim]
  have tidy := tidy.swept.resumed
  obtain ⟨waiting, queued, rfl, _⟩ := dispatched
  obtain ⟨resumed, same⟩ := resumed
  rw [← same] at retry ⊢
  unfold Standing.settled at *
  generalize s.swept.resumed = s at *
  cases there : s.slot with
  | none => grind [Standing.shed, Standing.retried, giveUp, renew, claim, refs]
  | some slot =>
    have awaits := resumed.resolve_left (by simp [there])
    cases stage : slot.stage <;>
      grind [Tidy, Served, Standing.shed, Standing.retried, giveUp, renew, claim, claimable, refs, Slot.lacksBuild,
        Stage.acceptsClaim, Stage.isInFlight]

/-- Word that the world lacks a cell that is needed has the cell tried again after a while. -/
theorem retry_hears {e : Event} (hears : Hears key e s s') (word : e.lacking? = some key) (held : 0 < s.refs) :
    s'.retry = some (passAfter s.now s.pacing.retryAfter) ∧ s'.now = s.now := by
  cases hears with
  | unloaded => cases there : s.slot <;> grind [unload, giveUp, postpone, refs]
  | unavailable => exact ⟨rfl, rfl⟩
  | configured => cases word
  | other loaded available => cases e <;> simp_all [Event.lacking?]

end Residency.Standing

namespace Pipeline

open Ledger Journal Standing

variable {p start : Pipeline σ ω} {planner : Planner} {c : Chronicle} {d middle : Desk} {key : Key} {now due : Nat}
  {earlier later : List Event} {candid : Prop} {e : Event}

/-- What a cell that is to be tried again comes to in a pass. -/
private theorem pass_awaiting (running : p.Running planner) (provided : (p.journal planner [] [] c).Provided candid)
    (passed : (p.desk planner).pass p.events.letters.toList p.poses.sample = .ok d)
    (batch : p.batch = earlier ++ later)
    (reached : ((p.desk planner).opened p.batch.length).applyEvents earlier = .ok middle)
    (quiet : ∀ e ∈ later, e.lacking? ≠ some key) (awaiting : (middle.standing key).Awaiting now due)
    (held : 0 < d.store.refsOf key) :
    d.planner.passes = now ∧ (now < due → d.planner.retry[key]? = some due) ∧ (now = due → (d.standing key).Served) := by
  have present := (pass_provided running provided passed key).present
  rw [running.batch] at batch reached
  obtain ⟨_, s, ⟨_, kept⟩, dispatched⟩ :=
    Desk.pass_keeps (awaiting_persists now due key) running.orderly passed batch reached ⟨quiet, awaiting⟩
  rw [← Desk.standing_refs] at held
  exact kept.settled dispatched held present

/-- A pass keeps a cell listed until its retry is due, if no word of it comes in, and serves it then. -/
private theorem pass_listed (running : p.Running planner) (provided : (p.journal planner [] [] c).Provided candid)
    (passed : (p.desk planner).pass p.events.letters.toList p.poses.sample = .ok d)
    (listed : planner.passes < due → planner.retry[key]? = some due) (quiet : ∀ e ∈ p.batch, e.lacking? ≠ some key)
    (held : 0 < d.store.refsOf key) :
    (d.planner.passes < due → d.planner.retry[key]? = some due) ∧
      (d.planner.passes = due → (d.standing key).Served) := by
  obtain ⟨passes, waits, serves⟩ := pass_awaiting running provided passed (List.nil_append _).symm rfl quiet
    ⟨(running.orderly.opened _).tidy key, rfl, fun soon => listed (Nat.lt_of_succ_le soon)⟩ held
  rw [passes]
  exact ⟨waits, serves⟩

/-- Word that the world lacks a cell that is needed has a pass list the cell, to be tried again after a while. -/
private theorem pass_told (running : p.Running planner) (provided : (p.journal planner [] [] c).Provided candid)
    (passed : (p.desk planner).pass p.events.letters.toList p.poses.sample = .ok d)
    (batch : p.batch = earlier ++ e :: later)
    (reached : ((p.desk planner).opened p.batch.length).applyEvents earlier = .ok middle)
    (word : e.lacking? = some key) (needed : 0 < middle.store.refsOf key)
    (quiet : ∀ e ∈ later, e.lacking? ≠ some key) (held : 0 < d.store.refsOf key) :
    let due := passAfter middle.planner.passes middle.planner.pacing.retryAfter
    (d.planner.passes < due → d.planner.retry[key]? = some due) ∧
      (d.planner.passes = due → (d.standing key).Served) := by
  intro due
  have orderly := (running.orderly.opened p.batch.length).attempt (Desk.applyEvents_counted _ earlier) reached
  obtain ⟨edited, applied⟩ : ∃ edited, middle.applyEvent e = .ok edited := by
    cases e <;> first | exact ⟨_, rfl⟩ | cases word
  have tidy := (orderly.attempt (Desk.applyEvent_counted middle e) applied).tidy key
  rw [← Desk.standing_refs] at needed
  obtain ⟨retry, time⟩ := retry_hears (Desk.applyEvent_hears orderly.sound orderly.filed applied key) word needed
  have reaching := Desk.applyEvents_append.mpr ⟨middle, reached, Desk.applyEvents_single.mpr applied⟩
  obtain ⟨passes, waits, serves⟩ := pass_awaiting running provided passed (by rw [batch, List.append_cons]) reaching
    quiet ⟨tidy, time, fun _ => retry⟩ held
  rw [passes]
  exact ⟨waits, serves⟩

/-- Whether a cell has a full build and no claim out. -/
def full (p : Pipeline σ ω) (key : Key) : Bool :=
  (p.store.tenant? key).any fun slot => slot.stage = .ready && !slot.placeholder

private theorem served_cases (store : p.store = d.store) (served : (d.standing key).Served) :
    p.claimed key = true ∨ p.full key = true := by
  obtain ⟨slot, there, situation⟩ := served
  obtain ⟨tenant, held, rfl⟩ := Option.map_eq_some_iff.mp there
  simp only [claimed, full, store, held, Option.any_some]
  exact situation.imp id fun lit => by simp_all [Slot.dark]

variable [Simulation σ] [Supplier ω]

/-- A cell stays listed until its retry is due, if it stays referenced and no word of it comes in. -/
theorem Running.awaits (running : p.Running planner) (provided : (p.journal planner [] [] c).Provided (Candid ω))
    (listed : planner.passes < due → planner.retry[key]? = some due) {moves : List (Move ω)}
    (unfailing : p.Unfailing moves) (quiet : ∀ e ∈ p.applied moves, e.lacking? ≠ some key)
    (held : p.Throughout (fun p m => 0 < (p.move m).store.refsOf key) moves) :
    ∃ planner, (p.run moves).Running planner ∧ ((p.run moves).journal planner [] [] c).Provided (Candid ω) ∧
      (planner.passes < due → planner.retry[key]? = some due) := by
  induction moves generalizing p planner with
  | nil => exact ⟨planner, running, provided, listed⟩
  | cons m moves ih =>
    obtain ⟨passes, unfailing⟩ := unfailing_cons.mp unfailing
    obtain ⟨needed, held⟩ := held
    rcases running.move_cases passes with ⟨d, rfl, passed, ends, next⟩ | ⟨other, next⟩
    · have quiet : (∀ e ∈ p.batch, e.lacking? ≠ some key) ∧ ∀ e ∈ p.pass.1.applied moves, e.lacking? ≠ some key :=
        List.forall_mem_append.mp quiet
      rw [ends] at needed
      exact ih (ends ▸ next) (ends ▸ pass_provided running provided passed)
        (pass_listed running provided passed listed quiet.1 needed).1 unfailing quiet.2 held
    · rw [applied_other other] at quiet
      exact ih next (move_provided running provided other) listed unfailing quiet held

/-- In the pass in which its retry is due, a cell that stays referenced is served. -/
private theorem Running.tried_again (running : p.Running planner)
    (provided : (p.journal planner [] [] c).Provided (Candid ω))
    (listed : planner.passes < due → planner.retry[key]? = some due) {rest : List (Move ω)}
    (unfailing : p.Unfailing (rest ++ [.pass])) (quiet : ∀ e ∈ p.applied (rest ++ [.pass]), e.lacking? ≠ some key)
    (held : p.Throughout (fun p m => 0 < (p.move m).store.refsOf key) (rest ++ [.pass]))
    (time : (p.run (rest ++ [.pass])).planner.map (·.passes) = some due) :
    (p.run (rest ++ [.pass])).claimed key = true ∨ (p.run (rest ++ [.pass])).full key = true := by
  obtain ⟨unfailing, last⟩ := unfailing_append.mp unfailing
  obtain ⟨held, needed, _⟩ := throughout_append.mp held
  rw [applied_append] at quiet
  obtain ⟨quiet, still⟩ := List.forall_mem_append.mp quiet
  obtain ⟨planner, running, provided, listed⟩ := running.awaits provided listed unfailing quiet held
  have final : p.run (rest ++ [.pass]) = (p.run rest).move .pass := run_append ..
  rcases running.move_cases (unfailing_cons.mp last).1 with ⟨d, _, passed, left, _⟩ | ⟨other, _⟩
  · rw [final, left] at time ⊢
    rw [left] at needed
    have quiet : ∀ e ∈ (p.run rest).batch, e.lacking? ≠ some key := fun e member => still e (List.mem_append_left _ member)
    exact served_cases rfl ((pass_listed running provided passed listed quiet needed).2 (Option.some.inj time))
  · exact absurd rfl other

/-- A cell that the world could not supply is tried again when it said it would be. Take a pass that has word of
it while the cell is needed, and suppose that this is the last such word and that the cell stays referenced. In
the pass in which the retry is due the cell is claimed, unless a claim is out on it or it has a full build then;
so a cell that had none has been claimed since. -/
theorem lacking_cells_are_tried_again (grid : Grid) (initial most : Nat) (pacing : Pacing) (margins : Margins)
    (builder : Builder) (world : ω) (sim : σ) (before between : List (Move ω)) (earlier later : List Event)
    (e : Event) (key : Key) :
    let start := new grid (Store.ofLimits initial most) pacing margins builder world sim
    let moves := before ++ .pass :: between
    let p := start.run moves
    start.Unfailing moves → (start.run before).batch = earlier ++ e :: later → e.lacking? = some key →
    (∀ e ∈ later ++ ((start.run before).move .pass).applied between, e.lacking? ≠ some key) →
    (∃ d ∈ (start.run before).midway earlier, 0 < d.store.refsOf key ∧
      p.planner.map (·.passes) = some (passAfter d.planner.passes d.planner.pacing.retryAfter)) →
    (start.run before).Throughout (fun p m => 0 < (p.move m).store.refsOf key) (.pass :: between) →
    (.pass :: between).getLast? = some .pass →
    p.claimed key = true ∨ p.full key = true := by
  intro start moves p unfailing batch word quiet reached held ends
  obtain ⟨middle, reached, needed, due⟩ := reached
  obtain ⟨past, unfailing⟩ := unfailing_append.mp unfailing
  obtain ⟨passes, unfailing⟩ := unfailing_cons.mp unfailing
  obtain ⟨quietLater, quiet⟩ := List.forall_mem_append.mp quiet
  obtain ⟨still, held⟩ := held
  obtain ⟨planner, running, provided⟩ := (new_running grid initial most pacing margins builder world sim).provided
    (new_provided grid initial most pacing margins builder world sim Chronicle.blank) past
  have final : p = ((start.run before).move .pass).run between := run_append ..
  rcases running.move_cases passes with ⟨d, _, passed, left, next⟩ | ⟨other, _⟩
  · rw [left] at final unfailing quiet still held
    obtain ⟨waits, serves⟩ := pass_told running provided passed batch (running.midway reached) word needed quietLater still
    have provided := pass_provided running provided passed
    rcases List.eq_nil_or_concat' between with rfl | ⟨rest, last, rfl⟩
    · rw [final] at due ⊢
      exact served_cases rfl (serves (Option.some.inj due))
    · rw [← List.cons_append, List.getLast?_concat] at ends
      obtain rfl : last = .pass := Option.some.inj ends
      rw [final] at due ⊢
      exact next.tried_again provided waits unfailing quiet held due
  · exact absurd rfl other

/-- A cell that is requested while its ground is unloaded is built once it has been tried again. -/
theorem lacking_cells_are_tried_again_unloaded :
    let start := small Scene.empty
    let before := [.world (start.world.unload ⟨0⟩), .send (.requested ⟨0⟩), .pass, .supply 1]
    let between := [.world start.world, .pass, .pass, .pass, .pass]
    let moves := before ++ .pass :: between
    let batch := (start.run before).batch
    let p := start.run moves
    start.Unfailing moves ∧
      (∃ e, batch = batch.take 0 ++ e :: batch.drop 1 ∧ e.lacking? = some ⟨0⟩) ∧
      (∀ e ∈ batch.drop 1 ++ ((start.run before).move .pass).applied between, e.lacking? ≠ some ⟨0⟩) ∧
      (∃ d ∈ (start.run before).midway (batch.take 0), 0 < d.store.refsOf ⟨0⟩ ∧
        p.planner.map (·.passes) = some (passAfter d.planner.passes d.planner.pacing.retryAfter)) ∧
      (start.run before).Throughout (fun p m => 0 < (p.move m).store.refsOf ⟨0⟩) (.pass :: between) ∧
      (.pass :: between).getLast? = some .pass ∧ (p.claimed ⟨0⟩ = true ∨ p.full ⟨0⟩ = true) := by
  intro start before between moves batch p
  have unfailing : start.Unfailing moves := by decide +kernel
  obtain ⟨e, split, word⟩ := Event.split (show batch[0]?.bind (·.lacking?) = some ⟨0⟩ by decide +kernel)
  have quiet : ∀ e ∈ batch.drop 1 ++ ((start.run before).move .pass).applied between, e.lacking? ≠ some ⟨0⟩ := by
    decide +kernel
  have reached : ∃ d ∈ (start.run before).midway (batch.take 0), 0 < d.store.refsOf ⟨0⟩ ∧
      p.planner.map (·.passes) = some (passAfter d.planner.passes d.planner.pacing.retryAfter) := by decide +kernel
  have held : (start.run before).Throughout (fun p m => 0 < (p.move m).store.refsOf ⟨0⟩) (.pass :: between) := by
    decide +kernel
  exact ⟨unfailing, ⟨e, split, word⟩, quiet, reached, held, rfl,
    lacking_cells_are_tried_again _ _ _ _ _ _ _ _ before between _ _ e ⟨0⟩ unfailing split word quiet reached held rfl⟩

/-- A full cell that the world lacks in the middle of an edit is not tried again, and the edit is lost: nothing
is left to do when the retry was due, the cell has not been claimed since, and its build is older than the edit. -/
theorem edit_lost_with_its_claim :
    let start := small Scene.empty
    let edited := start.world.set ⟨1, 1, 1⟩ ⟨0⟩
    let before := [.send (.requested ⟨0⟩), .pass, .supply 1, .drain 1, .world (edited.unload ⟨0⟩),
      .send (.voxelEdited ⟨1, 1, 1⟩), .pass, .supply 1]
    let between := [.world edited, .pass, .pass, .pass, .pass]
    let moves := before ++ .pass :: between
    let batch := (start.run before).batch
    let p := start.run moves
    start.Unfailing moves ∧ (start.run (before.take 7)).unanswered (.supply 1) = 1 ∧
      batch[0]?.bind (·.lacking?) = some ⟨0⟩ ∧
      (∀ e ∈ batch.drop 1 ++ ((start.run before).move .pass).applied between, e.lacking? ≠ some ⟨0⟩) ∧
      (∃ d ∈ (start.run before).midway [], 0 < d.store.refsOf ⟨0⟩ ∧
        p.planner.map (·.passes) = some (passAfter d.planner.passes d.planner.pacing.retryAfter)) ∧
      (start.run before).Throughout (fun p m => 0 < (p.move m).store.refsOf ⟨0⟩) (.pass :: between) ∧
      p.Idle ∧ p.claimed ⟨0⟩ = false ∧
      (p.store.tenant? ⟨0⟩).map (·.version) = ((start.run before).store.tenant? ⟨0⟩).map (·.version) ∧
      (start.chronicle .blank moves).shows 6 ⟨0⟩ = false := by
  decide +kernel

end Pipeline

end TerrainStream
