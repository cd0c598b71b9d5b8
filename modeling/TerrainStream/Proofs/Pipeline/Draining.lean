import TerrainStream.Proofs.Pipeline.Activation
import TerrainStream.Proofs.Pipeline.Running
import TerrainStream.Proofs.Residency.Departure

/-! Everything drains. Once the last hold is released and the last body is removed, the first step gives up
what is under way, and the steps after it wait for the dates on which the cells that are left depart. -/

namespace TerrainStream

open Cell Store Shape Collision Build Residency Physics World

variable {σ ω : Type}

/-! ### Where events come from -/

namespace Pipeline

/-- Whether the letters that have come in for the planner are answers alone. -/
def Replies (p p' : Pipeline σ ω) : Prop :=
  ∀ e ∈ p'.events.letters.toList, e ∈ p.events.letters.toList ∨ e.IsAnswer

variable {p p' p'' : Pipeline σ ω} {planner : Planner}

theorem Replies.refl (p : Pipeline σ ω) : Replies p p := fun _ listed => .inl listed

theorem Replies.trans (first : Replies p p') (second : Replies p' p'') : Replies p p'' :=
  fun e listed => (second e listed).elim (first e) .inr

theorem send_letters {e other : Event} (listed : other ∈ (p.send e).events.letters.toList) :
    other ∈ p.events.letters.toList ∨ other = e := by
  unfold send Mailbox.post at listed
  split at listed
  · simpa using listed
  · exact .inl listed

private theorem send_replies {e : Event} (answer : e.IsAnswer) : Replies p (p.send e) :=
  fun _ listed => (send_letters listed).imp_right (by rintro rfl; exact answer)

private theorem submit_events (p : Pipeline σ ω) (job : Job) (lane : Lane) : (p.submit job lane).events = p.events := by
  unfold submit
  dsimp only
  split <;> rfl

theorem serve_replies [Supplier ω] (p : Pipeline σ ω) (r : Request) : Replies p (p.serve r).1 := by
  unfold serve
  split
  · exact .refl p
  · split
    · unfold excuse
      split
      · exact send_replies (p := { p with store := _ }) trivial
      · exact .refl p
    · have asked : (p.ask r.key).1.events = p.events := rfl
      split
      · rename_i next snapshot answer
        rw [answer] at asked
        intro e listed
        rw [submit_events, asked] at listed
        exact .inl listed
      · rename_i next lacking answer
        rw [answer] at asked
        intro e listed
        exact (send_letters listed).imp (fun earlier => asked ▸ earlier) (by rintro rfl; trivial)

theorem supply_replies [Supplier ω] (p : Pipeline σ ω) (most : Nat) : Replies p (p.supply most).1 := by
  have start : Replies p { p with requests := p.requests.rest most } := .refl p
  exact supply_keeps (K := fun _ p' => Replies p p') (fun p' r _ replies => replies.trans (serve_replies p' r)) most start

theorem openGate_events (p : Pipeline σ ω) : p.openGate.events = p.events :=
  openGate_keeps (K := fun _ p' => p'.events = p.events) (fun _ _ _ same => same) rfl

theorem build_events (p : Pipeline σ ω) (place : Nat) : (p.build place).events = p.events := by
  unfold build
  dsimp only
  split <;> rfl

theorem Running.received (running : p.Running planner) {d : Desk}
    (passed : (p.desk planner).pass p.events.letters.toList p.poses.sample = .ok d) : (p.afterPass d).batch = [] := by
  have taken := Desk.pass_inbox (p.desk planner) p.events.letters.toList p.poses.sample
  rw [passed] at taken
  rw [(running.passed passed).2.batch, show d.planner.inbox = [] from taken]
  rfl

variable [Simulation σ] [Supplier ω]

/-- The planner hears of nothing but what it is sent and of answers. -/
theorem move_letters (p : Pipeline σ ω) {m : Move ω} (other : m ≠ .pass) :
    ∀ e ∈ (p.move m).events.letters.toList, e ∈ p.events.letters.toList ∨ e.IsAnswer ∨ m = .send e := by
  have replied {p' : Pipeline σ ω} (replies : Replies p p') (e : Event) (listed : e ∈ p'.events.letters.toList) :
      e ∈ p.events.letters.toList ∨ e.IsAnswer ∨ m = .send e := (replies e listed).imp_right .inl
  have silent {p' : Pipeline σ ω} (same : p'.events = p.events) : Replies p p' := fun e listed => .inl (same ▸ listed)
  cases m with
  | pass => exact absurd rfl other
  | send event => exact fun e listed => (send_letters listed).imp_right (by rintro rfl; exact .inr rfl)
  | supply most => exact replied (p.supply_replies most)
  | openGate => exact replied (silent p.openGate_events)
  | build place => exact replied (silent (p.build_events place))
  | closeGate | drain | world | poses => exact replied (silent rfl)

/-- A move that is not a pass adds nothing to the next batch but answers and what it sends. -/
theorem Running.next_batch (running : p.Running planner) {m : Move ω} (other : m ≠ .pass) :
    ∀ e ∈ (p.move m).batch, e ∈ p.batch ∨ e.IsAnswer ∨ m = .send e := by
  intro e listed
  rw [(running.other other).batch] at listed
  rw [running.batch]
  rcases List.mem_append.mp listed with received | queued
  · exact .inl (List.mem_append_left _ received)
  · exact (move_letters p other e queued).imp_left (List.mem_append_right _)

/-- In a run without failures, the events that are applied, and those that are still to be, were there at the
start, or they are answers, or they have been sent. -/
theorem Running.heard (running : p.Running planner) {moves : List (Move ω)} (unfailing : p.Unfailing moves) :
    ∀ e ∈ p.applied moves ++ (p.run moves).batch, e ∈ p.batch ∨ e.IsAnswer ∨ .send e ∈ moves := by
  induction moves generalizing p planner with
  | nil => exact fun e listed => .inl listed
  | cons m moves ih =>
    obtain ⟨passes, later⟩ := unfailing_cons.mp unfailing
    intro e listed
    rcases running.move_cases passes with ⟨d, rfl, passed, ends, next⟩ | ⟨other, next⟩
    · have listed : e ∈ p.batch ++ ((p.move .pass).applied moves ++ ((p.move .pass).run moves).batch) := by
        rw [← List.append_assoc]
        exact listed
      rcases List.mem_append.mp listed with now | after
      · exact .inl now
      · rw [ends] at after later
        rcases ih next later e after with left | answer | sent
        · rw [running.received passed] at left
          cases left
        · exact .inr (.inl answer)
        · exact .inr (.inr (List.mem_cons_of_mem _ sent))
    · rw [applied_other other] at listed
      rcases ih next later e listed with left | answer | sent
      · rcases running.next_batch other e left with earlier | answer | same
        · exact .inl earlier
        · exact .inr (.inl answer)
        · exact .inr (.inr (same ▸ List.mem_cons_self))
      · exact .inr (.inl answer)
      · exact .inr (.inr (List.mem_cons_of_mem _ sent))

end Pipeline

/-! ### Dates -/

namespace Ledger

/-- What a run has of bodies and of dates, once some events have been applied. -/
structure Timely (grace : Nat) (past : List Event) (l : Ledger σ) : Prop where
  tracked : l.Tracked
  bodies : ∀ body : BodyId, (l.planner.trackers[body]?).isSome = trackedAfter past body
  dated : Paced grace past → ∀ key, (l.standing key).footing.Dated grace

variable {l l' : Ledger σ} {grace : Nat} {past : List Event}

theorem Level.footing (level : Level l l') (sound : l.store.Sound) (key : Key) :
    (l'.standing key).footing = (l.standing key).footing := by
  have here : (l'.store.tenant? key).isSome = (l.store.tenant? key).isSome := by
    rw [tenant?_isSome level.sound, tenant?_isSome sound, Store.contains, Store.contains, level.index]
  have refs := level.refs key
  rw [refsOf_tenant, refsOf_tenant] at refs
  simp only [standing, Standing.footing, Standing.of, Standing.refs, level.planner, Option.isSome_map, Option.elim_map,
    here]
  exact congrArg (Footing.mk _ _ _ · _) refs

theorem Timely.work [Simulation σ] (timely : l.Timely grace past) (work : Work l l') : l'.Timely grace past := by
  have sound := timely.tracked.carried.sound
  have level := work.level sound
  refine ⟨timely.tracked.work work, fun body => ?_, fun paced key => ?_⟩
  · rw [level.planner, timely.bodies]
  · rw [level.footing sound]
    exact timely.dated paced key

end Ledger

namespace Pipeline

open Ledger

variable {p : Pipeline σ ω} {planner : Planner} {grace : Nat} {past : List Event} {d : Desk}

theorem new_timely (grid : Grid) (initial most : Nat) (pacing : Pacing) (margins : Margins) (builder : Builder)
    (world : ω) (sim : σ) :
    ((new grid (Store.ofLimits initial most) pacing margins builder world sim).ledger
      (Planner.new grid pacing margins) [] []).Timely pacing.removalGrace [] := by
  refine ⟨new_tracked grid initial most pacing margins builder world sim, fun body => ?_,
    fun _ key => ⟨rfl, ?_, ?_⟩⟩
  · simp [ledger, Planner.new, trackedAfter]
  · have absent : (Store.ofLimits initial most).tenant? key = none := tenant?_absent (by simp [Store.ofLimits])
    intro here
    have here : ((Store.ofLimits initial most).tenant? key |>.map Slot.dark).isSome = true := here
    rw [absent] at here
    cases here
  · intro due date
    have date : (∅ : KeyMap Nat)[key]? = some due := date
    simp at date

theorem pass_timely (running : p.Running planner) (timely : (p.ledger planner [] []).Timely grace past)
    (passed : (p.desk planner).pass p.events.letters.toList p.poses.sample = .ok d) :
    ((p.afterPass d).ledger d.planner [] []).Timely grace (past ++ p.batch) := by
  rw [running.batch]
  refine ⟨(running.passed passed).2.tracked, fun body => Desk.pass_tracked running.orderly passed (timely.bodies body),
    fun paced key => ?_⟩
  have before := timely.dated (fun pacing margins listed => paced pacing margins (List.mem_append_left _ listed)) key
  obtain ⟨_, s, ⟨_, dated⟩, dispatched⟩ := Desk.pass_keeps (Standing.dated_persists grace key) running.orderly
    passed (List.nil_append _).symm rfl
    ⟨fun pacing margins listed => paced pacing margins (List.mem_append_right _ listed), before.tick⟩
  exact Standing.settled_dated dated dispatched

theorem run_timely [Simulation σ] [Supplier ω] (grid : Grid) (initial most : Nat) (pacing : Pacing) (margins : Margins)
    (builder : Builder) (world : ω) (sim : σ) {moves : List (Move ω)}
    (unfailing : (new grid (Store.ofLimits initial most) pacing margins builder world sim).Unfailing moves) :
    let start := new grid (Store.ofLimits initial most) pacing margins builder world sim
    let p := start.run moves
    ∃ planner, p.Running planner ∧ (p.ledger planner [] []).Timely pacing.removalGrace (start.applied moves) := by
  obtain ⟨planner, present, intact, timely⟩ := run_remembers (J := fun past l => l.Timely pacing.removalGrace past)
    (fun _ p planner d intact present passed timely => pass_timely ⟨intact, present, timely.tracked⟩ timely passed)
    (fun _ l l' work timely => timely.work work) (new_intact _ _ _ _ _ _ _) rfl []
    (new_timely grid initial most pacing margins builder world sim) unfailing
  exact ⟨planner, ⟨intact, present, timely.tracked⟩, timely⟩

end Pipeline

/-! ### Once everybody has gone -/

namespace Pipeline

open Ledger

/-- Without commands no build is on its way. -/
theorem Running.undelivered {p : Pipeline σ ω} {planner : Planner} (running : p.Running planner)
    (commands : p.commands.letters = #[]) {i : Nat} {slot : Slot} (living : p.store.live? i = some slot) :
    slot.stage ≠ .generating := by
  intro stage
  have delivers : (p.ledger planner [] []).delivers = [] := by
    simp [delivers, ledger, commands]
  have carried := (running.tracked.carried.generating (slot.claim i)).trans (bears_one living stage)
  rw [delivers] at carried
  cases carried

/-- Without requests, jobs and commands a cell is in flight only while its claim waits for admission. -/
theorem Running.flying {p : Pipeline σ ω} {planner : Planner} (running : p.Running planner)
    (requests : p.requests.letters = #[]) (jobs : p.jobs = []) (commands : p.commands.letters = #[]) {key : Key}
    {slot : Slot} (there : p.store.tenant? key = some slot) (flying : slot.stage.isInFlight = true) :
    ∃ r, planner.pending.get? key = some r := by
  have tracked := running.tracked
  obtain ⟨i, found, living⟩ := Option.bind_eq_some_iff.mp there
  obtain ⟨other, here, owner⟩ := running.sound.lives found
  obtain rfl : slot = other := Option.some.inj (living.symm.trans here)
  cases stage : slot.stage with
  | scheduled =>
    have waits : (p.ledger planner [] []).waits = planner.pending.toList.map (·.claim) := by
      simp [waits, ledger, requests, jobs]
    have carried := (tracked.carried.scheduled (slot.claim i)).trans (bears_one living stage)
    rw [waits] at carried
    have member : slot.claim i ∈ planner.pending.toList.map (·.claim) := List.count_pos_iff.mp (by omega)
    obtain ⟨r, listed, same⟩ := List.mem_map.mp member
    have name : r.key = key := (congrArg Claim.key same).trans owner
    exact ⟨r, name ▸ tracked.keyed.get? listed⟩
  | generating => exact absurd stage (running.undelivered commands living)
  | unloaded | ready | removing =>
    rw [stage] at flying
    cases flying

section Gone

variable [Simulation σ] [Accountable σ]

/-- Nobody needs a cell any more and no claim is made, and what is still there has a date no later than `last`. -/
structure Forlorn (p : Pipeline σ ω) (planner : Planner) (last : Nat) : Prop where
  running : p.Running planner
  tuned : (p.ledger planner [] []).Tuned
  free : ∀ key, planner.holds.contains key = false
  alone : ∀ body : BodyId, planner.trackers[body]? = none
  answers : ∀ e ∈ p.batch, e.IsAnswer
  unclaimed : ∀ key, planner.pending.get? key = none
  jobs : p.jobs = []
  dated : ∀ key, p.store.contains key = true → ∃ due, planner.leaving[key]? = some due ∧ due ≤ last

/-- And nothing is under way. -/
structure Deserted (p : Pipeline σ ω) (planner : Planner) (last : Nat) : Prop extends Forlorn p planner last where
  requests : p.requests.letters = #[]
  commands : p.commands.letters = #[]

variable {p : Pipeline σ ω} {planner : Planner} {last : Nat}

theorem Forlorn.unheld (forlorn : p.Forlorn planner last) (key : Key) : p.store.refsOf key = 0 :=
  (forlorn.tuned.refs key).trans (Desk.unheld forlorn.free forlorn.alone key)

/-- Without claims that wait, no cell is in flight either. -/
theorem Deserted.idle (deserted : p.Deserted planner last) {key : Key} {slot : Slot}
    (there : p.store.tenant? key = some slot) : slot.stage.isInFlight = false := by
  refine Bool.eq_false_iff.mpr fun flying => ?_
  obtain ⟨r, waits⟩ := deserted.running.flying deserted.requests deserted.jobs deserted.commands there flying
  cases (deserted.unclaimed key).symm.trans waits

end Gone

/-! #### Between passes -/

section Serving

variable {p : Pipeline σ ω}

private theorem refs_unheld {s : Store} (sound : s.Sound) (unheld : ∀ key, s.refsOf key = 0) (i : Nat) :
    s.refs i = 0 := by
  cases living : s.live? i with
  | none => simp [Store.refs, living]
  | some slot =>
    have counted := refsOf_live sound living
    rw [unheld] at counted
    simp [Store.refs, living, ← counted]

/-- Requests for cells that nobody needs are excused. -/
private theorem serve_unheld [Supplier ω] (sound : p.store.Sound) (unheld : ∀ key, p.store.refsOf key = 0)
    (r : Request) :
    ∃ store events, (p.serve r).1 = { p with store, events } ∧ store.outline = p.store.outline := by
  unfold serve
  split
  · exact ⟨p.store, p.events, rfl, rfl⟩
  · rw [if_pos (refs_unheld sound unheld r.index)]
    obtain ⟨events, excused, _⟩ := excuse_same p r
    exact ⟨_, events, excused, outline_abandon p.store r.index r.version⟩

private theorem supply_unheld [Supplier ω] (sound : p.store.Sound) (unheld : ∀ key, p.store.refsOf key = 0)
    (most : Nat) :
    ∃ store events, (p.supply most).1 = { p with requests := p.requests.rest most, store, events } := by
  obtain ⟨store, events, same, _⟩ := supply_keeps (K := fun _ p' => ∃ store events,
      p' = { p with requests := p.requests.rest most, store, events } ∧ store.outline = p.store.outline)
    (fun p' r _ kept => by
      obtain ⟨store, events, rfl, same⟩ := kept
      obtain ⟨store', events', served, still⟩ := serve_unheld
        (p := { p with requests := p.requests.rest most, store, events }) (sound.of_outline same)
        (fun key => ((outline_level same).1 key).trans (unheld key)) r
      exact ⟨store', events', served, still.trans same⟩)
    most ⟨p.store, p.events, rfl, rfl⟩
  exact ⟨store, events, same⟩

end Serving

variable [Simulation σ] [Accountable σ] {p : Pipeline σ ω} {planner : Planner} {last : Nat}

private theorem Forlorn.move [Supplier ω] (forlorn : p.Forlorn planner last) {m : Move ω} (other : m ≠ .pass)
    (silent : ∀ e, m ≠ .send e) (jobs : (p.move m).jobs = []) :
    (p.move m).Forlorn planner last ∧ ∀ key, (p.move m).store.contains key = p.store.contains key := by
  have next := forlorn.running.other other
  obtain ⟨_, _, works⟩ := move_works forlorn.running.intact planner other
  have index : (p.move m).store.index = p.store.index := (works.level forlorn.running.sound).index
  have same (key : Key) : (p.move m).store.contains key = p.store.contains key := congrArg (·.contains key) index
  refine ⟨⟨next, forlorn.tuned.works works, forlorn.free, forlorn.alone, fun e listed => ?_, forlorn.unclaimed, jobs,
    fun key there => forlorn.dated key (same key ▸ there)⟩, same⟩
  rcases forlorn.running.next_batch other e listed with earlier | answer | sent
  · exact forlorn.answers e earlier
  · exact answer
  · exact absurd sent (silent e)

/-- Once every queue has been worked off, nothing is under way. -/
theorem Forlorn.served [Supplier ω] (forlorn : p.Forlorn planner last) :
    let supplied := (p.supply p.requests.size).1
    let drained := (supplied.drain supplied.commands.size).1
    drained.Deserted planner last ∧ ∀ key, drained.store.contains key = p.store.contains key := by
  intro supplied drained
  obtain ⟨store, events, same⟩ := supply_unheld forlorn.running.sound forlorn.unheld p.requests.size
  have jobs : supplied.jobs = [] := by
    rw [show supplied = _ from same]
    exact forlorn.jobs
  have requests : supplied.requests.letters = #[] := by
    rw [show supplied = _ from same]
    exact Mailbox.rest_all p.requests
  obtain ⟨first, there⟩ : supplied.Forlorn planner last ∧
      ∀ key, supplied.store.contains key = p.store.contains key :=
    forlorn.move (m := .supply p.requests.size) (by simp) (by simp) jobs
  obtain ⟨second, still⟩ : drained.Forlorn planner last ∧
      ∀ key, drained.store.contains key = supplied.store.contains key :=
    first.move (m := .drain supplied.commands.size) (by simp) (by simp) jobs
  exact ⟨⟨second, requests, Mailbox.rest_all supplied.commands⟩, fun key => (still key).trans (there key)⟩

/-! #### Passes -/

/-- With nothing under way a pass removes the cells that are due, and makes no claim. -/
theorem Deserted.passes (deserted : p.Deserted planner last) :
    ∃ planner', p.pass.1.Forlorn planner' last ∧ planner'.passes = planner.passes + 1 ∧
      ∀ key, p.pass.1.store.contains key = true → planner'.passes < last := by
  have running := deserted.running
  have answers := deserted.answers
  rw [running.batch] at answers
  obtain ⟨d, passed, holds, trackers, settled⟩ := Desk.pass_answers running.orderly answers deserted.alone
    p.poses.sample
  obtain ⟨ends, next⟩ := running.passed passed
  have unheld (key : Key) (retry : Option Nat) :
      ({ (p.desk planner).standing key with now := planner.passes + 1, retry } : Standing).refs = 0 :=
    (Desk.standing_refs (p.desk planner) key).trans (deserted.unheld key)
  have clock : d.planner.passes = planner.passes + 1 := by
    obtain ⟨retry, dispatched⟩ := settled default
    exact Standing.settled_now dispatched
  have stays (key : Key) (there : d.store.contains key = true) :
      ∃ due, d.planner.leaving[key]? = some due ∧ due ≤ last ∧ d.planner.passes < due := by
    obtain ⟨retry, dispatched⟩ := settled key
    have still : (d.standing key).slot.isSome = true := by
      obtain ⟨slot, shown⟩ := Desk.standing_present next.sound there
      rw [shown]
      rfl
    have idle (slot : Slot) (shown : ((p.desk planner).standing key).slot = some slot) :
        slot.stage.isInFlight = false := by
      obtain ⟨tenant, found, rfl⟩ := Option.map_eq_some_iff.mp shown
      have settled : tenant.stage.isInFlight = false := deserted.idle found
      exact settled
    obtain ⟨here, same, future⟩ := Standing.settled_unreferenced (unheld key retry) idle dispatched still
    have here : p.store.contains key = true := by
      rw [← tenant?_isSome running.sound]
      exact Option.isSome_map.symm.trans here
    obtain ⟨due, date, soon⟩ := deserted.dated key here
    refine ⟨due, same.trans date, soon, ?_⟩
    rw [clock]
    exact future due date
  refine ⟨d.planner, ends ▸ ⟨next, pass_tuned deserted.tuned running.intact passed, fun key => ?_, fun body => ?_,
    ?_, fun key => ?_, deserted.jobs, fun key there => ?_⟩, clock, fun key there => ?_⟩
  · rw [holds]
    exact deserted.free key
  · rw [trackers]
    exact deserted.alone body
  · rw [running.received passed]
    simp
  · obtain ⟨retry, dispatched⟩ := settled key
    have waits : (d.planner.pending.get? key).isSome = false := Standing.settled_waiting (unheld key retry) dispatched
    simpa using waits
  · obtain ⟨due, date, soon, _⟩ := stays key there
    exact ⟨due, date, soon⟩
  · rw [ends] at there
    obtain ⟨due, _, soon, future⟩ := stays key there
    exact Nat.lt_of_lt_of_le future soon

variable [Supplier ω]

/-- A step leaves a cell only if its date is still to come. -/
theorem Deserted.step (deserted : p.Deserted planner last) :
    ∃ planner', p.step.1.Deserted planner' last ∧ planner'.passes = planner.passes + 1 ∧
      ∀ key, p.step.1.store.contains key = true → planner'.passes < last := by
  obtain ⟨planner', forlorn, clock, stays⟩ := deserted.passes
  obtain ⟨next, same⟩ := forlorn.served
  exact ⟨planner', next, clock, fun key there => stays key (same key ▸ there)⟩

/-- The pipeline after some whole steps. -/
def steps (p : Pipeline σ ω) : Nat → Pipeline σ ω
  | 0 => p
  | n + 1 => steps p.step.1 n

omit [Accountable σ] in
theorem steps_succ (p : Pipeline σ ω) (n : Nat) : p.steps (n + 1) = p.step.1.steps n := rfl

/-- Every step counts, and once the last date has come, no cell is left. -/
theorem Deserted.steps (deserted : p.Deserted planner last) (n : Nat) :
    ∃ planner', (p.steps (n + 1)).Deserted planner' last ∧ planner'.passes = planner.passes + (n + 1) ∧
      ∀ key, (p.steps (n + 1)).store.contains key = true → planner'.passes < last := by
  obtain ⟨middle, next, clock, stays⟩ := deserted.step
  induction n generalizing p planner middle with
  | zero => exact ⟨middle, next, clock, stays⟩
  | succ n ih =>
    obtain ⟨later, after, passes, stays⟩ := next.step
    obtain ⟨planner', ends, total, stays⟩ := ih next later after passes stays
    rw [steps_succ]
    exact ⟨planner', ends, by omega, stays⟩

omit [Supplier ω] in
/-- Without cells, nothing is left of anything. -/
theorem Deserted.bare (deserted : p.Deserted planner last) (empty : ∀ key, p.store.contains key = false) :
    p.store.isEmpty = true ∧ Accountable.holdings p.sim = [] ∧ planner.active.isEmpty = true ∧
      planner.pending.isEmpty = true := by
  have owned := deserted.tuned.owned
  have sound := deserted.running.sound
  have absent (key : Key) : p.store.index[key]? = none := by
    have none := empty key
    rwa [Store.contains, Std.ExtTreeMap.contains_eq_isSome_getElem?, Option.isSome_eq_false_iff,
      Option.isNone_iff_eq_none] at none
  have tenants : p.store.tenants = [] := by
    rw [List.eq_nil_iff_forall_not_mem]
    intro slot tenant
    obtain ⟨i, living⟩ := mem_tenants.mp tenant
    cases (absent slot.key).symm.trans (sound.indexed living)
  have handles : Accountable.handles p.sim = [] := by
    have shapes : (p.ledger planner [] []).shapes = [] := by
      simp [Ledger.shapes, Store.shapes, ledger, tenants, deserted.commands]
    exact List.perm_nil.mp (shapes ▸ owned.held)
  refine ⟨Table.isEmpty_bare absent, List.map_eq_nil_iff.mp handles, ?_, Table.isEmpty_bare deserted.unclaimed⟩
  rw [← Std.ExtTreeSet.isEmpty_toList, Table.listed_bare fun key => ?_]
  · rfl
  · have wanted : planner.active.contains key = planner.wanted.contains key := deserted.tuned.wanted key
    rw [wanted, Bool.eq_false_iff, ne_eq, Planner.wanted_iff]
    rintro ⟨body, tracker, found, _⟩
    cases (deserted.alone body).symm.trans found

omit [Supplier ω] in
/-- The first pass that comes after the last farewell. -/
private theorem first_pass {grace : Nat} {past : List Event} {d : Desk} (running : p.Running planner)
    (tuned : (p.ledger planner [] []).Tuned) (even : (p.ledger planner [] []).Even past)
    (timely : (p.ledger planner [] []).Timely grace past)
    (free : ∀ key, heldAfter (past ++ p.batch) key = false)
    (alone : ∀ body, trackedAfter (past ++ p.batch) body = false)
    (paced : Paced grace (past ++ p.batch))
    (jobs : p.jobs = []) (passed : (p.desk planner).pass p.events.letters.toList p.poses.sample = .ok d) :
    (p.afterPass d).Forlorn d.planner (d.planner.passes + grace) := by
  obtain ⟨ends, next⟩ := running.passed passed
  have later := pass_timely running timely passed
  have holding := pass_even even running.present passed
  have tuned := pass_tuned tuned running.intact passed
  have unheld (key : Key) : d.planner.holds.contains key = false := (holding.held key).trans (free key)
  have untracked (body : BodyId) : d.planner.trackers[body]? = none := by
    have known := later.bodies body
    rw [alone, Option.isSome_eq_false_iff, Option.isNone_iff_eq_none] at known
    exact known
  have unneeded (key : Key) : (d.standing key).refs = 0 :=
    (Desk.standing_refs d key).trans ((tuned.refs key).trans (Desk.unheld unheld untracked key))
  refine ⟨next, tuned, unheld, untracked, ?_, fun key => ?_, jobs, fun key there => ?_⟩
  · rw [running.received passed]
    simp
  · have waits : (d.planner.pending.get? key).isSome = false := Desk.pass_waiting running.orderly passed (unneeded key)
    simpa using waits
  · have dated := later.dated paced key
    have here : (d.standing key).slot.isSome = true := by
      obtain ⟨slot, shown⟩ := Desk.standing_present next.sound there
      rw [shown]
      rfl
    obtain ⟨due, date⟩ := Option.isSome_iff_exists.mp (dated.listed here (unneeded key))
    exact ⟨due, date, dated.soon due date⟩

/-- Whole steps drain a pipeline for which no event that is still to come holds a cell or tracks a body. -/
private theorem Running.drains {grace : Nat} {past : List Event} (running : p.Running planner)
    (tuned : (p.ledger planner [] []).Tuned) (even : (p.ledger planner [] []).Even past)
    (timely : (p.ledger planner [] []).Timely grace past)
    (free : ∀ key, heldAfter (past ++ p.batch) key = false)
    (alone : ∀ body, trackedAfter (past ++ p.batch) body = false)
    (paced : Paced grace (past ++ p.batch))
    (jobs : p.jobs = []) (room : (∃ key, .requested key ∈ p.batch) → ∃ report, p.pass.2 = some (.ok report)) :
    let r := p.steps (max grace 1 + 1)
    r.store.isEmpty = true ∧ Accountable.holdings r.sim = [] ∧
      ∃ planner, r.planner = some planner ∧ planner.active.isEmpty = true ∧ planner.pending.isEmpty = true := by
  intro r
  obtain ⟨d, passed⟩ : ∃ d, (p.desk planner).pass p.events.letters.toList p.poses.sample = .ok d := by
    by_cases asked : ∃ key, .requested key ∈ p.batch
    · obtain ⟨report, answer⟩ := room asked
      obtain ⟨d, passed, _⟩ := pass_answer running.present answer
      exact ⟨d, passed⟩
    · rw [running.batch] at asked alone
      exact Desk.pass_succeeds running.orderly timely.bodies (fun key listed => asked ⟨key, listed⟩) alone
  have forlorn := first_pass running tuned even timely free alone paced jobs passed
  rw [← (running.passed passed).1] at forlorn
  have deserted : p.step.1.Deserted d.planner (d.planner.passes + grace) := forlorn.served.1
  obtain ⟨n, count⟩ : ∃ n, max grace 1 = n + 1 := ⟨max grace 1 - 1, by omega⟩
  obtain ⟨planner', next, clock, stays⟩ := deserted.steps n
  have ends : r = p.step.1.steps (n + 1) := by rw [← count]; rfl
  rw [ends]
  obtain ⟨empty, shapeless, inactive, unclaimed⟩ := next.bare fun key => by
    refine Bool.eq_false_iff.mpr fun there => ?_
    have early := stays key there
    omega
  exact ⟨empty, shapeless, planner', next.running.present, inactive, unclaimed⟩

omit [Accountable σ] in
/-- Sending lengthens the queue, and does nothing else. -/
private theorem run_sends (intact : p.Intact) (farewell : List Event) :
    ∃ events, p.run (farewell.map .send) = { p with events } ∧
      events.letters.toList = p.events.letters.toList ++ farewell := by
  induction farewell generalizing p with
  | nil => exact ⟨p.events, rfl, (List.append_nil _).symm⟩
  | cons e farewell ih =>
    have ⟨there, ready, requests, commands, quiet⟩ := intact
    have sent : (p.send e).Intact := ⟨there, (Mailbox.post_isOpen _ _).trans ready, requests, commands, quiet⟩
    obtain ⟨events, same, letters⟩ := ih sent
    refine ⟨events, same, ?_⟩
    rw [letters, send, Mailbox.post_letters ready, List.append_assoc]
    rfl

omit [Accountable σ] in
private theorem sends_quiet (p : Pipeline σ ω) (farewell : List Event) :
    p.Unfailing (farewell.map .send) ∧ p.applied (farewell.map .send) = [] := by
  induction farewell generalizing p with
  | nil => exact ⟨trivial, rfl⟩
  | cons e farewell ih => exact ih (p.send e)

/-- In a run without failures, let a hold be released for every cell that was ever requested, and let every body
that was ever added be removed. When no job waits, whole steps drain the pipeline, as many as the grace period
has passes, or one if it has none, and one more: the store is empty then, the simulation holds no shape, and
the planner has nothing active and nothing pending. The first pass is to have room for the requests that are
still on their way, if there are any. -/
theorem everything_drains (grid : Grid) (initial most : Nat) (pacing : Pacing) (margins : Margins) (builder : Builder)
    (world : ω) {sim : σ} (valid : Accountable.proper sim) (bare : Accountable.holdings sim = []) (moves : List (Move ω))
    (unfailing : (new grid (Store.ofLimits initial most) pacing margins builder world sim).Unfailing moves)
    (paced : ∀ pacing' margins', .send (.configured pacing' margins') ∈ moves → pacing'.removalGrace = pacing.removalGrace)
    (farewell : List Event) (parting : ∀ e ∈ farewell, (∃ key, e = .released key) ∨ ∃ body, e = .bodyRemoved body)
    (released : ∀ key, .send (.requested key) ∈ moves → .released key ∈ farewell)
    (removed : ∀ body, .send (.bodyAdded body) ∈ moves → .bodyRemoved body ∈ farewell) :
    let start := new grid (Store.ofLimits initial most) pacing margins builder world sim
    let p := start.run moves
    let q := p.run (farewell.map .send)
    p.jobs = [] → ((∃ key, .requested key ∈ q.batch) → ∃ report, q.pass.2 = some (.ok report)) →
      let r := q.steps (max pacing.removalGrace 1 + 1)
      r.store.isEmpty = true ∧ Accountable.holdings r.sim = [] ∧
        ∃ planner, r.planner = some planner ∧ planner.active.isEmpty = true ∧ planner.pending.isEmpty = true := by
  intro start p q jobs room r
  have ⟨quiet, silent⟩ := sends_quiet p farewell
  have unfailing' := unfailing_append.mpr ⟨unfailing, quiet⟩
  obtain ⟨planner, running, timely⟩ := run_timely grid initial most pacing margins builder world sim unfailing'
  obtain ⟨_, present, _, even⟩ := run_even grid initial most pacing margins builder world sim unfailing'
  obtain rfl := Option.some.inj (running.present.symm.trans present)
  obtain ⟨_, present, tuned⟩ := run_tuned grid initial most pacing margins builder world valid bare unfailing'
  obtain rfl := Option.some.inj (running.present.symm.trans present)
  rw [run_append] at running timely even tuned
  rw [applied_append, silent, List.append_nil] at timely even
  obtain ⟨_, _, intact, _⟩ := run_even grid initial most pacing margins builder world sim unfailing
  obtain ⟨events, same, letters⟩ := run_sends intact farewell
  have batch : q.batch = p.batch ++ farewell := by
    rw [show q = { p with events } from same, Pipeline.batch, letters, ← List.append_assoc]
    rfl
  have idle : q.jobs = [] := by
    rw [show q = { p with events } from same]
    exact jobs
  have heard := (new_running grid initial most pacing margins builder world sim).heard unfailing
  have sent {e : Event} (listed : e ∈ start.applied moves ++ p.batch) : e.IsAnswer ∨ .send e ∈ moves :=
    (heard e listed).resolve_left List.not_mem_nil
  have told : start.applied moves ++ q.batch = start.applied moves ++ p.batch ++ farewell := by
    rw [batch, List.append_assoc]
  refine running.drains tuned even timely (fun key => ?_) (fun body => ?_) (fun pacing' margins' listed => ?_) idle room
  · rw [told]
    refine heldAfter_farewell (fun e listed => ?_) fun listed => ?_
    · rcases parting e listed with ⟨_, rfl⟩ | ⟨_, rfl⟩ <;> simp
    · exact released key ((sent listed).resolve_left id)
  · rw [told]
    refine trackedAfter_farewell (fun e listed => ?_) fun listed => ?_
    · rcases parting e listed with ⟨_, rfl⟩ | ⟨_, rfl⟩ <;> simp
    · exact removed body ((sent listed).resolve_left id)
  · rw [told] at listed
    rcases List.mem_append.mp listed with earlier | last
    · exact paced pacing' margins' ((sent earlier).resolve_left id)
    · rcases parting _ last with ⟨_, same⟩ | ⟨_, same⟩ <;> cases same

/-- A cell that is being built, a cell that waits for the world and a body that has just come are gone two steps
after they were given up. -/
theorem everything_drains_midway :
    let start := small Scene.empty
    let moves := [.send (.requested ⟨0⟩), .pass, .supply 1, .send (.requested ⟨1⟩), .pass, .send (.bodyAdded 3)]
    let farewell := [.released ⟨1⟩, .bodyRemoved 3, .released ⟨0⟩]
    let p := start.run moves
    let q := p.run (farewell.map .send)
    start.Unfailing moves ∧ p.jobs = [] ∧ p.commands.size = 1 ∧ p.requests.size = 1 ∧
      ∃ planner, (q.steps 2).planner = some planner ∧ (q.steps 2).store.isEmpty = true ∧
        planner.pending.isEmpty = true := by
  intro start moves farewell p q
  have unfailing : start.Unfailing moves := by decide +kernel
  have idle : p.jobs = [] := by decide +kernel
  have room : q.Unfailing [.pass] := by decide +kernel
  obtain ⟨empty, _, planner, present, _, unclaimed⟩ := everything_drains _ _ _ _ _ _ _ Scene.numbered_empty rfl moves
    unfailing (by simp [moves]) farewell (by simp [farewell]) (by simp [moves, farewell]) (by simp [moves, farewell]) idle
    fun _ => room.1
  exact ⟨unfailing, idle, by decide +kernel, by decide +kernel, planner, present, empty, unclaimed⟩

/-- A full store that is asked for one more cell keeps what it has: the pass that finds no room for the request fails,
and what is given up behind the request is never heard of. -/
theorem full_store_is_not_drained :
    let pacing := { Pacing.standard with snapshotsPerPass := 0 }
    let start := new (Grid.ofSize 2) (Store.ofLimits 1 1) pacing Margins.standard (merge (limitOf usualLimit))
      (Ground.ofTerrain (.floor ⟨Grid.ofSize 2, 1, ∅⟩)) Scene.empty
    let crowd := (List.range 64).map fun i => Coord.key ⟨i, 0, 5⟩
    let last := Coord.key ⟨64, 0, 5⟩
    let moves := crowd.map (fun key => .send (.requested key)) ++ [.pass, .send (.requested last)]
    let farewell := (crowd ++ [last]).map .released
    let p := start.run moves
    let q := p.run (farewell.map .send)
    start.Unfailing moves ∧ (∀ pacing margins, .send (.configured pacing margins) ∉ moves) ∧
      (∀ e ∈ farewell, ∃ key, e = .released key) ∧
      (∀ key, .send (.requested key) ∈ moves → .released key ∈ farewell) ∧ (∀ body, .send (.bodyAdded body) ∉ moves) ∧
      p.jobs = [] ∧ (q.steps (max pacing.removalGrace 1 + 1)).store.size = 64 := by
  intro pacing start crowd last moves farewell p q
  have unfailing : start.Unfailing moves := by decide +kernel
  have idle : p.jobs = [] := by decide +kernel
  have full : (q.steps (max pacing.removalGrace 1 + 1)).store.size = 64 := by decide +kernel
  have parting : ∀ e ∈ farewell, ∃ key, e = .released key := List.forall_mem_map.mpr fun key _ => ⟨key, rfl⟩
  exact ⟨unfailing, by simp [moves], parting, fun key asked => by simpa [moves, farewell] using asked, by simp [moves],
    idle, full⟩

end Pipeline

end TerrainStream
