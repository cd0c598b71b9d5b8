import Mathlib.Algebra.Order.Floor.Div
import TerrainStream.Proofs.Pipeline.Admission
import TerrainStream.Proofs.Residency.Respite

/-! Whole steps, one after another. With the gate open and a world that answers, a step completes the requests that
it admits and no others, so that whatever waits is worked off at the pace of the budget. -/

namespace TerrainStream

open Cell Store Shape Collision Build Residency Physics World

variable {σ ω : Type}

/-- One thing that happens to a pipeline that works in whole steps. -/
inductive Turn (ω : Type)
  | send (event : Event)
  | world (world : ω)
  | poses (poses : PoseBoard)
  | step

namespace Turn

/-- Whether nothing is sent and no body moves. -/
def IsIdle : Turn ω → Prop
  | .send _ | .poses _ => False
  | .world _ | .step => True

/-- The number of steps among some turns. -/
def steps : List (Turn ω) → Nat
  | [] => 0
  | .step :: rest => steps rest + 1
  | _ :: rest => steps rest

end Turn

namespace Journal

open Ledger

variable {j j' : Journal σ} {date : Nat} {claim : Claim}

/-- Whether the build for a claim is on its way or has been installed, from the snapshot of this date. -/
def Pledges (date : Nat) (claim : Claim) (j : Journal σ) : Prop :=
  ∃ slot, j.ledger.store.live? claim.index = some slot ∧ slot.claim claim.index = claim ∧
    (slot.stage = .generating ∧ j.chronicle.taken claim = some date ∨
      slot.stage = .ready ∧ j.chronicle.built claim.key = some date)

/-- Whatever is installed, the builds of other claims are left to themselves. -/
private theorem Landing.pledges [Simulation σ] (landing : Landing j j') (tracked : j.ledger.Tracked)
    (pledges : j.Pledges date claim) : j'.Pledges date claim := by
  cases landing with
  | other => exact pledges
  | install taken found stage current =>
    rename_i d commands slot
    obtain ⟨own, living, borne, state⟩ := pledges
    by_cases here : d.index = claim.index
    · rw [here] at found current
      obtain rfl : slot = own := Option.some.inj (found.symm.trans living)
      have same : d.claim = claim := current.symm.trans borne
      have taken : j.chronicle.taken claim = some date := by
        rcases state with ⟨_, taken⟩ | ⟨done, _⟩
        · exact taken
        · cases done.symm.trans stage
      dsimp only
      rw [here, same]
      exact ⟨_, live?_put_self _ found rfl, borne, .inr ⟨rfl, (if_pos rfl).trans taken⟩⟩
    · have apart : claim.key ≠ d.claim.key := fun same => here <|
        tracked.carried.sound.alone found living <|
          (congrArg Claim.key current).trans (same.symm.trans (congrArg Claim.key borne).symm)
      refine ⟨own, ?_, borne, state.imp_right fun ⟨done, built⟩ => ⟨done, (if_neg apart).trans built⟩⟩
      refine (live?_put found (by rfl)).trans ?_
      rwa [if_neg here]

end Journal

namespace Pipeline

open Ledger Journal

section Turns

variable [Simulation σ] [Supplier ω]

/-- Whether the world supplies every snapshot that the next step asks for. -/
def IsAnswered (p : Pipeline σ ω) : Prop := p.step.2.2.1.unavailable = 0

/-- Whether the next step goes through: its pass succeeds, and the world supplies every snapshot. -/
def GoesThrough (p : Pipeline σ ω) : Prop := (∃ report, p.step.2.1 = some (.ok report)) ∧ p.IsAnswered

instance (p : Pipeline σ ω) : Decidable p.IsAnswered := inferInstanceAs (Decidable (_ = 0))

instance (p : Pipeline σ ω) : Decidable p.GoesThrough :=
  decidable_of_iff (p.step.2.1.any (·.toBool) = true ∧ p.IsAnswered) (and_congr_left' answered)

def turn (p : Pipeline σ ω) : Turn ω → Pipeline σ ω
  | .send event => p.send event
  | .world world => { p with world }
  | .poses poses => { p with poses }
  | .step => p.step.1

def turns (p : Pipeline σ ω) (taken : List (Turn ω)) : Pipeline σ ω := taken.foldl turn p

/-- Whether every step among some turns, made where it is made, is of a kind. -/
def StepsAll (kind : Pipeline σ ω → Prop) (p : Pipeline σ ω) : List (Turn ω) → Prop
  | [] => True
  | .step :: rest => kind p ∧ StepsAll kind p.step.1 rest
  | other :: rest => StepsAll kind (p.turn other) rest

instance decideStepsAll (kind : Pipeline σ ω → Prop) [∀ p, Decidable (kind p)] (p : Pipeline σ ω) :
    (taken : List (Turn ω)) → Decidable (p.StepsAll kind taken)
  | [] => .isTrue trivial
  | .step :: rest =>
    have := decideStepsAll kind p.step.1 rest
    inferInstanceAs (Decidable (kind p ∧ p.step.1.StepsAll kind rest))
  | .send event :: rest => decideStepsAll kind (p.turn (.send event)) rest
  | .world world :: rest => decideStepsAll kind (p.turn (.world world)) rest
  | .poses poses :: rest => decideStepsAll kind (p.turn (.poses poses)) rest

/-- The three moves that the next step is made of. -/
def stepMoves (p : Pipeline σ ω) : List (Move ω) :=
  let passed := p.pass.1
  let supplied := (passed.supply passed.requests.size).1
  [.pass, .supply passed.requests.size, .drain supplied.commands.size]

end Turns

/-! ### Serving -/

section Serving

variable {p p' : Pipeline σ ω} {planner : Planner} {taken : List Request} {r : Request} {c c' : Chronicle}

/-- With the gate open, a request that is needed and answered is built where it stands. -/
private theorem serve_builds [Supplier ω] (intact : p.Intact) (gate : p.parked = none)
    (tracked : (p.ledger planner (r :: taken) []).Tracked) (needed : p.store.refs r.index ≠ 0)
    (answered : (p.serve r).2.unavailable = 0) :
    ∃ slot scratch commands world lanes outcomes, p.store.live? r.index = some slot ∧ slot.stage = .scheduled ∧
      slot.claim r.index = r.claim ∧ (p.serve r).1 = { p with
        store := p.store.put r.index { slot with stage := .generating }
        scratch, commands, world, lanes, outcomes } ∧ p.noteServe c r = c.snap r.claim := by
  rcases serve_cases intact tracked with ⟨free, _⟩ | ⟨_, world, snapshot, _, served⟩ | ⟨_, world, e, _, served⟩
  · exact absurd free needed
  · have begun : (p.serve r).1 = ({ p with world, lanes := p.lanes.push (r.key, laneOf r) } : Pipeline σ ω).runJob
        ⟨r.key, r.index, r.version, r.initial, snapshot⟩ := by
      rw [served, submit]
      simp only [gate]
    have noted : p.noteServe c r = c.snap r.claim := by
      rw [noteServe, served, if_pos rfl]
    rcases runJob_cases ({ p with world, lanes := p.lanes.push (r.key, laneOf r) } : Pipeline σ ω)
      intact.interludes ⟨r.key, r.index, r.version, r.initial, snapshot⟩ with
      ⟨spent, _⟩ | ⟨slot, shape, placeholder, scratch, outcomes, found, stage, current, _, same⟩
    · exact absurd spent (tracked.carried.borne_waiting (mem_waits_next rfl))
    · exact ⟨slot, scratch, _, world, _, outcomes, found, stage, current, begun.trans same, noted⟩
  · rw [served] at answered
    cases answered

/-- What serving requests comes to while the gate is open and every request is needed and answered. -/
structure Served (p p' : Pipeline σ ω) (c c' : Chronicle) (taken : List Request) : Prop where
  alone : ∃ store scratch commands world lanes outcomes,
    p' = { p with store, scratch, commands, world, lanes, outcomes }
  now : c'.now = c.now
  refs : ∀ i, p'.store.refs i = p.store.refs i
  /-- What has been built stays on its way, with the date of its snapshot. -/
  kept : ∀ i slot, p.store.live? i = some slot → slot.stage = .generating → p'.store.live? i = some slot
  dated : ∀ claim, c.taken claim = some c.now → c'.taken claim = some c.now
  built : ∀ r ∈ taken, ∃ slot, p'.store.live? r.index = some slot ∧ slot.stage = .generating ∧
    slot.claim r.index = r.claim ∧ c'.taken r.claim = some c.now

private theorem Served.refl (p : Pipeline σ ω) (c : Chronicle) : Served p p c c [] :=
  ⟨⟨_, _, _, _, _, _, rfl⟩, rfl, fun _ => rfl, fun _ _ found _ => found, fun _ date => date,
    fun _ none => absurd none List.not_mem_nil⟩

private theorem Served.trans {p'' : Pipeline σ ω} {c'' : Chronicle} {taken' : List Request}
    (first : Served p p' c c' taken) (second : Served p' p'' c' c'' taken') : Served p p'' c c'' (taken ++ taken') := by
  obtain ⟨⟨_, _, _, _, _, _, alone⟩, now, refs, kept, dated, built⟩ := first
  obtain ⟨⟨_, _, _, _, _, _, alone'⟩, now', refs', kept', dated', built'⟩ := second
  rw [now] at now' dated' built'
  refine ⟨⟨_, _, _, _, _, _, by rw [alone', alone]⟩, now', fun i => (refs' i).trans (refs i),
    fun i slot found flying => kept' i slot (kept i slot found flying) flying,
    fun claim date => dated' claim (dated claim date), fun r listed => ?_⟩
  rcases List.mem_append.mp listed with early | late
  · obtain ⟨slot, found, stage, borne, date⟩ := built r early
    exact ⟨slot, kept' _ slot found stage, stage, borne, dated' _ date⟩
  · exact built' r late

private theorem serve_served [Supplier ω] (intact : p.Intact) (gate : p.parked = none)
    (tracked : (p.ledger planner (r :: taken) []).Tracked) (needed : p.store.refs r.index ≠ 0)
    (answered : (p.serve r).2.unavailable = 0) : Served p (p.serve r).1 c (p.noteServe c r) [r] := by
  obtain ⟨slot, scratch, commands, world, lanes, outcomes, found, stage, current, served, noted⟩ :=
    serve_builds (c := c) intact gate tracked needed answered
  rw [served, noted]
  have sees (i : Nat) : (p.store.put r.index { slot with stage := .generating }).live? i =
      if r.index = i then some { slot with stage := .generating } else p.store.live? i := live?_put found rfl
  refine ⟨⟨_, _, _, _, _, _, rfl⟩, rfl, fun i => ?_, fun i other living flying => ?_, fun claim date => ?_,
    fun other listed => ?_⟩
  · simp only [Store.refs, sees]
    split
    · rename_i here
      rw [← here, found]
      rfl
    · rfl
  · refine (sees i).trans ((if_neg ?_).trans living)
    rintro rfl
    rw [found] at living
    cases living
    cases stage.symm.trans flying
  · simp only [Chronicle.snap, date, ite_self]
  · obtain rfl : other = r := List.mem_singleton.mp listed
    exact ⟨_, (sees _).trans (if_pos rfl), rfl, current, if_pos rfl⟩

private theorem serveAll_served [Simulation σ] [Supplier ω] (intact : p.Intact) (gate : p.parked = none)
    (tally : SupplyTally) (tracked : (p.ledger planner taken []).Tracked)
    (needed : ∀ r ∈ taken, p.store.refs r.index ≠ 0) (answered : (serveAll p tally taken).2.unavailable = 0) :
    Served p (serveAll p tally taken).1 c (p.noteSupply c taken) taken := by
  induction taken generalizing p tally c with
  | nil => exact .refl p c
  | cons r taken ih =>
    have granted : (p.serve r).2.unavailable = 0 := by
      have most := unavailable_le (p.serve r).1 (tally + (p.serve r).2) taken
      have sum : (tally + (p.serve r).2).unavailable = tally.unavailable + (p.serve r).2.unavailable := rfl
      rw [serveAll_cons] at answered
      omega
    have first : Served p (p.serve r).1 c (p.noteServe c r) [r] :=
      serve_served intact gate tracked (needed r List.mem_cons_self) granted
    obtain ⟨kept, _, works⟩ := serve_works intact planner taken r
    have ajar : (p.serve r).1.parked = none := by
      obtain ⟨_, _, _, _, _, _, same⟩ := first.alone
      rw [same]
      exact gate
    refine first.trans (ih kept ajar _ (tracked.works works) (fun other listed => ?_) answered)
    rw [first.refs]
    exact needed other (List.mem_cons_of_mem _ listed)

/-- Supplying everything that is queued serves every request. -/
private theorem supply_served [Simulation σ] [Supplier ω] (intact : p.Intact) (gate : p.parked = none)
    (tracked : (p.ledger planner [] []).Tracked) (held : ∀ r ∈ p.requests.letters.toList, p.store.refs r.index ≠ 0)
    (answered : (p.supply p.requests.size).2.unavailable = 0) :
    Served { p with requests := p.requests.rest p.requests.size } (p.supply p.requests.size).1 c
      (p.note c (.supply p.requests.size)) p.requests.letters.toList := by
  have ⟨there, events, requests, commands, quiet⟩ := intact
  have kept : ({ p with requests := p.requests.rest p.requests.size } : Pipeline σ ω).Intact :=
    ⟨there, events, requests, commands, quiet⟩
  rw [p.ledger_taken planner p.requests.size] at tracked
  rw [← Mailbox.firsts_all] at held ⊢
  exact serveAll_served kept gate SupplyTally.zero tracked held answered

end Serving

/-! ### Between steps -/

/-- A pipeline that works in whole steps, with these requests on their way to the world. -/
structure Stepping (p : Pipeline σ ω) (planner : Planner) (admitted : List Request) : Prop where
  running : p.Running planner
  gate : p.parked = none
  queue : p.requests.letters.toList = admitted
  /-- Whatever waits for admission is needed, and so is what has been admitted. -/
  needed : ∀ key, (planner.pending.get? key).isSome → p.store.refsOf key ≠ 0
  held : ∀ r ∈ admitted, p.store.refs r.index ≠ 0

/-- And between two steps nothing is on its way. -/
structure InStep (p : Pipeline σ ω) (planner : Planner) : Prop extends Stepping p planner [] where
  commands : p.commands.letters = #[]

section Steps

variable {p : Pipeline σ ω} {planner : Planner} {admitted : List Request} {budget count : Nat}

/-- Between steps a cell is in flight only while its claim waits for admission. -/
theorem InStep.waits (inStep : p.InStep planner) {key : Key} {slot : Slot} (there : p.store.tenant? key = some slot)
    (flying : slot.stage.isInFlight = true) : ∃ r, planner.pending.get? key = some r := by
  have jobs : p.jobs = [] := by
    rw [Pipeline.jobs, inStep.gate]
    rfl
  exact inStep.running.flying (Array.toList_eq_nil_iff.mp inStep.queue) jobs inStep.commands there flying

/-- Without commands, a build that was on its way has been installed. -/
private theorem Running.installed (running : p.Running planner) (commands : p.commands.letters = #[]) {c : Chronicle}
    {date : Nat} {claim : Claim} (pledges : (p.journal planner [] [] c).Pledges date claim) :
    ∃ slot, p.store.live? claim.index = some slot ∧ slot.claim claim.index = claim ∧ slot.stage = .ready ∧
      c.built claim.key = some date := by
  obtain ⟨slot, living, borne, ⟨stage, _⟩ | ⟨stage, built⟩⟩ := pledges
  · exact absurd stage (running.undelivered commands living)
  · exact ⟨slot, living, borne, stage, built⟩

/-- With the bodies at rest, a pass finds exactly the requests that wait before it. -/
private theorem InStep.rests (inStep : p.InStep planner) (quiet : p.batch = []) (caughtUp : planner.IsCaughtUp)
    (rests : planner.Rests p.poses.sample) :
    ∃ d, (p.desk planner).pass p.events.letters.toList p.poses.sample = .ok d ∧ ∃ ready, p.poised = some ready ∧
      ready.planner.pacing = planner.pacing ∧
      ∀ key, (ready.planner.pending.get? key).isSome = (planner.pending.get? key).isSome := by
  have running := inStep.running
  have silent : planner.inbox ++ p.events.letters.toList = [] := running.batch ▸ quiet
  obtain ⟨d, passed⟩ := Desk.pass_succeeds_resting (d := p.desk planner) silent rests
  obtain ⟨applied, followed, applying, following, unsettled, _⟩ := running.pass_cases passed
  rw [quiet] at applying
  obtain rfl : (p.desk planner).opened 0 = applied := Except.ok.inj applying
  have still : ((p.desk planner).opened 0).followAll p.poses.sample = .ok ((p.desk planner).opened 0) :=
    Desk.followAll_rests rests
  obtain rfl : (p.desk planner).opened 0 = followed := Except.ok.inj (still.symm.trans following)
  refine ⟨d, passed, _, by rw [poised, unsettled, Option.map_some], ?_, fun key => ?_⟩
  · exact (Desk.tuning_of_allotment (Desk.gathered_allotment _)).2.1
  · rw [Desk.gathered_waits (running.orderly.opened 0) caughtUp key]
    change ((planner.pending.get? key).isSome && decide (p.store.refsOf key ≠ 0)) = (planner.pending.get? key).isSome
    cases waits : (planner.pending.get? key).isSome with
    | false => rfl
    | true => exact decide_eq_true (inStep.needed key waits)

/-- A pass that succeeds between steps puts on their way what it admits, and nothing else. -/
private theorem InStep.passes (inStep : p.InStep planner) {d : Desk}
    (passed : (p.desk planner).pass p.events.letters.toList p.poses.sample = .ok d) :
    ∃ ready ∈ p.poised, ready.requests.size = 0 ∧ d.planner.pacing = ready.planner.pacing ∧ ∃ admitted,
      (p.afterPass d).Stepping d.planner admitted ∧
      (p.afterPass d).Admits ready.planner.pacing.snapshotsPerPass ready d.report admitted ∧
      d.planner.pending.size = ready.planner.pending.size - admitted.length := by
  obtain ⟨_, next⟩ := inStep.running.passed passed
  obtain ⟨ready, poised, requests, store, pace, admitted, admits, size⟩ := inStep.running.admits passed
  have idle : ready.requests.letters.toList = [] := requests ▸ inStep.queue
  have needed {key : Key} {r : Request} (waits : ready.planner.pending.get? key = some r) :
      ∃ slot, ready.store.live? r.index = some slot ∧ slot.key = r.key ∧ 0 < slot.refs := by
    obtain ⟨followed, _, rfl⟩ := Option.map_eq_some_iff.mp poised
    exact Desk.gathered_needed followed waits
  refine ⟨ready, poised, ?_, pace, admitted, ⟨next, inStep.gate, ?_, fun key waits => ?_, fun r taken => ?_⟩, admits,
    size⟩
  · rw [Mailbox.size, ← Array.length_toList, idle, List.length_nil]
  · exact admits.appended.trans (by rw [idle, List.nil_append])
  · obtain ⟨r, waits⟩ := Option.isSome_iff_exists.mp waits
    have name : r.key = key := next.tracked.keyed key r waits
    have before : d.planner.pending.get? key = _ := admits.others key
    rw [waits] at before
    split at before
    · cases before
    · obtain ⟨slot, living, owner, held⟩ := needed before.symm
      rw [← store] at living
      have counted : d.store.refsOf slot.key = slot.refs := refsOf_live next.sound living
      rw [owner, name] at counted
      exact fun free => Nat.ne_of_gt held (counted.symm.trans free)
  · obtain ⟨slot, living, _, held⟩ := admits.needed r taken
    rw [Store.refs, living]
    exact Nat.ne_of_gt held

/-- A pipeline between whole steps of which nothing is asked any more: its next pass hears of nothing, has nothing to
come back to, succeeds, and finds no more requests to admit from than are counted here. -/
structure Lull (p : Pipeline σ ω) (planner : Planner) (budget count : Nat) : Prop extends InStep p planner where
  quiet : p.batch = []
  caughtUp : planner.IsCaughtUp
  succeeds : ∃ d, (p.desk planner).pass p.events.letters.toList p.poses.sample = .ok d
  finds : ∀ ready ∈ p.poised, ready.planner.pacing.snapshotsPerPass = budget ∧ ready.planner.pending.size ≤ count

/-- In the end nothing waits, so that nothing is in flight. -/
private theorem Lull.idle (lull : p.Lull planner budget 0) (rests : planner.Rests p.poses.sample) {key : Key}
    {slot : Slot} (there : p.store.tenant? key = some slot) : slot.stage.isInFlight = false := by
  refine Bool.eq_false_iff.mpr fun flying => ?_
  obtain ⟨r, waiting⟩ := lull.waits there flying
  obtain ⟨_, _, ready, poised, _, waits⟩ := lull.toInStep.rests lull.quiet lull.caughtUp rests
  have none := (lull.finds ready poised).2
  have empty : ready.planner.pending.byKey.isEmpty = true := by
    rw [Std.ExtTreeMap.isEmpty_eq_size_beq_zero]
    exact beq_iff_eq.mpr (Nat.le_zero.mp none)
  have found := waits key
  rw [waiting, Backlog.get?, Table.bare_isEmpty empty key] at found
  cases found

private theorem new_inStep (grid : Grid) (initial most : Nat) (pacing : Pacing) (margins : Margins) (builder : Builder)
    (world : ω) (sim : σ) :
    (new grid (Store.ofLimits initial most) pacing margins builder world sim).InStep
      (Planner.new grid pacing margins) := by
  refine ⟨⟨new_running grid initial most pacing margins builder world sim, rfl, rfl, fun key waits => ?_,
    fun _ none => absurd none List.not_mem_nil⟩, rfl⟩
  simp [Planner.new, Backlog.empty, Backlog.get?] at waits

variable [Simulation σ] [Supplier ω]

/-! ### Whole steps -/

/-- Once both queues have been worked off, every request that was on its way has led to a build, from a snapshot
taken meanwhile, and nothing has been heard of. -/
private theorem Stepping.completes (stepping : p.Stepping planner admitted)
    (answered : (p.supply p.requests.size).2.unavailable = 0) :
    let supplied := (p.supply p.requests.size).1
    let drained := (supplied.drain supplied.commands.size).1
    drained.InStep planner ∧ drained.poses = p.poses ∧ drained.batch = p.batch ∧
    ∀ r ∈ admitted, ∃ slot, drained.store.tenant? r.key = some slot ∧ slot.stage = .ready ∧
      slot.version = r.version ∧ ∀ c : Chronicle,
        (p.chronicle c [.supply p.requests.size, .drain supplied.commands.size]).built r.key = some c.now := by
  intro supplied drained
  obtain ⟨running, gate, rfl, needed, held⟩ := stepping
  have served (c : Chronicle) := supply_served (c := c) running.intact gate running.tracked held answered
  obtain ⟨store, scratch, commands, world, lanes, outcomes, same⟩ := (served .blank).alone
  have supplying : supplied.Running planner := running.other (m := .supply p.requests.size) (by simp)
  have draining : drained.Running planner := supplying.other (m := .drain supplied.commands.size) (by simp)
  have refs (key : Key) : drained.store.refsOf key = p.store.refsOf key := by
    obtain ⟨_, _, first⟩ := supply_works running.intact planner p.requests.size
    obtain ⟨_, _, second⟩ := drain_works supplying.intact planner supplied.commands.size
    exact (Works.level (first.trans second) running.sound).refs key
  have empty : drained.commands.letters = #[] := Mailbox.rest_all supplied.commands
  refine ⟨⟨⟨draining, ?_, ?_, fun key waits => ?_, fun _ none => absurd none List.not_mem_nil⟩, empty⟩, ?_, ?_,
    fun r listed => ?_⟩
  · change supplied.parked = none
    rw [show supplied = _ from same]
    exact gate
  · change supplied.requests.letters.toList = []
    rw [show supplied = _ from same, Mailbox.rest_all]
  · rw [refs]
    exact needed key waits
  · change supplied.poses = p.poses
    rw [show supplied = _ from same]
  · change supplied.batch = p.batch
    rw [show supplied = _ from same]
    rfl
  · -- Whatever chronicle is kept, the build goes in that the snapshot of this step has led to.
    have ends (c : Chronicle) : ∃ slot, drained.store.live? r.index = some slot ∧ slot.claim r.index = r.claim ∧
        slot.stage = .ready ∧
        (p.chronicle c [.supply p.requests.size, .drain supplied.commands.size]).built r.key = some c.now := by
      obtain ⟨slot, living, stage, borne, taken⟩ := (served c).built r listed
      have pledges : (supplied.journal planner [] []
          { p.note c (.supply p.requests.size) with now := c.now + 1 }).Pledges c.now r.claim :=
        ⟨slot, living, borne, .inl ⟨stage, taken⟩⟩
      exact draining.installed empty <| Landings.keep (fun _ _ landing tracked => landing.pledges tracked)
        (drain_landings supplying.intact supplying.tracked supplied.commands.size) supplying.tracked pledges
    obtain ⟨slot, living, borne, stage, _⟩ := ends .blank
    have owner : slot.key = r.key := congrArg Claim.key borne
    refine ⟨slot, owner ▸ tenant?_live draining.sound living, stage, congrArg Claim.version borne, fun c => ?_⟩
    obtain ⟨_, _, _, _, built⟩ := ends c
    exact built

/-- What a whole step comes to. From the desk at which its pass admits, it takes as many of the requests that wait as
the budget allows, and completes them; the others wait on, and nothing else is in flight. -/
structure Completes (p : Pipeline σ ω) (ready : Desk) (admitted : List Request) (after : Planner) : Prop where
  present : p.step.1.planner = some after
  number : admitted.length = min ready.planner.pacing.snapshotsPerPass ready.planner.pending.size
  counted : ∃ report, p.step.2.1 = some (.ok report) ∧ report.admitted = admitted.length
  waited : ∀ r ∈ admitted, ready.planner.pending.get? r.key = some r
  apart : admitted.Nodup
  /-- What is admitted is built from a snapshot that the second move of the step has taken. -/
  built : ∀ r ∈ admitted, ∃ slot, p.step.1.store.tenant? r.key = some slot ∧ slot.stage = .ready ∧
    slot.version = r.version ∧ ∀ c : Chronicle, (p.chronicle c p.stepMoves).built r.key = some (c.now + 1)
  others : ∀ key, after.pending.get? key =
    if key ∈ admitted.map (·.key) then none else ready.planner.pending.get? key
  left : after.pending.size = ready.planner.pending.size - admitted.length
  scheduled : ∀ key r, after.pending.get? key = some r → ∃ slot, p.step.1.store.tenant? key = some slot ∧
    slot.stage = .scheduled ∧ slot.version = r.version
  flying : ∀ key slot, p.step.1.store.tenant? key = some slot → slot.stage.isInFlight = true →
    ∃ r, after.pending.get? key = some r

/-- A step that goes through completes what it admits, and leaves the pipeline as it is between steps. -/
private theorem InStep.step (inStep : p.InStep planner) (through : p.GoesThrough) :
    ∃ d, (p.desk planner).pass p.events.letters.toList p.poses.sample = .ok d ∧ p.step.1.InStep d.planner ∧
      p.step.1.poses = p.poses ∧ p.step.1.batch = [] ∧ ∃ ready ∈ p.poised,
      d.planner.pacing = ready.planner.pacing ∧ ∃ admitted, p.Completes ready admitted d.planner := by
  obtain ⟨⟨report, answer⟩, answered⟩ := through
  obtain ⟨d, passed, rfl⟩ := pass_answer inStep.running.present answer
  obtain ⟨ends, _⟩ := inStep.running.passed passed
  obtain ⟨ready, poised, idle, pace, admitted, stepping, admits, size⟩ := inStep.passes passed
  obtain ⟨between, poses, batch, built⟩ := (ends ▸ stepping : p.pass.1.Stepping d.planner admitted).completes answered
  refine ⟨d, passed, between, ?_, ?_, ready, poised, pace, admitted, between.running.present, ?_,
    ⟨d.report, answer, admits.counted⟩, admits.waited, ?_, fun r taken => ?_, admits.others, size,
    fun key r waits => ?_, fun key slot there flying => between.waits there flying⟩
  · exact poses.trans (by rw [ends]; rfl)
  · exact batch.trans (by rw [ends]; exact inStep.running.received passed)
  · rw [admits.number, idle, Nat.sub_zero]
  · refine admits.ranked.imp ?_
    rintro a _ outranks rfl
    simp [Request.outranks_iff] at outranks
  · obtain ⟨slot, there, stage, version, dated⟩ := built r taken
    exact ⟨slot, there, stage, version, fun c => dated { p.note c .pass with now := c.now + 1 }⟩
  · obtain ⟨slot, living, stage, owner, version⟩ := between.running.tracked.filed waits
    exact ⟨slot, owner ▸ tenant?_live between.running.sound living, stage, version⟩

/-- Neither events nor poses nor the world make a difference between steps. -/
private theorem InStep.other (inStep : p.InStep planner) {t : Turn ω} (other : t ≠ .step) :
    (p.turn t).InStep planner := by
  have ⟨⟨running, gate, queue, needed, held⟩, commands⟩ := inStep
  cases t with
  | send event => exact ⟨⟨running.other (m := .send event) (by simp), gate, queue, needed, held⟩, commands⟩
  | world world => exact ⟨⟨running.other (m := .world world) (by simp), gate, queue, needed, held⟩, commands⟩
  | poses poses => exact ⟨⟨running.other (m := .poses poses) (by simp), gate, queue, needed, held⟩, commands⟩
  | step => exact absurd rfl other

theorem stepsAll_cons {kind : Pipeline σ ω → Prop} {t : Turn ω} {rest : List (Turn ω)} :
    p.StepsAll kind (t :: rest) ↔ (t = .step → kind p) ∧ (p.turn t).StepsAll kind rest := by
  cases t <;> simp [StepsAll, Pipeline.turn]

/-- As long as every step goes through, the pipeline is found as it is between steps. -/
private theorem InStep.turns (inStep : p.InStep planner) {taken : List (Turn ω)}
    (through : p.StepsAll GoesThrough taken) : ∃ planner, (p.turns taken).InStep planner := by
  induction taken generalizing p planner with
  | nil => exact ⟨planner, inStep⟩
  | cons t taken ih =>
    obtain ⟨here, later⟩ := stepsAll_cons.mp through
    by_cases stepping : t = .step
    · subst stepping
      obtain ⟨d, _, next, _⟩ := inStep.step (here rfl)
      exact ih next later
    · exact ih (inStep.other stepping) later

/-! ### While nothing comes -/

variable {later : List (Turn ω)}

/-- Every step of a lull goes through, works off a budget of what waits, and leaves the bodies at rest. -/
private theorem Lull.step (lull : p.Lull planner budget count) (answered : p.IsAnswered) :
    p.GoesThrough ∧ ∃ planner', p.step.1.Lull planner' budget (count - budget) ∧
      planner'.Rests p.step.1.poses.sample := by
  have running := lull.running
  obtain ⟨d, passed⟩ := lull.succeeds
  have answer : p.step.2.1 = some (.ok d.report) := by
    change p.pass.2 = _
    simp only [pass, running.present, passWith, passed]
  have through : p.GoesThrough := ⟨⟨d.report, answer⟩, answered⟩
  obtain ⟨same, passed', next, poses, quiet, ready, poised, pace, admitted, completes⟩ := lull.toInStep.step through
  obtain rfl : d = same := Except.ok.inj (passed.symm.trans passed')
  have silent : planner.inbox ++ p.events.letters.toList = [] := running.batch ▸ lull.quiet
  obtain ⟨caughtUp, rests⟩ := Desk.pass_caughtUp running.orderly lull.caughtUp silent passed
  rw [← poses] at rests
  obtain ⟨budgeted, most⟩ := lull.finds ready poised
  have left := completes.left
  have number := completes.number
  -- From here on the bodies rest, so that the next pass finds what this step has left.
  obtain ⟨d', succeeds, ready', poised', pace', waits⟩ := next.rests quiet caughtUp rests
  refine ⟨through, d.planner, ⟨next, quiet, caughtUp, ⟨d', succeeds⟩, fun found there => ?_⟩, rests⟩
  obtain rfl : ready' = found := Option.some.inj (poised'.symm.trans there)
  have fewer : ready'.planner.pending.size ≤ d.planner.pending.size :=
    Table.size_le fun key there => (waits key).symm.trans there
  refine ⟨by rw [pace', pace, budgeted], ?_⟩
  omega

/-- So do any number of them, whatever becomes of the world in between. -/
private theorem Lull.turns (lull : p.Lull planner budget count) (idle : ∀ t ∈ later, t.IsIdle)
    (answered : p.StepsAll IsAnswered later) : p.StepsAll GoesThrough later ∧ ∃ planner',
      (p.turns later).Lull planner' budget (count - Turn.steps later * budget) ∧
      ((Turn.steps later = 0 → planner.Rests p.poses.sample) → planner'.Rests (p.turns later).poses.sample) := by
  induction later generalizing p planner count with
  | nil =>
    refine ⟨trivial, planner, ?_, fun rests => rests rfl⟩
    rwa [Turn.steps, Nat.zero_mul, Nat.sub_zero]
  | cons t later ih =>
    have rest : ∀ t ∈ later, t.IsIdle := fun t listed => idle t (List.mem_cons_of_mem _ listed)
    cases t with
    | send => exact (idle _ List.mem_cons_self).elim
    | poses => exact (idle _ List.mem_cons_self).elim
    | world world =>
      have ⟨inStep, quiet, caughtUp, succeeds, finds⟩ := lull
      have next : (p.turn (.world world)).Lull planner budget count :=
        ⟨inStep.other (by simp), quiet, caughtUp, succeeds, finds⟩
      exact ih next rest answered
    | step =>
      obtain ⟨through, _, next, rests⟩ := lull.step answered.1
      obtain ⟨thorough, planner', ends, rested⟩ := ih next rest answered.2
      refine ⟨⟨through, thorough⟩, planner', ?_, fun _ => rested fun _ => rests⟩
      rwa [Turn.steps, Nat.succ_mul, Nat.add_comm, ← Nat.sub_sub]

/-- A whole step completes exactly what it admits. In every state that whole steps come to, whatever is sent between
them, the next step admits as many of the requests that its pass finds waiting as the budget allows. Each of them ends
in a build from a snapshot that was taken in that step, the others wait on with their claims out, and no other cell is
in flight. Hence, if no event has come and the planner has nothing to come back to, steps work off what waits a budget
at a time until no cell is in flight, as long as nothing is sent and no body moves; none of these steps fails. -/
theorem steps_complete_what_they_admit (grid : Grid) (initial most : Nat) (pacing : Pacing) (margins : Margins)
    (builder : Builder) (world : ω) (sim : σ) (earlier : List (Turn ω)) :
    let start := new grid (Store.ofLimits initial most) pacing margins builder world sim
    let p := start.turns earlier
    start.StepsAll GoesThrough earlier → p.GoesThrough →
    ∃ ready ∈ p.poised, ∃ planner after admitted, p.planner = some planner ∧ p.Completes ready admitted after ∧
      (p.batch = [] → planner.IsCaughtUp → 1 ≤ ready.planner.pacing.snapshotsPerPass →
        ∀ later, (∀ t ∈ later, t.IsIdle) → p.StepsAll IsAnswered later →
        ready.planner.pending.size ⌈/⌉ ready.planner.pacing.snapshotsPerPass ≤ Turn.steps later →
        (Turn.steps later = 0 → planner.Rests p.poses.sample) →
        p.StepsAll GoesThrough later ∧ ∀ key slot, (p.turns later).store.tenant? key = some slot →
          slot.stage.isInFlight = false) := by
  intro start p through goes
  obtain ⟨planner, inStep⟩ := (new_inStep grid initial most pacing margins builder world sim).turns through
  obtain ⟨d, passed, _, _, _, ready, poised, _, admitted, completes⟩ := inStep.step goes
  refine ⟨ready, poised, planner, d.planner, admitted, inStep.running.present, completes, ?_⟩
  intro quiet caughtUp started later idle answered enough rests
  have lull : p.Lull planner ready.planner.pacing.snapshotsPerPass ready.planner.pending.size := by
    refine ⟨inStep, quiet, caughtUp, ⟨d, passed⟩, fun found there => ?_⟩
    obtain rfl : ready = found := Option.some.inj (poised.symm.trans there)
    exact ⟨rfl, Nat.le_refl _⟩
  obtain ⟨thorough, planner', ends, rested⟩ := lull.turns idle answered
  have done : ready.planner.pending.size - Turn.steps later * ready.planner.pacing.snapshotsPerPass = 0 := by
    rw [ceilDiv_le_iff_le_mul started, Nat.mul_comm] at enough
    exact Nat.sub_eq_zero_of_le enough
  rw [done] at ends
  exact ⟨thorough, fun key slot there => ends.idle (rested rests) there⟩

end Steps

/-- A body comes to rest in a cell that is not there yet. -/
theorem steps_complete_what_they_admit_arrival :
    let start := new (Grid.ofSize 2) (Store.ofLimits 1 1) { Pacing.standard with snapshotsPerPass := 1 }
      ⟨0, 0, 0, 16, 4096⟩ (merge (limitOf usualLimit)) (Ground.ofTerrain (.floor ⟨Grid.ofSize 2, 1, ∅⟩)) Scene.empty
    let board := PoseBoard.publish ∅ 1 ⟨⟨⟨1, 1, 1⟩, ⟨1, 1, 1⟩⟩, ⟨0, 0, 0⟩⟩
    let earlier := [.send (.bodyAdded 1), .step, .poses board]
    let p := start.turns earlier
    start.StepsAll GoesThrough earlier ∧ p.GoesThrough ∧ p.batch = [] ∧ (∀ planner ∈ p.planner, planner.IsCaughtUp) ∧
    (∀ ready ∈ p.poised, ready.planner.pacing.snapshotsPerPass = 1 ∧ ready.planner.pending.size = 1) ∧
    p.StepsAll IsAnswered [.step] ∧
    (∃ ready ∈ p.poised, ∃ planner after admitted, p.planner = some planner ∧ p.Completes ready admitted after) ∧
    p.StepsAll GoesThrough [.step] ∧
    ∀ key slot, (p.turns [.step]).store.tenant? key = some slot → slot.stage.isInFlight = false := by
  intro start board earlier p
  have through : start.StepsAll GoesThrough earlier := by decide +kernel
  have goes : p.GoesThrough := by decide +kernel
  have quiet : p.batch = [] := by decide +kernel
  have caughtUp : ∀ planner ∈ p.planner, planner.IsCaughtUp := by decide +kernel
  have one : ∀ ready ∈ p.poised, ready.planner.pacing.snapshotsPerPass = 1 ∧ ready.planner.pending.size = 1 := by
    decide +kernel
  have answered : p.StepsAll IsAnswered [.step] := ⟨goes.2, trivial⟩
  have completes := steps_complete_what_they_admit (Grid.ofSize 2) 1 1 { Pacing.standard with snapshotsPerPass := 1 }
    ⟨0, 0, 0, 16, 4096⟩ (merge (limitOf usualLimit)) (Ground.ofTerrain (.floor ⟨Grid.ofSize 2, 1, ∅⟩)) Scene.empty
    earlier through goes
  -- Left as they are, the names would make the unifier run the pipeline.
  subst p start
  obtain ⟨ready, poised, planner, after, admitted, present, completed, emptied⟩ := completes
  obtain ⟨budget, count⟩ := one ready poised
  obtain ⟨thorough, idle⟩ := emptied quiet (caughtUp planner present) (Nat.le_of_eq budget.symm) [.step]
    (by simp [Turn.IsIdle]) answered (by simp [budget, count, Turn.steps]) (by simp [Turn.steps])
  exact ⟨through, goes, quiet, caughtUp, one, answered, ⟨ready, poised, planner, after, admitted, present, completed⟩,
    thorough, idle⟩

end Pipeline

end TerrainStream
