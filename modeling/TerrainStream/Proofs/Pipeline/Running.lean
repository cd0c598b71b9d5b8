import TerrainStream.Proofs.Pipeline.Journal
import TerrainStream.Proofs.Pipeline.Passage

/-! A pipeline in the course of a run in which no pass fails: what holds of it in every state, and what its
moves are made of. -/

namespace TerrainStream

open Cell Store Shape Collision Build Residency Physics World

variable {σ ω : Type}

/-- An event of a batch, with what comes before it and what comes after it. -/
theorem Residency.Event.split {α : Type} {reads : Event → Option α} {batch : List Event} {n : Nat} {a : α}
    (listed : batch[n]?.bind reads = some a) :
    ∃ e, batch = batch.take n ++ e :: batch.drop (n + 1) ∧ reads e = some a := by
  obtain ⟨e, found, same⟩ := Option.bind_eq_some_iff.mp listed
  obtain ⟨inside, rfl⟩ := List.getElem?_eq_some_iff.mp found
  exact ⟨_, by rw [← List.drop_eq_getElem_cons inside, List.take_append_drop], same⟩

namespace Ledger

/-- What a planner knows of a cell between passes. -/
def standing (l : Ledger σ) (key : Key) : Standing := .of l.planner l.store l.waiting key

/-- The claims of the jobs and builds that are under way. -/
def works (l : Ledger σ) : List Claim := l.jobs.map (·.claim) ++ l.delivers

variable {l l' : Ledger σ} {c c' : Claim}

theorem standing_slot (sound : l.store.Sound) {i : Nat} {slot : Slot} (found : l.store.live? i = some slot) :
    (l.standing slot.key).slot = some slot.dark := by
  simp only [standing, Standing.of, tenant?_live sound found, Option.map_some]

/-- A tenant rewritten in place is seen under its own key. -/
theorem standing_put (l' : Ledger σ) (sound : l.store.Sound) {i : Nat} {slot fresh : Slot}
    (found : l.store.live? i = some slot) (store : l'.store = l.store.put i fresh) (kept : fresh.live = slot.live)
    (planner : l'.planner = l.planner) (key : Key) :
    l'.standing key = { l.standing key with
      slot := if slot.key = key then some fresh.dark else (l.standing key).slot
      queued := l'.waiting.any fun r => decide (r.key = key) } := by
  simp only [standing, Standing.of, store, planner, tenant?_put sound found kept]
  split <;> rfl

/-- Whatever is under way is under way for the cell that it names. -/
theorem Tracked.working (tracked : l.Tracked) (member : c ∈ l.works) :
    ∃ slot, l.store.live? c.index = some slot ∧ slot.stage.isInFlight = true ∧ slot.claim c.index = c := by
  rcases List.mem_append.mp member with job | delivery
  · have waits : c ∈ l.waits := List.mem_append_right _ job
    obtain ⟨slot, found, stage, current⟩ := tracked.carried.waits waits
    exact ⟨slot, found, by rw [stage]; rfl, current⟩
  · obtain ⟨slot, found, stage, current⟩ := tracked.carried.builds delivery
    exact ⟨slot, found, by rw [stage]; rfl, current⟩

/-- No two claims for one cell are under way. -/
theorem Tracked.one_work (tracked : l.Tracked) (member : c ∈ l.works) (other : c' ∈ l.works) (same : c.key = c'.key) :
    c = c' := by
  obtain ⟨slot, found, _, current⟩ := tracked.working member
  obtain ⟨slot', found', _, current'⟩ := tracked.working other
  have owner : slot.key = c.key := congrArg Claim.key current
  have owner' : slot'.key = c'.key := congrArg Claim.key current'
  have here := tracked.carried.sound.alone found found' (by rw [owner, owner', same])
  rw [here, found'] at found
  cases found
  rw [← current, ← current', here]

/-- The request at the head of the queue is for a claim that is out. -/
theorem Tracked.request (tracked : l.Tracked) {r : Request} {waiting : List Request} (taken : l.waiting = r :: waiting) :
    ∃ slot, l.store.live? r.index = some slot ∧ slot.stage = .scheduled ∧ slot.key = r.key ∧
      (l.store.abandon r.index r.version).1 = l.store.put r.index { slot with stage := slot.fallback } := by
  have member := mem_waits_next taken
  obtain ⟨slot, found, stage, current⟩ := tracked.carried.waits member
  have version : slot.version = r.version := congrArg Claim.version current
  refine ⟨slot, found, stage, congrArg Claim.key current, ?_⟩
  have found : l.store.live? r.index = some slot := found
  rw [← version, abandon_current found (by rw [stage]; rfl)]

end Ledger

namespace Pipeline

open Ledger

/-- A pipeline whose parties are all there, and in which every claim that is out has its carrier. -/
structure Running (p : Pipeline σ ω) (planner : Planner) : Prop where
  intact : p.Intact
  present : p.planner = some planner
  tracked : (p.ledger planner [] []).Tracked

variable {p : Pipeline σ ω} {planner : Planner} {d : Desk}

theorem new_running (grid : Grid) (initial most : Nat) (pacing : Pacing) (margins : Margins) (builder : Builder)
    (world : ω) (sim : σ) :
    (new grid (Store.ofLimits initial most) pacing margins builder world sim).Running
      (Planner.new grid pacing margins) :=
  ⟨new_intact _ _ _ _ _ _ _, rfl, new_tracked _ _ _ _ _ _ _ _⟩

theorem Running.orderly (running : p.Running planner) : (p.desk planner).Orderly p.jobs := by
  have ⟨intact, _, keyed, carried⟩ := running
  exact ⟨intact.commands, intact.requests, keyed, carried⟩

theorem Running.sound (running : p.Running planner) : p.store.Sound := running.tracked.carried.sound

/-- The batch of the next pass, as the planner and its queue have it. -/
theorem Running.batch (running : p.Running planner) : p.batch = planner.inbox ++ p.events.letters.toList := by
  rw [Pipeline.batch, running.present]
  rfl

/-- A pass that succeeds leaves its planner's desk. -/
theorem Running.passed (running : p.Running planner)
    (passed : (p.desk planner).pass p.events.letters.toList p.poses.sample = .ok d) :
    p.pass.1 = p.afterPass d ∧ (p.afterPass d).Running d.planner := by
  have acts := desk_acts p planner
  have ends := pass_left running.present
  rw [passed] at acts ends
  have ⟨_, _, keyed, carried⟩ := running.orderly.acts acts
  exact ⟨ends, afterPass_intact running.intact acts, rfl, keyed, carried⟩

/-- The desk of the next pass when some of its events have been applied. -/
def midway (p : Pipeline σ ω) (earlier : List Event) : Option Desk :=
  p.planner.bind fun planner => (((p.desk planner).opened p.batch.length).applyEvents earlier).toOption

theorem Running.midway (running : p.Running planner) {earlier : List Event} {d : Desk}
    (reached : d ∈ p.midway earlier) : ((p.desk planner).opened p.batch.length).applyEvents earlier = .ok d := by
  simp only [Pipeline.midway, running.present, Option.bind_some, Option.mem_def] at reached
  cases attempt : ((p.desk planner).opened p.batch.length).applyEvents earlier with
  | error failure =>
    rw [attempt] at reached
    cases reached
  | ok other =>
    rw [attempt] at reached
    cases reached
    rfl

/-- The desk of the next pass when its events have been applied and the bodies have been followed. -/
def unsettled (p : Pipeline σ ω) : Option Desk :=
  (p.midway p.batch).bind fun d => (d.followAll p.poses.sample).toOption

/-- A pass that succeeds applies its events, follows the bodies, and settles. -/
theorem Running.pass_cases (running : p.Running planner)
    (passed : (p.desk planner).pass p.events.letters.toList p.poses.sample = .ok d) :
    ∃ applied followed, ((p.desk planner).opened p.batch.length).applyEvents p.batch = .ok applied ∧
      applied.followAll p.poses.sample = .ok followed ∧ p.unsettled = some followed ∧ followed.Orderly p.jobs ∧
      d = followed.settle.closed := by
  obtain ⟨applied, followed, applying, following, settled⟩ := Desk.pass_cases passed
  have orderly := ((running.orderly.opened _).attempt (Desk.applyEvents_counted _ _) applying).attempt
    (Desk.followAll_counted applied _) following
  have applying : ((p.desk planner).opened p.batch.length).applyEvents p.batch = .ok applied := by
    rw [running.batch]
    exact applying
  refine ⟨applied, followed, applying, following, ?_, orderly, settled⟩
  simp only [unsettled, Pipeline.midway, running.present, Option.bind_some, applying, following, Except.toOption]

/-- Whether a claim is out on a cell. -/
def claimed (p : Pipeline σ ω) (key : Key) : Bool := (p.store.tenant? key).any (·.stage.isInFlight)

variable [Simulation σ] [Supplier ω]

/-- A move that is not a pass leaves the planner as it is. -/
theorem Running.other (running : p.Running planner) {m : Move ω} (other : m ≠ .pass) : (p.move m).Running planner := by
  obtain ⟨kept, same, works⟩ := move_works running.intact planner other
  exact ⟨kept, same.trans running.present, running.tracked.works works⟩

/-- A move is a pass that leaves its planner's desk, or it leaves the planner as it is. -/
theorem Running.move_cases (running : p.Running planner) {m : Move ω}
    (passes : m = .pass → ∃ report, p.pass.2 = some (.ok report)) :
    (∃ d, m = .pass ∧ (p.desk planner).pass p.events.letters.toList p.poses.sample = .ok d ∧
      p.move m = p.afterPass d ∧ (p.afterPass d).Running d.planner) ∨
    (m ≠ .pass ∧ (p.move m).Running planner) := by
  by_cases passing : m = .pass
  · obtain ⟨report, answer⟩ := passes passing
    obtain ⟨d, passed, _⟩ := pass_answer running.present answer
    obtain ⟨ends, next⟩ := running.passed passed
    subst passing
    exact .inl ⟨d, rfl, passed, ends, next⟩
  · exact .inr ⟨passing, running.other passing⟩

/-- In every state that a run comes to, failed passes or not, every claim that is out has its carrier. -/
theorem Running.run (running : p.Running planner) (moves : List (Move ω)) : ∃ planner, (p.run moves).Running planner := by
  obtain ⟨planner, present, tracked⟩ := run_keeps (J := Ledger.Tracked)
    (fun _ _ _ _ act ready tracked => Ledger.Tracked.act tracked act ready) (fun _ _ work tracked => tracked.work work)
    running.intact running.present running.tracked moves
  exact ⟨planner, run_intact running.intact moves, present, tracked⟩

theorem run_append (p : Pipeline σ ω) (before after : List (Move ω)) :
    p.run (before ++ after) = (p.run before).run after := List.foldl_append

theorem applied_append (p : Pipeline σ ω) (before after : List (Move ω)) :
    p.applied (before ++ after) = p.applied before ++ (p.run before).applied after := by
  induction before generalizing p with
  | nil => rfl
  | cons m before ih =>
    cases m with
    | pass => exact (congrArg (p.batch ++ ·) (ih p.pass.1)).trans (List.append_assoc _ _ _).symm
    | _ => exact ih _

theorem unfailing_cons {m : Move ω} {moves : List (Move ω)} :
    p.Unfailing (m :: moves) ↔ (m = .pass → ∃ report, p.pass.2 = some (.ok report)) ∧ (p.move m).Unfailing moves := by
  cases m <;> simp [Unfailing, move]

theorem unfailing_append {before after : List (Move ω)} :
    p.Unfailing (before ++ after) ↔ p.Unfailing before ∧ (p.run before).Unfailing after := by
  induction before generalizing p with
  | nil => simp [Unfailing, run]
  | cons m before ih => rw [List.cons_append, unfailing_cons, unfailing_cons, ih, and_assoc]; rfl

theorem throughout_append {kind : Pipeline σ ω → Move ω → Prop} {before after : List (Move ω)} :
    p.Throughout kind (before ++ after) ↔ p.Throughout kind before ∧ (p.run before).Throughout kind after := by
  induction before generalizing p with
  | nil => simp [Throughout, run]
  | cons m before ih => rw [List.cons_append, Throughout, ih, Throughout, and_assoc]; rfl

theorem Throughout.imp {kind kind' : Pipeline σ ω → Move ω → Prop} (weaker : ∀ p m, kind p m → kind' p m)
    {moves : List (Move ω)} (kept : p.Throughout kind moves) : p.Throughout kind' moves := by
  induction moves generalizing p with
  | nil => exact kept
  | cons m moves ih => exact ⟨weaker p m kept.1, ih kept.2⟩

/-- What every move of a run leaves holds in the end. -/
theorem Throughout.last {J : Pipeline σ ω → Prop} {m : Move ω} {moves : List (Move ω)}
    (kept : p.Throughout (fun p m => J (p.move m)) (m :: moves)) : J (p.run (m :: moves)) := by
  induction moves generalizing p m with
  | nil => exact kept.1
  | cons _ moves ih => exact ih kept.2

theorem chronicle_append (c : Chronicle) (before after : List (Move ω)) :
    p.chronicle c (before ++ after) = (p.run before).chronicle (p.chronicle c before) after := by
  induction before generalizing p c with
  | nil => rfl
  | cons m before ih => exact ih _

theorem chronicle_now (c : Chronicle) (moves : List (Move ω)) : (p.chronicle c moves).now = c.now + moves.length := by
  induction moves generalizing p c with
  | nil => rfl
  | cons m moves ih =>
    rw [List.length_cons, ← Nat.succ_add_eq_add_succ]
    exact ih _

end Pipeline

end TerrainStream
