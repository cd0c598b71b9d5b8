import TerrainStream.Proofs.Pipeline.Draining
import TerrainStream.Proofs.Residency.Admission

/-! Admission over whole runs. The world takes requests from their queue and never adds any, and every pass fills the
queue up to the budget at most, with the best-ranked of the requests that wait. -/

namespace TerrainStream

open Cell Store Shape Collision Build Residency Physics World

variable {σ ω : Type}

namespace Ledger

variable [Simulation σ] {l l' : Ledger σ}

/-- Nothing but a pass adds to the queue of requests. -/
theorem Work.waiting (work : Work l l') : l'.waiting.length ≤ l.waiting.length := by
  cases work with
  | skip taken | giveUp taken | accept taken =>
    rw [taken]
    exact Nat.le_succ _
  | drop | build | refuse | install | remove | toggle | ignore => exact Nat.le_refl _

theorem Works.waiting (works : Works l l') : l'.waiting.length ≤ l.waiting.length := by
  induction works with
  | refl => exact Nat.le_refl _
  | tail _ work ih => exact Nat.le_trans work.waiting ih

end Ledger

theorem Residency.Desk.Orderly.gathered {d : Desk} {jobs : List Job} (orderly : d.Orderly jobs) :
    d.gathered.Orderly jobs := by
  have swept := (orderly.acts (Desk.activate_acts d)).acts (Desk.sweep_acts _)
  exact ((swept.clerical (Desk.resume_clerical _)).clerical (Desk.retryAll_clerical _)).clerical
    (.single (.dropUnneeded _))

namespace Pipeline

/-- The desk of the next pass when everything is done but admission. -/
def poised (p : Pipeline σ ω) : Option Desk := p.unsettled.map Desk.gathered

/-- What admission under a budget makes of a desk and of the requests that wait there. -/
structure Admits (most : Nat) (ready : Desk) (p : Pipeline σ ω) (report : Report) (admitted : List Request) : Prop where
  number : admitted.length = min (most - ready.requests.size) ready.planner.pending.size
  counted : report.admitted = admitted.length
  appended : p.requests.letters.toList = ready.requests.letters.toList ++ admitted
  ranked : admitted.Pairwise Request.Outranks
  waited : ∀ r ∈ admitted, ready.planner.pending.get? r.key = some r
  /-- What is not admitted waits on as it was. -/
  others : ∀ key, (p.planner.bind fun planner => planner.pending.get? key) =
    if key ∈ admitted.map (·.key) then none else ready.planner.pending.get? key
  outranked : ∀ r ∈ admitted, ∀ key other,
    (p.planner.bind fun planner => planner.pending.get? key) = some other → r.Outranks other
  needed : ∀ r ∈ admitted, ∃ slot, p.store.live? r.index = some slot ∧ slot.key = r.key ∧ 0 < slot.refs

/-- A pipeline in which requests have been admitted under a budget all along. -/
structure Measured (most : Nat) (p : Pipeline σ ω) (planner : Planner) : Prop where
  running : p.Running planner
  pace : planner.pacing.snapshotsPerPass = most
  queue : p.requests.size ≤ most
  rationed : Desk.Rationed most p.batch

variable {p : Pipeline σ ω} {planner : Planner} {most : Nat} {d applied followed : Desk}

theorem new_measured (grid : Grid) (initial most : Nat) (pacing : Pacing) (margins : Margins) (builder : Builder)
    (world : ω) (sim : σ) :
    (new grid (Store.ofLimits initial most) pacing margins builder world sim).Measured pacing.snapshotsPerPass
      (Planner.new grid pacing margins) :=
  ⟨new_running grid initial most pacing margins builder world sim, rfl, Nat.zero_le _,
    fun _ _ listed => by cases listed⟩

/-- What admission makes of a desk with room for it. -/
private theorem dispatched_admits {ready : Desk} {jobs : List Job} (orderly : ready.Orderly jobs)
    (needed : ∀ key r, ready.planner.pending.get? key = some r →
      ∃ slot, ready.store.live? r.index = some slot ∧ slot.key = r.key ∧ 0 < slot.refs)
    (fresh : ready.report.admitted = 0) :
    (p.afterPass ready.dispatch.closed).Admits ready.planner.pacing.snapshotsPerPass ready ready.dispatch.closed.report
      (ready.planner.pending.takeRanked (ready.planner.pacing.snapshotsPerPass - ready.requests.size)).2 := by
  have keyed : ready.planner.pending.Keyed := orderly.tracked.keyed
  obtain ⟨planner, store, letters, counted⟩ := Desk.dispatch_admits orderly.requests
  have left (key : Key) : ((p.afterPass ready.dispatch.closed).planner.bind fun planner => planner.pending.get? key) =
      (ready.planner.pending.takeRanked
        (ready.planner.pacing.snapshotsPerPass - ready.requests.size)).1.get? key :=
    congrArg (fun planner : Planner => planner.pending.get? key) planner
  refine ⟨Backlog.takeRanked_length _ _, ?_, letters, keyed.takeRanked_pairwise _, fun r => keyed.takeRanked_listed,
    fun key => ?_, fun r taken key other waits => ?_, fun r taken => ?_⟩
  · exact counted.trans (by rw [fresh, Nat.zero_add])
  · rw [left, Backlog.get?_takeRanked]
  · rw [left] at waits
    exact keyed.takeRanked_outranks taken waits
  · have held := needed r.key r (keyed.takeRanked_listed taken)
    rwa [← store] at held

/-- A pass that succeeds admits from the desk that it is poised at, under the budget that it finds there. -/
theorem Running.admits (running : p.Running planner)
    (passed : (p.desk planner).pass p.events.letters.toList p.poses.sample = .ok d) :
    ∃ ready ∈ p.poised, ready.requests = p.requests ∧ d.store = ready.store ∧
      d.planner.pacing = ready.planner.pacing ∧ ∃ admitted,
      (p.afterPass d).Admits ready.planner.pacing.snapshotsPerPass ready d.report admitted ∧
      d.planner.pending.size = ready.planner.pending.size - admitted.length := by
  obtain ⟨applied, followed, applying, following, unsettled, orderly, same⟩ := running.pass_cases passed
  rw [Desk.settle_eq] at same
  subst same
  obtain ⟨requests, fresh⟩ := Desk.gathered_queue applying following
  have poised : followed.gathered ∈ p.poised := by
    rw [Pipeline.poised, unsettled]
    rfl
  have settled := orderly.gathered
  have needed (key : Key) (r : Request) (waits : followed.gathered.planner.pending.get? key = some r) :=
    Desk.gathered_needed followed waits
  generalize followed.gathered = ready at *
  have keyed : ready.planner.pending.Keyed := settled.tracked.keyed
  obtain ⟨planner, store, _⟩ := Desk.dispatch_admits settled.requests
  have dispatched : ready.dispatch.closed.planner = _ := planner
  refine ⟨ready, poised, requests, store, ?_, _, dispatched_admits settled needed fresh, ?_⟩
  · rw [dispatched]
  · rw [dispatched, Backlog.takeRanked_length, ← keyed.takeRanked_size]

/-- The desk from which a pass admits has the budget that the pass found. -/
private theorem Measured.ready (measured : p.Measured most planner)
    (passed : (p.desk planner).pass p.events.letters.toList p.poses.sample = .ok d) {ready : Desk}
    (poised : ready ∈ p.poised) : ready.planner.pacing.snapshotsPerPass = most := by
  obtain ⟨applied, followed, applying, following, unsettled, _⟩ := measured.running.pass_cases passed
  rw [Pipeline.poised, unsettled, Option.map_some] at poised
  obtain rfl : followed.gathered = ready := Option.some.inj poised
  have spared := Desk.gathered_spared
    (d := (p.desk planner).opened p.batch.length) measured.pace measured.rationed applying following
  exact spared.budget.trans measured.pace

private theorem Measured.passed (measured : p.Measured most planner)
    (passed : (p.desk planner).pass p.events.letters.toList p.poses.sample = .ok d) :
    d.planner.pacing.snapshotsPerPass = most ∧
    ∃ ready ∈ p.poised, ready.requests = p.requests ∧
      ∃ admitted, (p.afterPass d).Admits most ready d.report admitted := by
  obtain ⟨ready, poised, requests, _, kept, admitted, admits, _⟩ := measured.running.admits passed
  have pace := measured.ready passed poised
  rw [pace] at admits
  exact ⟨by rw [kept, pace], ready, poised, requests, admitted, admits⟩

private theorem Admits.queue {ready : Desk} {report : Report} {admitted : List Request}
    (admits : p.Admits most ready report admitted) (before : ready.requests.size ≤ most) : p.requests.size ≤ most := by
  have letters := congrArg List.length admits.appended
  have number := admits.number
  rw [List.length_append, Array.length_toList, Array.length_toList] at letters
  simp only [Mailbox.size] at *
  omega

/-- A pass leaves nothing to be applied, whether it succeeds or fails. -/
private theorem batch_passed (p : Pipeline σ ω) (planner : Planner) :
    (p.afterPass (Desk.left ((p.desk planner).pass p.events.letters.toList p.poses.sample))).batch = [] := by
  have taken := Desk.pass_inbox (p.desk planner) p.events.letters.toList p.poses.sample
  simp only [batch, afterPass, Mailbox.emptied, Option.elim_some, taken, List.append_nil]

/-- Every pass leaves the queue within the budget. -/
private theorem Measured.pass (measured : p.Measured most planner) : ∃ planner, p.pass.1.Measured most planner := by
  have acts := desk_acts p planner
  have batch := batch_passed p planner
  rw [pass_left measured.running.present]
  have running : ∀ d, Desk.Acts (p.desk planner) d → (p.afterPass d).Running d.planner := fun d acts =>
    have ⟨_, _, keyed, carried⟩ := measured.running.orderly.acts acts
    ⟨afterPass_intact measured.running.intact acts, rfl, keyed, carried⟩
  have rationed {p' : Pipeline σ ω} (batch : p'.batch = []) : Desk.Rationed most p'.batch := by
    rw [batch]
    exact fun _ _ listed => by cases listed
  cases passed : (p.desk planner).pass p.events.letters.toList p.poses.sample with
  | ok d =>
    rw [passed] at acts batch
    obtain ⟨pace, ready, _, requests, admitted, admits⟩ := measured.passed passed
    exact ⟨d.planner, running d acts, pace, admits.queue (requests ▸ measured.queue), rationed batch⟩
  | error failure =>
    rw [passed] at acts batch
    have ⟨budget, requests, _⟩ := Desk.failed_spared measured.pace (measured.running.batch ▸ measured.rationed) passed
    refine ⟨failure.1.planner, running failure.1 acts, budget.trans measured.pace, ?_, rationed batch⟩
    exact Nat.le_trans (Nat.le_of_eq (congrArg Mailbox.size requests)) measured.queue

variable [Simulation σ] [Supplier ω]

/-- Every move leaves the queue within the budget. -/
private theorem Measured.move (measured : p.Measured most planner) {m : Move ω}
    (sent : ∀ pacing margins, m = .send (.configured pacing margins) → pacing.snapshotsPerPass = most) :
    ∃ planner, (p.move m).Measured most planner := by
  by_cases passing : m = .pass
  · rw [passing]
    exact measured.pass
  · obtain ⟨_, _, works⟩ := move_works measured.running.intact planner passing
    have next := measured.running.other passing
    refine ⟨planner, next, measured.pace, ?_, fun pacing margins listed => ?_⟩
    · have shorter := works.waiting
      simp only [ledger, List.nil_append, Array.length_toList] at shorter
      exact Nat.le_trans shorter measured.queue
    · rcases measured.running.next_batch passing _ listed with earlier | answer | same
      · exact measured.rationed pacing margins earlier
      · exact answer.elim
      · exact sent pacing margins same

private theorem Measured.run (measured : p.Measured most planner) {moves : List (Move ω)}
    (sent : ∀ pacing margins, .send (.configured pacing margins) ∈ moves → pacing.snapshotsPerPass = most) :
    ∃ planner, (p.run moves).Measured most planner := by
  induction moves generalizing p planner with
  | nil => exact ⟨planner, measured⟩
  | cons m moves ih =>
    obtain ⟨_, next⟩ := measured.move fun pacing margins same => sent pacing margins (same ▸ List.mem_cons_self)
    exact ih next fun pacing margins listed => sent pacing margins (List.mem_cons_of_mem _ listed)

/-- Admission is bounded and respects rank. Suppose that every configuration that is sent admits as many requests as
the first one. In every state that a run comes to, failed passes or not, no more requests than that are queued. A
pass that succeeds admits as many of the requests that wait as there is room for: the best-ranked ones, which are
appended in the order of their rank and are for cells that are there and referenced, while those that are left wait
on as they were. If no requests may be admitted, none ever are. -/
theorem admission_is_bounded_and_ranked (grid : Grid) (initial most : Nat) (pacing : Pacing) (margins : Margins)
    (builder : Builder) (world : ω) (sim : σ) (moves : List (Move ω)) :
    let p := (new grid (Store.ofLimits initial most) pacing margins builder world sim).run moves
    (∀ pacing' margins', .send (.configured pacing' margins') ∈ moves →
      pacing'.snapshotsPerPass = pacing.snapshotsPerPass) →
    p.requests.size ≤ pacing.snapshotsPerPass ∧
    (∀ report, p.pass.2 = some (.ok report) → ∃ ready ∈ p.poised, ready.requests = p.requests ∧
      ∃ admitted, p.pass.1.Admits pacing.snapshotsPerPass ready report admitted) ∧
    (pacing.snapshotsPerPass = 0 → ∀ report, p.pass.2 = some (.ok report) → report.admitted = 0) := by
  intro p sent
  obtain ⟨planner, measured⟩ := (new_measured grid initial most pacing margins builder world sim).run sent
  have admits {report : Report} (answer : p.pass.2 = some (.ok report)) : ∃ ready ∈ p.poised,
      ready.requests = p.requests ∧ ∃ admitted, p.pass.1.Admits pacing.snapshotsPerPass ready report admitted := by
    obtain ⟨d, passed, rfl⟩ := pass_answer measured.running.present answer
    rw [(measured.running.passed passed).1]
    exact (measured.passed passed).2
  refine ⟨measured.queue, fun report => admits, fun none report answer => ?_⟩
  obtain ⟨_, _, _, _, admits⟩ := admits answer
  rw [admits.counted, admits.number, none, Nat.zero_sub, Nat.zero_min]

/-- Of two requests one has been prioritized, and there is room for one. -/
theorem admission_is_bounded_and_ranked_one :
    let pacing := { Pacing.standard with snapshotsPerPass := 1 }
    let start := new (Grid.ofSize 2) (Store.ofLimits 1 1) pacing Margins.standard (merge (limitOf usualLimit))
      (Ground.ofTerrain (.floor ⟨Grid.ofSize 2, 1, ∅⟩)) Scene.empty
    let moves := [.send (.configured pacing Margins.standard), .send (.requested ⟨0⟩), .send (.requested ⟨1⟩),
      .send (.prioritized ⟨1⟩ .edit)]
    let p := start.run moves
    (∀ pacing' margins', .send (.configured pacing' margins') ∈ moves →
      pacing'.snapshotsPerPass = pacing.snapshotsPerPass) ∧
    p.requests.size ≤ 1 ∧
    ∃ report, p.pass.2 = some (.ok report) ∧ ∃ ready ∈ p.poised, ready.requests = p.requests ∧
      ∃ admitted, p.pass.1.Admits 1 ready report admitted := by
  intro pacing start moves p
  have sent : ∀ pacing' margins', .send (.configured pacing' margins') ∈ moves →
      pacing'.snapshotsPerPass = pacing.snapshotsPerPass := by
    intro pacing' margins' listed
    have same : pacing' = pacing := by simp_all [moves]
    rw [same]
  have passes : p.Unfailing [.pass] := by decide +kernel
  obtain ⟨⟨report, answer⟩, _⟩ := passes
  obtain ⟨queue, admits, _⟩ := admission_is_bounded_and_ranked (Grid.ofSize 2) 1 1 pacing Margins.standard
    (merge (limitOf usualLimit)) (Ground.ofTerrain (.floor ⟨Grid.ofSize 2, 1, ∅⟩)) Scene.empty moves sent
  exact ⟨sent, queue, report, answer, admits report answer⟩

end Pipeline

end TerrainStream
