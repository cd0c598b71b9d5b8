import TerrainStream.Proofs.Pipeline.Carriers
import TerrainStream.Proofs.Residency.Ranking

/-! Admission. Up to its last act a pass admits nothing, so the budget of that act is what the pace leaves beside the
requests that were on their way before the pass. -/

namespace TerrainStream

open Cell Physics Store Collision

namespace Residency

/-- What a planner works by and whether it goes on, the requests that are on their way, and how many have been
admitted. -/
structure Allotment where
  grid : Grid
  pacing : Pacing
  margins : Margins
  running : Bool
  requests : Mailbox Request
  admitted : Nat

/-- What an event makes of it: only a configuration and a shutdown bear on it. -/
def Allotment.hear (a : Allotment) : Event → Allotment
  | .configured pacing margins => { a with pacing, margins }
  | .shutdown => { a with running := false }
  | _ => a

namespace Desk

def allotment (d : Desk) : Allotment :=
  ⟨d.planner.grid, d.planner.pacing, d.planner.margins, d.planner.running, d.requests, d.report.admitted⟩

variable {d d' : Desk} {key : Key} {batch queued : List Event} {most : Nat} {r : Request}

section Chains

variable {α : Type}

private theorem fold_allotment {f : Desk → α → Desk} (step : ∀ d x, (f d x).allotment = d.allotment) (xs : List α)
    (d : Desk) : (xs.foldl f d).allotment = d.allotment := by
  induction xs generalizing d with
  | nil => rfl
  | cons x xs ih => exact (ih (f d x)).trans (step d x)

/-- What none of some attempts changes, all of them together do not change, even if one of them fails. -/
theorem attempts_same {β : Type} (seen : Desk → β) {f : Desk → α → Attempt} {xs : List α}
    (step : ∀ d, ∀ x ∈ xs, seen (left (f d x)) = seen d) (d : Desk) : seen (left (xs.foldlM f d)) = seen d := by
  induction xs generalizing d with
  | nil => rfl
  | cons x xs ih =>
    have first := step d x List.mem_cons_self
    rw [List.foldlM_cons]
    cases attempt : f d x with
    | error failure => rwa [attempt] at first
    | ok next =>
      rw [attempt] at first
      exact (ih (fun d x listed => step d x (List.mem_cons_of_mem _ listed)) next).trans first

end Chains

private theorem claim_allotment (d : Desk) (key : Key) (index : Nat) (priority : Priority) :
    (d.claim key index priority).1.allotment = d.allotment := by
  unfold Desk.claim
  split <;> rfl

private theorem acquire_allotment (d : Desk) (key : Key) : (left (d.acquire key)).allotment = d.allotment := by
  unfold acquire welcome
  split
  · rfl
  · dsimp only [left]
    split
    · split
      · exact claim_allotment _ _ _ _
      · rfl
    · rfl

private theorem release_allotment (d : Desk) (key : Key) : (d.release key).allotment = d.allotment := by
  unfold release
  split
  · rfl
  · dsimp only
    split <;> rfl

private theorem claimed_allotment (d : Desk) (key : Key) (index : Nat) (priority : Priority) (wanted : Prop)
    [Decidable wanted] : (if wanted then d.claim key index priority else (d, false)).1.allotment = d.allotment := by
  split
  · exact claim_allotment d key index priority
  · rfl

private theorem invalidate_allotment (d : Desk) (priority : Priority) (key : Key) :
    (d.invalidate priority key).allotment = d.allotment := by
  unfold invalidate
  split
  · rfl
  · rename_i index _
    split
    · rfl
    · have claimed := claimed_allotment d key index priority (d.store.refs index > 0)
      generalize (if d.store.refs index > 0 then d.claim key index priority else (d, false)) = attempt at claimed
      dsimp only
      split
      · exact claimed
      · split <;> exact claimed

private theorem prioritize_allotment (d : Desk) (key : Key) (priority : Priority) :
    (d.prioritize key priority).allotment = d.allotment := by
  unfold prioritize
  split
  · rfl
  · split
    · rfl
    · rename_i index _
      have claimed := claim_allotment d key index priority
      dsimp only
      split
      · split <;> exact claimed
      · rfl

private theorem unload_allotment (d : Desk) (key : Key) : (d.unload key).allotment = d.allotment := by
  have dropped : (d.dropPending key).allotment = d.allotment := by
    unfold dropPending
    split <;> rfl
  unfold unload
  dsimp only
  split
  · exact dropped
  · split <;> exact dropped

theorem applyEvent_allotment (d : Desk) (e : Event) : (left (d.applyEvent e)).allotment = d.allotment.hear e := by
  cases e with
  | bodyAdded | snapshotUnavailable | claimAbandoned | configured | shutdown => rfl
  | bodyRemoved body =>
    simp only [applyEvent]
    split
    · rfl
    · exact fold_allotment release_allotment _ _
  | voxelEdited place => exact fold_allotment (fun d key => invalidate_allotment d .edit key) _ d
  | cellUnloaded key => exact unload_allotment d key
  | requested key =>
    simp only [applyEvent]
    split
    · rfl
    · exact acquire_allotment _ key
  | released key =>
    simp only [applyEvent]
    split
    · exact release_allotment _ key
    · rfl
  | prioritized key priority => exact prioritize_allotment d key priority

private theorem follow_allotment (d : Desk) (update : BodyId × Option Cells) :
    (left (d.follow update)).allotment = d.allotment := by
  unfold follow
  split
  · dsimp only
    generalize attempted : Desk.acquireAll _ _ = attempt
    have acquired : (left attempt).allotment = d.allotment := by
      rw [← attempted]
      exact attempts_same allotment (fun d key _ => acquire_allotment d key) _
    cases attempt with
    | error failure => exact acquired
    | ok next => exact (fold_allotment release_allotment _ next).trans acquired
  · rfl

theorem followAll_allotment (d : Desk) (probe : BodyId → Option Pose) :
    (left (d.followAll probe)).allotment = d.allotment :=
  attempts_same allotment (fun d update _ => follow_allotment d update) d

private theorem activate_allotment (d : Desk) : d.activate.allotment = d.allotment := by
  have switching (enabled : Bool) (d : Desk) (key : Key) : (d.switch enabled key).allotment = d.allotment := by
    unfold Desk.switch
    split
    · rfl
    · cases enabled <;> rfl
  exact (fold_allotment (switching false) _ _).trans (fold_allotment (switching true) _ d)

private theorem sweepOne_allotment (d : Desk) (key : Key) : (d.sweepOne key).allotment = d.allotment := by
  unfold sweepOne
  dsimp only
  split
  · rfl
  · split
    · rfl
    · split
      · rfl
      · unfold evict
        split <;> rfl

private theorem resumeOne_allotment (d : Desk) (edit : Key × Priority) :
    (d.resumeOne edit).allotment = d.allotment := by
  unfold resumeOne
  dsimp only
  split
  · rfl
  · rename_i index _
    split
    · rfl
    · have claimed := claimed_allotment d edit.1 index edit.2 (d.store.refs index > 0)
      generalize (if d.store.refs index > 0 then d.claim edit.1 index edit.2 else (d, false)) = attempt at claimed
      split <;> exact claimed

private theorem retryOne_allotment (d : Desk) (key : Key) : (d.retryOne key).allotment = d.allotment := by
  unfold retryOne
  dsimp only
  split
  · rfl
  · split
    · rfl
    · rename_i index _
      have claimed := claim_allotment { d with planner := { d.planner with retry := d.planner.retry.erase key } }
        key index .load
      split
      · split <;> exact claimed
      · rfl

private theorem dropUnneeded_allotment (d : Desk) : d.dropUnneeded.allotment = d.allotment := by
  unfold dropUnneeded
  exact fold_allotment (f := abandonOne) (fun _ _ => rfl) _ _

/-- A desk whose pass is done but for admission. -/
def gathered (d : Desk) : Desk := d.activate.sweep.resume.retryAll.dropUnneeded

theorem settle_eq (d : Desk) : d.settle = d.gathered.dispatch := rfl

theorem gathered_allotment (d : Desk) : d.gathered.allotment = d.allotment := by
  have swept : d.activate.sweep.allotment = d.allotment :=
    (fold_allotment sweepOne_allotment _ _).trans (activate_allotment d)
  have resumed : d.activate.sweep.resume.allotment = d.allotment :=
    (fold_allotment resumeOne_allotment _ _).trans swept
  have retried : d.activate.sweep.resume.retryAll.allotment = d.allotment :=
    (fold_allotment retryOne_allotment _ _).trans resumed
  exact (dropUnneeded_allotment _).trans retried

theorem tuning_of_allotment (same : d'.allotment = d.allotment) : d'.planner.grid = d.planner.grid ∧
    d'.planner.pacing = d.planner.pacing ∧ d'.planner.margins = d.planner.margins :=
  ⟨congrArg Allotment.grid same, congrArg Allotment.pacing same, congrArg Allotment.margins same⟩

/-- Whether every configuration among some events admits this many requests. -/
def Rationed (most : Nat) (events : List Event) : Prop :=
  ∀ pacing margins, .configured pacing margins ∈ events → pacing.snapshotsPerPass = most

/-- The budget stays what it is, and the requests that are on their way stay there. -/
structure Spared (d d' : Desk) : Prop where
  budget : d'.planner.pacing.snapshotsPerPass = d.planner.pacing.snapshotsPerPass
  requests : d'.requests = d.requests
  admitted : d'.report.admitted = d.report.admitted

theorem Spared.of_allotment (same : d'.allotment = d.allotment) : Spared d d' :=
  ⟨congrArg (·.pacing.snapshotsPerPass) same, congrArg Allotment.requests same, congrArg Allotment.admitted same⟩

theorem Spared.trans {d'' : Desk} (first : Spared d d') (second : Spared d' d'') : Spared d d'' :=
  ⟨second.budget.trans first.budget, second.requests.trans first.requests, second.admitted.trans first.admitted⟩

theorem applyEvents_spared (pace : d.planner.pacing.snapshotsPerPass = most) (rationed : Rationed most batch) :
    Spared d (left (d.applyEvents batch)) := by
  induction batch generalizing d with
  | nil => exact .of_allotment rfl
  | cons e batch ih =>
    have first : Spared d (left (d.applyEvent e)) := by
      have heard := applyEvent_allotment d e
      -- Only a configuration touches the pacing, and what it brings is the same budget.
      cases e with
      | configured pacing margins => exact ⟨(rationed pacing margins List.mem_cons_self).trans pace.symm, rfl, rfl⟩
      | shutdown => exact ⟨rfl, rfl, rfl⟩
      | _ => exact .of_allotment heard
    rw [applyEvents, List.foldlM_cons]
    cases attempt : d.applyEvent e with
    | error failure => rwa [attempt] at first
    | ok next =>
      rw [attempt] at first
      exact first.trans (ih (first.budget.trans pace) fun pacing margins listed =>
        rationed pacing margins (List.mem_cons_of_mem _ listed))

theorem gathered_spared {probe : BodyId → Option Pose} {applied followed : Desk}
    (pace : d.planner.pacing.snapshotsPerPass = most) (rationed : Rationed most batch)
    (applying : d.applyEvents batch = .ok applied) (following : applied.followAll probe = .ok followed) :
    Spared d followed.gathered := by
  have events := applyEvents_spared pace rationed
  have bodies := followAll_allotment applied probe
  rw [applying] at events
  rw [following] at bodies
  exact (events.trans (.of_allotment bodies)).trans (.of_allotment (gathered_allotment followed))

/-- Up to admission a pass leaves alone what has been admitted. -/
theorem gathered_queue {probe : BodyId → Option Pose} {applied followed : Desk}
    (applying : d.applyEvents batch = .ok applied) (following : applied.followAll probe = .ok followed) :
    followed.gathered.requests = d.requests ∧ followed.gathered.report.admitted = d.report.admitted := by
  have heard (d : Desk) (e : Event) : ((left (d.applyEvent e)).requests, (left (d.applyEvent e)).report.admitted) =
      (d.requests, d.report.admitted) := by
    have same := applyEvent_allotment d e
    refine Prod.ext ((congrArg Allotment.requests same).trans ?_) ((congrArg Allotment.admitted same).trans ?_)
    · cases e <;> rfl
    · cases e <;> rfl
  have events : ((left (d.applyEvents batch)).requests, (left (d.applyEvents batch)).report.admitted) =
      (d.requests, d.report.admitted) :=
    attempts_same (fun d => (d.requests, d.report.admitted)) (fun d e _ => heard d e) d
  have bodies := followAll_allotment applied probe
  rw [applying] at events
  rw [following] at bodies
  have spared : Spared applied followed.gathered := .of_allotment ((gathered_allotment followed).trans bodies)
  obtain ⟨requests, admitted⟩ := Prod.mk.inj events
  exact ⟨spared.requests.trans requests, spared.admitted.trans admitted⟩

/-- A pass that fails admits nothing. -/
theorem failed_spared {probe : BodyId → Option Pose} {failure : Desk × Fault}
    (pace : d.planner.pacing.snapshotsPerPass = most) (rationed : Rationed most (d.planner.inbox ++ queued))
    (failed : d.pass queued probe = .error failure) :
    Spared (d.opened (d.planner.inbox ++ queued).length) failure.1 := by
  have events := applyEvents_spared (d := d.opened (d.planner.inbox ++ queued).length) pace rationed
  unfold pass at failed
  dsimp only at failed
  cases applying : (d.opened (d.planner.inbox ++ queued).length).applyEvents (d.planner.inbox ++ queued) with
  | error first =>
    rw [applying] at events failed
    cases failed
    exact events
  | ok applied =>
    have bodies := followAll_allotment applied probe
    rw [applying] at events failed
    cases following : applied.followAll probe with
    | error second =>
      simp only [Except.bind, following] at bodies failed
      cases failed
      exact events.trans (.of_allotment bodies)
    | ok followed =>
      simp only [Except.bind, following] at failed
      cases failed

/-- With somebody to take them, the best-ranked requests are appended to those on their way. -/
theorem dispatch_admits (ready : d.requests.isOpen = true) :
    let taken := d.planner.pending.takeRanked (d.planner.pacing.snapshotsPerPass - d.requests.size)
    d.dispatch.planner = { d.planner with pending := taken.1 } ∧ d.dispatch.store = d.store ∧
      d.dispatch.requests.letters.toList = d.requests.letters.toList ++ taken.2 ∧
      d.dispatch.report.admitted = d.report.admitted + taken.2.length := by
  intro taken
  have counted (given : List Request) {d : Desk} (ready : d.requests.isOpen = true) :
      (given.foldl dispatchOne d).report.admitted = d.report.admitted + given.length := by
    induction given generalizing d with
    | nil => rfl
    | cons r given ih =>
      have posted : d.dispatchOne r = { d with
          requests := d.requests.post r
          report := { d.report with admitted := d.report.admitted + 1 } } := by
        simp [dispatchOne, ready]
      rw [List.foldl_cons, posted, ih ((Mailbox.post_isOpen _ _).trans ready), List.length_cons]
      dsimp only
      omega
  have counted := counted taken.2 (d := { d with planner := { d.planner with pending := taken.1 } }) ready
  obtain ⟨requests, report, same, letters⟩ :=
    Ledger.dispatchAll_open { d with planner := { d.planner with pending := taken.1 } } ready taken.2
  have ended : d.dispatch = _ := same
  rw [same] at counted
  rw [ended]
  exact ⟨rfl, rfl, letters, counted⟩

/-- Stage and version of a slot are nothing to whether its cell is needed. -/
theorem unneeded_outline {s s' : Store} (same : s'.outline = s.outline) (r : Request) :
    unneeded s' r = unneeded s r := by
  have slots : (s'.live? r.index).map Slot.outline = (s.live? r.index).map Slot.outline := by
    rw [← live?_outline, same, live?_outline]
  have keys : s'.keyAt r.index = s.keyAt r.index := by
    have named := congrArg (Option.map Slot.key) slots
    rwa [Option.map_map, Option.map_map] at named
  have refs : s'.refs r.index = s.refs r.index := by
    have counted := congrArg (fun slot => Option.elim slot 0 Slot.refs) slots
    simp only [Option.elim_map] at counted
    exact counted
  rw [unneeded, keys, refs]
  rfl

/-- Whatever waits for admission waits for a cell that is there and referenced. -/
theorem gathered_needed (d : Desk) (waits : d.gathered.planner.pending.get? key = some r) :
    ∃ slot, d.gathered.store.live? r.index = some slot ∧ slot.key = r.key ∧ 0 < slot.refs := by
  unfold gathered at *
  generalize d.activate.sweep.resume.retryAll = d at *
  have outline : d.dropUnneeded.store.outline = d.store.outline := (Clerk.dropUnneeded d).framed.outline
  have kept : d.dropUnneeded.planner.pending = (d.planner.pending.extract (unneeded d.store)).1 := by
    have folded (given : List Request) (d : Desk) : (given.foldl abandonOne d).planner = d.planner := by
      induction given generalizing d with
      | nil => rfl
      | cons r given ih => exact ih (d.abandonOne r)
    exact congrArg Planner.pending (folded _ _)
  rw [kept, Backlog.get?_extract, Option.filter_eq_some_iff, Bool.not_eq_true', ← unneeded_outline outline] at waits
  have needed := waits.2
  simp only [unneeded, Bool.or_eq_false_iff, bne_eq_false_iff_eq, beq_eq_false_iff_ne] at needed
  obtain ⟨named, held⟩ := needed
  obtain ⟨slot, living, owner⟩ := Option.map_eq_some_iff.mp named
  refine ⟨slot, living, owner, Nat.pos_of_ne_zero fun free => held ?_⟩
  rw [Store.refs, living]
  exact free

end Desk
end Residency
end TerrainStream
