import Mathlib.Logic.Relation
import TerrainStream.Proofs.Exchange.Mailbox
import TerrainStream.Proofs.Store.Alike
import TerrainStream.Residency.Pass

/-! A planning pass is a chain of elementary acts. Whatever every act keeps, every pass keeps, also one
that runs out of room; and what only clerical acts happen to is never a matter of references, of
tenants or of activation. -/

namespace TerrainStream.Residency

open Cell Physics Store Collision

/-- The active cells of a body are among its resident ones. -/
def Cells.Fits (cells : Cells) : Prop := ∀ key, cells.active.contains key = true → cells.resident.contains key = true

theorem Cells.empty_fits : empty.Fits := fun _ wanted => by simp [empty] at wanted

theorem Cells.ofPose_fits {grid : Grid} {margins : Margins} {pose : Pose} {cells : Cells}
    (answer : ofPose grid margins pose = some cells) : cells.Fits := by
  unfold ofPose at answer
  split at answer
  · dsimp only at answer
    split at answer
    · cases answer
    · cases answer
      intro key wanted
      simp only [KeySet.ofList, Std.ExtTreeSet.contains_ofList, List.contains_iff_mem, List.mem_filter] at wanted ⊢
      exact wanted.2
  · cases answer

namespace Desk

/-- Two desks that differ at most in the planner's notes (edits deferred, retries, departures, pace and
clock) and in what the report counts of them. -/
structure Noted (d d' : Desk) : Prop where
  store : d'.store = d.store
  commands : d'.commands = d.commands
  requests : d'.requests = d.requests
  inbox : d'.planner.inbox = d.planner.inbox
  pending : d'.planner.pending = d.planner.pending
  holds : d'.planner.holds = d.planner.holds
  trackers : d'.planner.trackers = d.planner.trackers
  active : d'.planner.active = d.planner.active
  acquired : d'.report.acquired = d.report.acquired
  released : d'.report.released = d.report.released
  activated : d'.report.activated = d.report.activated
  deactivated : d'.report.deactivated = d.report.deactivated

/-- The acts that deal with letters, notes and claims only. -/
inductive Clerk : Desk → Desk → Prop
  | collect (d : Desk) : Clerk d { d with planner := { d.planner with inbox := [] } }
  | note {d d' : Desk} (noted : Noted d d') : Clerk d d'
  | raise (d : Desk) (key : Key) (priority : Priority) :
      Clerk d { d with planner := { d.planner with pending := (d.planner.pending.raise key priority).1 } }
  | claim {d : Desk} {key : Key} {index : Nat} (priority : Priority) (found : d.store.indexOf key = some index) :
      Clerk d (d.claim key index priority).1
  | dropPending (d : Desk) (key : Key) : Clerk d (d.dropPending key)
  | dropUnneeded (d : Desk) : Clerk d d.dropUnneeded
  | dispatch (d : Desk) : Clerk d d.dispatch

/-- The acts that come before cells are switched and removed: who holds cells, and what that counts to. -/
inductive Count : Desk → Desk → Prop
  | clerk {d d' : Desk} (act : Clerk d d') : Count d d'
  | enroll {d : Desk} {trackers : Std.ExtTreeMap BodyId Tracker} (holds : KeySet)
      (known : ∀ (body : BodyId) tracker, trackers[body]? = some tracker →
        d.planner.trackers[body]? = some tracker ∨ tracker.cells.Fits) :
      Count d { d with planner := { d.planner with holds, trackers } }
  | enter {d : Desk} {key : Key} {store : Store} {index : Nat} (added : d.store.add key = (store, .ok index)) :
      Count d { d with store }
  | retain (d : Desk) (index : Nat) :
      Count d { d with
        store := (d.store.retain index).1
        report := { d.report with acquired := d.report.acquired + 1 } }
  | release (d : Desk) (index : Nat) :
      Count d { d with
        store := (d.store.release index).1
        report := { d.report with released := d.report.released + 1 } }

/-- All the acts of a pass. -/
inductive Act : Desk → Desk → Prop
  | count {d d' : Desk} (act : Count d d') : Act d d'
  | light (d : Desk) (active : KeySet) : Act d { d with planner := { d.planner with active } }
  | switch (d : Desk) (enabled : Bool) (key : Key) : Act d (d.switch enabled key)
  | evict {d : Desk} {key : Key} {index : Nat} {store : Store} (found : d.store.indexOf key = some index)
      (unreferenced : d.store.refs index = 0) (retired : d.store.tryRetire index = (store, true)) :
      Act d ({ d with store, planner := forget d.planner key }.evict key)

abbrev Clerical : Desk → Desk → Prop := Relation.ReflTransGen Clerk

abbrev Counted : Desk → Desk → Prop := Relation.ReflTransGen Count

abbrev Acts : Desk → Desk → Prop := Relation.ReflTransGen Act

/-- The desk that an attempt leaves behind, whether or not it ran out of room. -/
def left : Attempt → Desk
  | .ok d => d
  | .error (d, _) => d

variable {d d' : Desk} {key : Key} {index : Nat} {priority : Priority}

theorem Clerical.counted (clerical : Clerical d d') : Counted d d' :=
  Relation.ReflTransGen.mono (fun _ _ act => Count.clerk act) _ _ clerical

theorem Counted.acts (counted : Counted d d') : Acts d d' :=
  Relation.ReflTransGen.mono (fun _ _ act => Act.count act) _ _ counted

private theorem jot (same : Noted d d') : Clerical d d' := .single (.note same)

section Chains

variable {α : Type} {r : Desk → Desk → Prop}

private theorem fold_chain {f : Desk → α → Desk} (step : ∀ d x, Relation.ReflTransGen r d (f d x)) (xs : List α)
    (d : Desk) : Relation.ReflTransGen r d (xs.foldl f d) := by
  induction xs generalizing d with
  | nil => exact .refl
  | cons x xs ih => exact (step d x).trans (ih (f d x))

private theorem bind_chain {attempt : Attempt} {f : Desk → Attempt}
    (first : Relation.ReflTransGen r d (left attempt))
    (second : ∀ next, Relation.ReflTransGen r next (left (f next))) :
    Relation.ReflTransGen r d (left (attempt.bind f)) := by
  cases attempt with
  | error failure => exact first
  | ok next => exact first.trans (second next)

private theorem map_chain {attempt : Attempt} {f : Desk → Desk}
    (first : Relation.ReflTransGen r d (left attempt))
    (second : ∀ next, Relation.ReflTransGen r next (f next)) :
    Relation.ReflTransGen r d (left (attempt.map f)) := by
  cases attempt with
  | error failure => exact first
  | ok next => exact first.trans (second next)

private theorem attempt_chain {f : Desk → α → Attempt} {xs : List α}
    (step : ∀ d, ∀ x ∈ xs, Relation.ReflTransGen r d (left (f d x))) (d : Desk) :
    Relation.ReflTransGen r d (left (xs.foldlM f d)) := by
  induction xs generalizing d with
  | nil => exact .refl
  | cons x xs ih =>
    have first := step d x List.mem_cons_self
    exact bind_chain first (ih fun d x member => step d x (List.mem_cons_of_mem _ member))

/-- Two attempts in a row come out well if both do. -/
theorem bind_ok {attempt : Attempt} {f : Desk → Attempt} :
    attempt.bind f = .ok d' ↔ ∃ middle, attempt = .ok middle ∧ f middle = .ok d' := by
  cases attempt <;> simp [Except.bind]

theorem map_ok {attempt : Attempt} {f : Desk → Desk} :
    attempt.map f = .ok d' ↔ ∃ middle, attempt = .ok middle ∧ f middle = d' := by
  cases attempt <;> simp [Except.map]

theorem foldlM_cons_ok {f : Desk → α → Attempt} {x : α} {xs : List α} :
    (x :: xs).foldlM f d = .ok d' ↔ ∃ middle, f d x = .ok middle ∧ xs.foldlM f middle = .ok d' := by
  rw [List.foldlM_cons]
  exact bind_ok

end Chains

/-! ### Claims -/

theorem welcome_clerical (found : d.store.indexOf key = some index) : Clerical d (d.welcome key index) := by
  unfold welcome
  dsimp only
  have erased : Clerical d { d with planner := { d.planner with leaving := d.planner.leaving.erase key } } :=
    jot (by constructor <;> rfl)
  split
  · exact erased.tail (.claim .load found)
  · exact erased

/-- A cell that is claimed if that is wanted, and whatever is noted about it afterwards. -/
private theorem claim_then_note (found : d.store.indexOf key = some index) (wanted : Prop) [Decidable wanted]
    (next : Desk × Bool → Desk) (noting : ∀ middle, Noted middle.1 (next middle)) :
    Clerical d (next (if wanted then d.claim key index priority else (d, false))) := by
  split
  · exact (Relation.ReflTransGen.single (.claim priority found)).tail (.note (noting _))
  · exact jot (noting (d, false))

private theorem raise_clerical {pending : Backlog} {answer : Bool}
    (raised : d.planner.pending.raise key priority = (pending, answer)) :
    Clerical d { d with planner := { d.planner with pending } } := by
  have raising := Clerk.raise d key priority
  rw [raised] at raising
  exact .single raising

theorem invalidate_clerical (d : Desk) (priority : Priority) (key : Key) :
    Clerical d (d.invalidate priority key) := by
  unfold invalidate
  split
  · exact .refl
  · rename_i index found
    split
    · rename_i pending raised
      exact raise_clerical raised
    · refine claim_then_note found _ (fun middle =>
        if middle.2 then { middle.1 with report := { middle.1.report with invalidated := middle.1.report.invalidated + 1 } }
        else if middle.1.store.stage index ≠ .removing then middle.1.defer key priority
        else middle.1) ?_
      intro middle
      dsimp only
      split
      · constructor <;> rfl
      · split <;> constructor <;> rfl

theorem edited_clerical (d : Desk) (place : Position) :
    Clerical d (((d.planner.grid.affected place).map Coord.key).foldl (fun d key => d.invalidate .edit key) d) :=
  fold_chain (fun d key => invalidate_clerical d .edit key) _ d

theorem prioritize_clerical (d : Desk) (key : Key) (priority : Priority) :
    Clerical d (d.prioritize key priority) := by
  unfold prioritize
  split
  · rename_i pending raised
    exact raise_clerical raised
  · split
    · exact .refl
    · rename_i index found
      dsimp only
      split
      · have claimed := Relation.ReflTransGen.single (Clerk.claim priority found)
        split
        · exact claimed.trans (jot (by constructor <;> rfl))
        · exact claimed
      · exact .refl

theorem unload_clerical (d : Desk) (key : Key) : Clerical d (d.unload key) := by
  have dropped := Relation.ReflTransGen.single (Clerk.dropPending d key)
  unfold unload
  dsimp only
  split
  · exact dropped.trans (jot (by constructor <;> rfl))
  · split
    · exact dropped.trans (jot (by constructor <;> rfl))
    · exact dropped.trans (jot (by constructor <;> rfl))

theorem resumeOne_clerical (d : Desk) (edit : Key × Priority) : Clerical d (d.resumeOne edit) := by
  obtain ⟨key, priority⟩ := edit
  unfold resumeOne
  dsimp only
  split
  · exact .refl
  · rename_i index found
    split
    · rename_i pending raised
      exact raise_clerical raised
    · refine claim_then_note found _ (fun middle =>
        if middle.2 then { middle.1 with report := { middle.1.report with retried := middle.1.report.retried + 1 } }
        else { middle.1 with planner := { middle.1.planner with
          deferred := middle.1.planner.deferred.insert key priority } }) ?_
      intro middle
      dsimp only
      split <;> constructor <;> rfl

theorem resume_clerical (d : Desk) : Clerical d d.resume :=
  (jot (by constructor <;> rfl)).trans (fold_chain resumeOne_clerical _ _)

theorem retryOne_clerical (d : Desk) (key : Key) : Clerical d (d.retryOne key) := by
  have erased : Clerical d { d with planner := { d.planner with retry := d.planner.retry.erase key } } :=
    jot (by constructor <;> rfl)
  unfold retryOne
  dsimp only
  split
  · exact erased
  · split
    · exact erased
    · rename_i index found
      split
      · have claimed := erased.tail (Clerk.claim .load found)
        split
        · exact claimed.trans (jot (by constructor <;> rfl))
        · exact claimed
      · exact erased

theorem retryAll_clerical (d : Desk) : Clerical d d.retryAll := fold_chain retryOne_clerical _ _

/-- Once the cells that are due have been removed, the rest of a pass is clerical. -/
theorem claims_clerical (d : Desk) : Clerical d d.resume.retryAll.dropUnneeded.dispatch :=
  (((resume_clerical d).trans (retryAll_clerical _)).tail (.dropUnneeded _)).tail (.dispatch _)

/-! ### References -/

theorem acquire_counted (d : Desk) (key : Key) : Counted d (left (d.acquire key)) := by
  unfold acquire
  split
  · rename_i store fault refused
    obtain rfl := Store.add_refused refused
    exact .refl
  · rename_i store index added
    have found := Store.add_indexed added
    have entered : Counted d { d with store } := .single (.enter added)
    have retained := entered.tail (.retain _ index)
    have kept : ((store.retain index).1).index = store.index := by
      cases living : store.live? index with
      | none => rw [Store.retain_vacant living]
      | some slot => rw [Store.retain_live living]; rfl
    dsimp only [left]
    split
    · refine retained.trans (Clerical.counted (welcome_clerical ?_))
      change ((store.retain index).1).index[key]? = some index
      rw [kept, found]
    · exact retained

theorem release_counted (d : Desk) (key : Key) : Counted d (d.release key) := by
  unfold release
  split
  · exact .refl
  · rename_i index found
    have released := Relation.ReflTransGen.single (Count.release d index)
    dsimp only
    split
    · exact released.trans (Clerical.counted (jot (by constructor <;> rfl)))
    · exact released

theorem releaseAll_counted (d : Desk) (keys : List Key) : Counted d (d.releaseAll keys) :=
  fold_chain release_counted keys d

theorem acquireAll_counted (d : Desk) (keys : List Key) : Counted d (left (d.acquireAll keys)) :=
  attempt_chain (fun d key _ => acquire_counted d key) d

/-! ### Events and bodies -/

private theorem added_known (trackers : Std.ExtTreeMap BodyId Tracker) (body other : BodyId) (tracker : Tracker)
    (found : (trackers.insertIfNew body (Tracker.new body))[other]? = some tracker) :
    trackers[other]? = some tracker ∨ tracker.cells.Fits := by
  cases present : trackers[body]? with
  | some held =>
    rw [Table.insertIfNew_present present] at found
    exact .inl found
  | none =>
    rw [Table.insertIfNew_absent present, Table.getElem?_insert] at found
    split at found
    · cases found
      exact .inr Cells.empty_fits
    · exact .inl found

private theorem removed_known (trackers : Std.ExtTreeMap BodyId Tracker) (body other : BodyId) (tracker : Tracker)
    (found : (trackers.erase body)[other]? = some tracker) : trackers[other]? = some tracker ∨ tracker.cells.Fits := by
  rw [Table.getElem?_erase] at found
  split at found
  · cases found
  · exact .inl found

theorem applyEvent_counted (d : Desk) (event : Event) : Counted d (left (d.applyEvent event)) := by
  have hold (holds) : Counted d { d with planner := { d.planner with holds } } :=
    .single (.enroll holds fun _ _ found => .inl found)
  cases event with
  | bodyAdded body => exact .single (.enroll d.planner.holds (added_known d.planner.trackers body))
  | bodyRemoved body =>
    simp only [applyEvent]
    split
    · exact .refl
    · exact (Relation.ReflTransGen.single (.enroll d.planner.holds (removed_known d.planner.trackers body))).trans
        (releaseAll_counted _ _)
  | voxelEdited place => exact (edited_clerical d place).counted
  | cellUnloaded key => exact (unload_clerical d key).counted
  | requested key =>
    simp only [applyEvent]
    split
    · exact .refl
    · exact (hold _).trans (acquire_counted _ key)
  | released key =>
    simp only [applyEvent]
    split
    · exact (hold _).trans (release_counted _ key)
    · exact .refl
  | prioritized key priority => exact (prioritize_clerical d key priority).counted
  | snapshotUnavailable key => exact (jot (by constructor <;> rfl)).counted
  | claimAbandoned key => exact (jot (by constructor <;> rfl)).counted
  | configured pacing margins => exact (jot (by constructor <;> rfl)).counted
  | shutdown => exact (jot (by constructor <;> rfl)).counted

theorem applyEvents_counted (d : Desk) (batch : List Event) : Counted d (left (d.applyEvents batch)) :=
  attempt_chain (fun d event _ => applyEvent_counted d event) d

theorem follow_counted (d : Desk) (update : BodyId × Option Cells) (fits : ∀ cells, update.2 = some cells → cells.Fits) :
    Counted d (left (d.follow update)) := by
  unfold follow
  split
  · rename_i cells tracker wanted found
    have known (body : BodyId) (other : Tracker)
        (there : (d.planner.trackers.insert update.1 (tracker.adopt cells).1)[body]? = some other) :
        d.planner.trackers[body]? = some other ∨ other.cells.Fits := by
      rw [Table.getElem?_insert] at there
      split at there
      · cases there
        exact .inr (fits cells wanted)
      · exact .inl there
    have enrolled := Relation.ReflTransGen.single (Count.enroll d.planner.holds known)
    exact map_chain (enrolled.trans (acquireAll_counted _ _)) fun next => releaseAll_counted next _
  · exact .refl

theorem followAll_counted (d : Desk) (probe : BodyId → Option Pose) : Counted d (left (d.followAll probe)) := by
  refine attempt_chain (fun d update member => follow_counted d update ?_) d
  intro cells wanted
  obtain ⟨⟨body, tracker⟩, _, rfl⟩ := List.mem_map.mp member
  obtain ⟨pose, _, answer⟩ := Option.bind_eq_some_iff.mp wanted
  exact Cells.ofPose_fits answer

/-! ### Activation and removal -/

theorem activate_acts (d : Desk) : Acts d d.activate := by
  have switching (enabled : Bool) (keys : List Key) (d : Desk) : Acts d (keys.foldl (·.switch enabled) d) :=
    fold_chain (fun d key => .single (.switch d enabled key)) keys d
  exact ((switching true _ d).trans (switching false _ _)).tail (.light _ _)

/-- Looking at a cell whose grace period is over either removes it or is no more than a note. -/
theorem sweepOne_cases (d : Desk) (key : Key) :
    Noted d (d.sweepOne key) ∨
    ∃ index store, d.store.indexOf key = some index ∧ d.store.refs index = 0 ∧
      d.store.tryRetire index = (store, true) ∧
      d.sweepOne key = { d with store, planner := forget d.planner key }.evict key := by
  unfold sweepOne
  dsimp only
  split
  · exact .inl (by constructor <;> rfl)
  · rename_i index found
    split
    · exact .inl (by constructor <;> rfl)
    · rename_i unreferenced
      split
      · rename_i store refused
        obtain rfl := Store.tryRetire_false refused
        exact .inl (by constructor <;> rfl)
      · rename_i store retired
        exact .inr ⟨index, store, found, not_not.mp unreferenced, retired, rfl⟩

theorem sweepOne_acts (d : Desk) (key : Key) : Acts d (d.sweepOne key) := by
  rcases sweepOne_cases d key with noted | ⟨index, store, found, unreferenced, retired, step⟩
  · exact Counted.acts (Clerical.counted (jot noted))
  · rw [step]
    exact .single (.evict found unreferenced retired)

theorem sweep_acts (d : Desk) : Acts d d.sweep := fold_chain sweepOne_acts _ d

theorem settle_acts (d : Desk) : Acts d d.settle :=
  ((activate_acts d).trans (sweep_acts _)).trans (Counted.acts (claims_clerical _).counted)

theorem closed_noted (d : Desk) : Noted d d.closed := by constructor <;> rfl

/-- A pass, finished or not, counts first, and settles if it comes that far. -/
theorem pass_halves (d : Desk) (queued : List Event) (probe : BodyId → Option Pose) :
    ∃ counted, Counted (d.opened (d.planner.inbox ++ queued).length) counted ∧
      (left (d.pass queued probe) = counted ∨ left (d.pass queued probe) = counted.settle.closed) := by
  have applied := applyEvents_counted (d.opened (d.planner.inbox ++ queued).length) (d.planner.inbox ++ queued)
  have followed := bind_chain applied fun next => followAll_counted next probe
  unfold pass
  dsimp only
  generalize Except.bind _ _ = attempt at followed
  cases attempt with
  | error failure => exact ⟨failure.1, followed, .inl rfl⟩
  | ok last => exact ⟨last, followed, .inr rfl⟩

/-- A pass, finished or not, is a chain of acts once it has been opened. -/
theorem pass_acts (d : Desk) (queued : List Event) (probe : BodyId → Option Pose) :
    Acts (d.opened (d.planner.inbox ++ queued).length) (left (d.pass queued probe)) := by
  obtain ⟨middle, counted, ends | ends⟩ := pass_halves d queued probe
  · rw [ends]
    exact counted.acts
  · rw [ends]
    exact (counted.acts.trans (settle_acts middle)).trans (Counted.acts (jot (closed_noted _)).counted)

/-! ### What acts leave alone -/

/-- Two desks that differ at most in notes, in claims and in requests. -/
structure Framed (d d' : Desk) : Prop where
  outline : d'.store.outline = d.store.outline
  commands : d'.commands = d.commands
  taking : d'.requests.isOpen = d.requests.isOpen
  holds : d'.planner.holds = d.planner.holds
  trackers : d'.planner.trackers = d.planner.trackers
  active : d'.planner.active = d.planner.active
  acquired : d'.report.acquired = d.report.acquired
  released : d'.report.released = d.report.released
  activated : d'.report.activated = d.report.activated
  deactivated : d'.report.deactivated = d.report.deactivated

theorem Framed.trans {d'' : Desk} (first : Framed d d') (second : Framed d' d'') : Framed d d'' :=
  ⟨second.outline.trans first.outline, second.commands.trans first.commands, second.taking.trans first.taking,
    second.holds.trans first.holds, second.trackers.trans first.trackers, second.active.trans first.active,
    second.acquired.trans first.acquired, second.released.trans first.released,
    second.activated.trans first.activated, second.deactivated.trans first.deactivated⟩

private theorem fold_framed {α : Type} {f : Desk → α → Desk} (step : ∀ d x, Framed d (f d x)) (xs : List α)
    (d : Desk) : Framed d (xs.foldl f d) := by
  induction xs generalizing d with
  | nil => constructor <;> rfl
  | cons x xs ih => exact (step d x).trans (ih (f d x))

private theorem abandoned_framed (d : Desk) (r : Request) (pending : Backlog) :
    Framed d { d with store := (d.store.abandon r.index r.version).1, planner := { d.planner with pending } } :=
  ⟨outline_abandon _ _ _, rfl, rfl, rfl, rfl, rfl, rfl, rfl, rfl, rfl⟩

theorem Noted.framed (noted : Noted d d') : Framed d d' :=
  ⟨congrArg outline noted.store, noted.commands, congrArg Mailbox.isOpen noted.requests, noted.holds, noted.trackers,
    noted.active, noted.acquired, noted.released, noted.activated, noted.deactivated⟩

theorem Clerk.framed (act : Clerk d d') : Framed d d' := by
  cases act with
  | collect => constructor <;> rfl
  | note noted => exact noted.framed
  | raise => constructor <;> rfl
  | claim =>
    rename_i key index priority found
    have kept := outline_schedule d.store index
    unfold Desk.claim
    split <;> rename_i store scheduled <;> rw [scheduled] at kept <;> exact ⟨kept, rfl, rfl, rfl, rfl, rfl, rfl, rfl, rfl, rfl⟩
  | dropPending key =>
    unfold Desk.dropPending
    split
    · constructor <;> rfl
    · exact abandoned_framed _ _ _
  | dropUnneeded =>
    have emptied : Framed d { d with planner := { d.planner with
        pending := (d.planner.pending.extract (unneeded d.store)).1 } } := by constructor <;> rfl
    refine emptied.trans (fold_framed (fun d r => ?_) _ _)
    exact ⟨outline_abandon _ _ _, rfl, rfl, rfl, rfl, rfl, rfl, rfl, rfl, rfl⟩
  | dispatch =>
    have emptied : Framed d { d with planner := { d.planner with
        pending := (d.planner.pending.takeRanked (d.planner.pacing.snapshotsPerPass - d.requests.size)).1 } } := by
      constructor <;> rfl
    refine emptied.trans (fold_framed (fun d r => ?_) _ _)
    unfold dispatchOne
    split
    · refine ⟨rfl, rfl, ?_, rfl, rfl, rfl, rfl, rfl, rfl, rfl⟩
      exact Mailbox.post_isOpen _ _
    · exact ⟨outline_abandon _ _ _, rfl, rfl, rfl, rfl, rfl, rfl, rfl, rfl, rfl⟩

theorem Clerical.framed (clerical : Clerical d d') : Framed d d' := by
  induction clerical with
  | refl => constructor <;> rfl
  | tail _ act ih => exact ih.trans act.framed

/-- Letters that have been collected stay out of the way. -/
theorem Clerk.inbox (act : Clerk d d') (empty : d.planner.inbox = []) : d'.planner.inbox = [] := by
  have folds {f : Desk → Request → Desk} (step : ∀ d r, (f d r).planner.inbox = d.planner.inbox)
      (given : List Request) (d : Desk) : (given.foldl f d).planner.inbox = d.planner.inbox := by
    induction given generalizing d with
    | nil => rfl
    | cons r given ih => exact (ih (f d r)).trans (step d r)
  cases act with
  | collect => rfl
  | note noted => exact noted.inbox.trans empty
  | raise => exact empty
  | claim =>
    unfold Desk.claim
    split <;> exact empty
  | dropPending =>
    unfold Desk.dropPending
    split <;> exact empty
  | dropUnneeded => exact (folds (f := abandonOne) (fun _ _ => rfl) _ _).trans empty
  | dispatch =>
    refine (folds (f := dispatchOne) (fun d r => ?_) _ _).trans empty
    unfold dispatchOne
    split <;> rfl

theorem Act.inbox (act : Act d d') (empty : d.planner.inbox = []) : d'.planner.inbox = [] := by
  cases act with
  | count act =>
    cases act with
    | clerk act => exact act.inbox empty
    | enroll | enter | retain | release => exact empty
  | light => exact empty
  | switch =>
    unfold Desk.switch
    split <;> exact empty
  | evict =>
    unfold Desk.evict
    split <;> exact empty

/-- A pass takes all the letters that were received before it. -/
theorem pass_inbox (d : Desk) (queued : List Event) (probe : BodyId → Option Pose) :
    (left (d.pass queued probe)).planner.inbox = [] := by
  have acts := pass_acts d queued probe
  generalize left (d.pass queued probe) = d' at acts
  induction acts with
  | refl => rfl
  | tail _ act ih => exact act.inbox ih

/-- The acts that come before switching and removing send no command and do not switch. -/
theorem Count.quiet (act : Count d d') :
    d'.commands = d.commands ∧ d'.requests.isOpen = d.requests.isOpen ∧ d'.planner.active = d.planner.active := by
  cases act with
  | clerk act => exact ⟨act.framed.commands, act.framed.taking, act.framed.active⟩
  | enroll | enter | retain | release => exact ⟨rfl, rfl, rfl⟩

theorem Counted.quiet (counted : Counted d d') :
    d'.commands = d.commands ∧ d'.requests.isOpen = d.requests.isOpen ∧ d'.planner.active = d.planner.active := by
  induction counted with
  | refl => exact ⟨rfl, rfl, rfl⟩
  | tail _ act ih =>
    exact ⟨act.quiet.1.trans ih.1, act.quiet.2.1.trans ih.2.1, act.quiet.2.2.trans ih.2.2⟩

/-- Nor do they touch what the simulation sees of the store. -/
theorem Count.alike (act : Count d d') (sound : d.store.Sound) : d'.store.Sound ∧ Alike d.store d'.store := by
  cases act with
  | clerk act => exact ⟨sound.of_outline act.framed.outline, alike_outline act.framed.outline⟩
  | enroll => exact ⟨sound, .refl _⟩
  | enter added =>
    rcases added_cases sound added with rfl | ⟨admitted, kept⟩
    · exact ⟨sound, .refl _⟩
    · exact ⟨kept, admitted.alike⟩
  | retain index =>
    cases found : d.store.live? index with
    | none => rw [retain_vacant found]; exact ⟨sound, .refl _⟩
    | some slot => rw [retain_live found]; exact ⟨sound.put found rfl rfl, alike_put found rfl rfl rfl rfl⟩
  | release index =>
    cases found : d.store.live? index with
    | none => rw [release_vacant found]; exact ⟨sound, .refl _⟩
    | some slot => rw [release_live found]; exact ⟨sound.put found rfl rfl, alike_put found rfl rfl rfl rfl⟩

theorem Counted.sound (counted : Counted d d') (sound : d.store.Sound) : d'.store.Sound := by
  induction counted with
  | refl => exact sound
  | tail _ act ih => exact (act.alike ih).1

/-- Switching sets the flag of the key's cell and tells the simulation; without a cell it does nothing. -/
theorem switch_cases (sound : d.store.Sound) (enabled : Bool) (key : Key) :
    (∃ i slot report, d.store.live? i = some slot ∧ slot.key = key ∧
      d.switch enabled key = { d with
        store := d.store.put i { slot with active := enabled }
        commands := d.commands.post (.toggle key i enabled)
        report } ∧
      report.acquired = d.report.acquired ∧ report.released = d.report.released) ∨
    (d.store.index[key]? = none ∧ d.switch enabled key = d) := by
  unfold switch
  split
  · rename_i absent
    exact .inr ⟨absent, rfl⟩
  · rename_i index found
    obtain ⟨slot, living, owner⟩ := sound.lives found
    rw [setActive_live living]
    refine .inl ⟨index, slot, _, living, owner, rfl, ?_⟩
    cases enabled <;> exact ⟨rfl, rfl⟩

/-- A cell that may be removed is turned out, and its shape goes with it. -/
theorem evict_cases (sound : d.store.Sound) {store : Store} (found : d.store.indexOf key = some index)
    (retired : d.store.tryRetire index = (store, true)) :
    ∃ s' slot report, Departed d.store key s' index slot ∧ s'.Sound ∧ slot.refs = 0 ∧
      slot.stage.isInFlight = false ∧
      { d with store, planner := forget d.planner key }.evict key = { d with
        planner := forget d.planner key
        store := s'
        commands := slot.shape.elim d.commands fun shape => d.commands.post (.remove key shape)
        report } ∧
      report.acquired = d.report.acquired ∧ report.released = d.report.released := by
  obtain ⟨s', slot, removed, departed, kept, unreferenced, idle⟩ := retire_remove sound found retired
  refine ⟨s', slot, { d.report with removed := d.report.removed + 1 }, departed, kept, unreferenced, idle, ?_, rfl, rfl⟩
  simp only [evict, removed]

theorem Act.stillOpen (act : Act d d') :
    d'.commands.isOpen = d.commands.isOpen ∧ d'.requests.isOpen = d.requests.isOpen := by
  cases act with
  | count act => exact ⟨congrArg Mailbox.isOpen act.quiet.1, act.quiet.2.1⟩
  | light => exact ⟨rfl, rfl⟩
  | switch enabled key =>
    unfold Desk.switch
    split
    · exact ⟨rfl, rfl⟩
    · exact ⟨Mailbox.post_isOpen _ _, rfl⟩
  | evict =>
    unfold Desk.evict
    split
    · exact ⟨rfl, rfl⟩
    · rename_i removed _
      refine ⟨?_, rfl⟩
      dsimp only
      cases removed.shape with
      | none => rfl
      | some shape => exact Mailbox.post_isOpen _ _

theorem Acts.stillOpen (acts : Acts d d') :
    d'.commands.isOpen = d.commands.isOpen ∧ d'.requests.isOpen = d.requests.isOpen := by
  induction acts with
  | refl => exact ⟨rfl, rfl⟩
  | tail _ act ih => exact ⟨act.stillOpen.1.trans ih.1, act.stillOpen.2.trans ih.2⟩

/-- A planner orders shapes to be switched and to be removed, and no builds to be installed. -/
theorem Act.sends (act : Act d d') (ready : d.commands.isOpen = true) :
    ∃ sent, d'.commands.letters.toList = d.commands.letters.toList ++ sent ∧
      ∀ c ∈ sent, ∀ delivery, c ≠ .install delivery := by
  have posted {c : Command} (plain : ∀ delivery, c ≠ .install delivery) :
      ∃ sent, (d.commands.post c).letters.toList = d.commands.letters.toList ++ sent ∧
        ∀ c ∈ sent, ∀ delivery, c ≠ .install delivery := by
    refine ⟨[c], Mailbox.post_letters ready c, fun other listed => ?_⟩
    rw [List.mem_singleton.mp listed]
    exact plain
  have quiet : ∃ sent, d.commands.letters.toList = d.commands.letters.toList ++ sent ∧
      ∀ c ∈ sent, ∀ delivery, c ≠ Command.install delivery :=
    ⟨[], (List.append_nil _).symm, fun _ listed => absurd listed List.not_mem_nil⟩
  cases act with
  | count act =>
    rw [act.quiet.1]
    exact quiet
  | light => exact quiet
  | switch =>
    unfold Desk.switch
    split
    · exact quiet
    · exact posted fun _ => Command.noConfusion
  | evict =>
    unfold Desk.evict
    split
    · exact quiet
    · rename_i removed _
      dsimp only
      cases removed.shape with
      | none => exact quiet
      | some shape => exact posted fun _ => Command.noConfusion

theorem Acts.sends (acts : Acts d d') (ready : d.commands.isOpen = true) :
    ∃ sent, d'.commands.letters.toList = d.commands.letters.toList ++ sent ∧
      ∀ c ∈ sent, ∀ delivery, c ≠ .install delivery := by
  induction acts with
  | refl => exact ⟨[], (List.append_nil _).symm, fun _ listed => absurd listed List.not_mem_nil⟩
  | tail earlier act ih =>
    obtain ⟨sent, before, plain⟩ := ih
    obtain ⟨last, after, plainly⟩ := act.sends ((Acts.stillOpen earlier).1.trans ready)
    refine ⟨sent ++ last, by rw [after, before, List.append_assoc], fun c listed => ?_⟩
    rcases List.mem_append.mp listed with early | late
    · exact plain c early
    · exact plainly c late

end Desk

end TerrainStream.Residency
