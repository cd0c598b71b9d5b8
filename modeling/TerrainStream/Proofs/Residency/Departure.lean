import TerrainStream.Proofs.Pipeline.Passage

/-! How cells depart. A cell without references has a date for its removal, no later than the grace period
from now. Once nobody holds a cell and no body is tracked, a pass only waits for those dates. -/

namespace TerrainStream.Residency

open Cell Physics Store Collision Build

/-! ### Bodies that are tracked -/

/-- What an event says about tracking a body, if it says anything. -/
def Event.track? (body : BodyId) : Event → Option Bool
  | .bodyAdded other => if other = body then some true else none
  | .bodyRemoved other => if other = body then some false else none
  | _ => none

/-- Whether the last of the events that say anything about it has a body tracked. -/
def trackedAfter (past : List Event) (body : BodyId) : Bool := ((past.filterMap (·.track? body)).getLast?).getD false

theorem trackedAfter_append (past : List Event) (e : Event) (body : BodyId) :
    trackedAfter (past ++ [e]) body = (e.track? body).getD (trackedAfter past body) := by
  rw [trackedAfter, List.filterMap_append, List.getLast?_append]
  cases said : e.track? body with
  | none => simp [said, trackedAfter]
  | some tracked => simp [said]

/-- What is denied of whatever was ever affirmed is false in the end. -/
private theorem denied {said : Event → Option Bool} {past farewell : List Event}
    (denies : ∀ e ∈ farewell, said e ≠ some true)
    (answered : ∀ e ∈ past, said e = some true → ∃ e ∈ farewell, said e = some false) :
    (((past ++ farewell).filterMap said).getLast?).getD false = false := by
  have none_affirmed {events : List Event} (denies : ∀ e ∈ events, said e ≠ some true) :
      ((events.filterMap said).getLast?).getD false = false := by
    cases last : (events.filterMap said).getLast? with
    | none => rfl
    | some held =>
      obtain ⟨e, listed, same⟩ := List.mem_filterMap.mp (List.mem_of_getLast? last)
      cases held with
      | false => rfl
      | true => exact absurd same (denies e listed)
  by_cases silent : farewell.filterMap said = []
  · rw [List.filterMap_append, silent, List.append_nil]
    refine none_affirmed fun e listed affirmed => ?_
    obtain ⟨reply, sent, denial⟩ := answered e listed affirmed
    exact absurd (List.filterMap_eq_nil_iff.mp silent reply sent) (by simp [denial])
  · rw [List.filterMap_append, List.getLast?_append_of_ne_nil _ silent]
    exact none_affirmed denies

/-- A cell that is released after everything else is not held. -/
theorem heldAfter_farewell {past farewell : List Event} {key : Key} (denies : ∀ e ∈ farewell, e ≠ .requested key)
    (answered : .requested key ∈ past → .released key ∈ farewell) : heldAfter (past ++ farewell) key = false := by
  refine denied (fun e listed affirmed => denies e listed ?_) fun e listed affirmed => ?_
  · cases e <;> simp_all [Event.hold?]
  · have same : e = .requested key := by cases e <;> simp_all [Event.hold?]
    exact ⟨.released key, answered (same ▸ listed), by simp [Event.hold?]⟩

theorem trackedAfter_farewell {past farewell : List Event} {body : BodyId}
    (denies : ∀ e ∈ farewell, e ≠ .bodyAdded body)
    (answered : .bodyAdded body ∈ past → .bodyRemoved body ∈ farewell) :
    trackedAfter (past ++ farewell) body = false := by
  refine denied (fun e listed affirmed => denies e listed ?_) fun e listed affirmed => ?_
  · cases e <;> simp_all [Event.track?]
  · have same : e = .bodyAdded body := by cases e <;> simp_all [Event.track?]
    exact ⟨.bodyRemoved body, answered (same ▸ listed), by simp [Event.track?]⟩

/-! ### Dates -/

theorem passAfter_le (now delay : Nat) : passAfter now delay ≤ now + delay := Nat.mod_le ..

/-- A date within the passes that can be counted is the plain sum. -/
theorem passAfter_eq {now delay : Nat} (short : now + delay < UInt64.size) : passAfter now delay = now + delay :=
  Nat.mod_eq_of_lt short

/-- What of a cell's standing has to do with its removal. -/
structure Footing where
  now : Nat
  grace : Nat
  /-- Whether the cell is there at all. -/
  here : Bool
  refs : Nat
  leaving : Option Nat

/-- A cell that nobody references has a date for its removal, and no date is further off than the grace. -/
structure Footing.Dated (grace : Nat) (f : Footing) : Prop where
  pace : f.grace = grace
  listed : f.here = true → f.refs = 0 → f.leaving.isSome = true
  soon : ∀ due, f.leaving = some due → due ≤ f.now + grace

/-- Whether every configuration among some events has the same grace period. -/
def Paced (grace : Nat) (events : List Event) : Prop :=
  ∀ pacing margins, .configured pacing margins ∈ events → pacing.removalGrace = grace

theorem Paced.later {grace : Nat} {e : Event} {rest : List Event} (paced : Paced grace (e :: rest)) : Paced grace rest :=
  fun pacing margins listed => paced pacing margins (List.mem_cons_of_mem _ listed)

/-- Dates only come closer. -/
theorem Footing.Dated.tick {grace : Nat} {f : Footing} (dated : f.Dated grace) :
    ({ f with now := f.now + 1 }).Dated grace :=
  ⟨dated.pace, dated.listed, fun due date => Nat.le_trans (dated.soon due date) (Nat.add_le_add_right (Nat.le_succ _) _)⟩

/-- What one moment makes of a cell's footing. -/
inductive Footing.Turn (key : Key) : Option Event → Footing → Footing → Prop
  | same (event : Option Event) (f : Footing) : Turn key event f f
  | took (event : Option Event) (f : Footing) :
      Turn key event f { f with
        here := true
        refs := f.refs + 1
        leaving := if f.refs = 0 then none else f.leaving }
  | dropped (event : Option Event) {f : Footing} (here : f.here = true) :
      Turn key event f { f with
        refs := f.refs - 1
        leaving := if f.refs - 1 = 0 then some (f.leaving.getD (passAfter f.now f.grace)) else f.leaving }
  | unloaded {f : Footing} (here : f.here = true) (free : f.refs = 0) :
      Turn key (some (.cellUnloaded key)) f { f with leaving := some f.now }
  | configured (pacing : Pacing) (margins : Margins) (f : Footing) :
      Turn key (some (.configured pacing margins)) f { f with grace := pacing.removalGrace }

/-- No moment spoils a date as long as the grace period stays what it is. -/
theorem Footing.Turn.dated {grace : Nat} {key : Key} {event : Option Event} {f f' : Footing}
    (turn : Footing.Turn key event f f')
    (paced : ∀ pacing margins, event = some (.configured pacing margins) → pacing.removalGrace = grace)
    (dated : f.Dated grace) : f'.Dated grace := by
  obtain ⟨pace, listed, soon⟩ := dated
  cases turn with
  | same => exact ⟨pace, listed, soon⟩
  | took =>
    refine ⟨pace, fun _ free => (nomatch free), fun due date => ?_⟩
    dsimp only at date
    split at date
    · cases date
    · exact soon due date
  | dropped =>
    refine ⟨pace, fun here free => ?_, fun due date => ?_⟩ <;> dsimp only at *
    · rw [if_pos free]
      rfl
    · split at date
      · cases before : f.leaving with
        | none =>
          rw [before] at date
          rw [← Option.some.inj date, ← pace]
          exact passAfter_le f.now f.grace
        | some earlier =>
          rw [before] at date
          exact soon due (before.trans date)
      · exact soon due date
  | unloaded =>
    refine ⟨pace, fun _ _ => rfl, fun due date => ?_⟩
    rw [← Option.some.inj date]
    exact Nat.le_add_right _ _
  | configured pacing margins => exact ⟨paced pacing margins rfl, listed, soon⟩

namespace Standing

def footing (s : Standing) : Footing := ⟨s.now, s.pacing.removalGrace, s.slot.isSome, s.refs, s.leaving⟩

variable {grace : Nat} {s s' : Standing} {key : Key}

/-! Claims are nothing to a cell's footing. -/

theorem claim_footing (s : Standing) : s.claim.footing = s.footing := by
  unfold claim
  split
  · cases there : s.slot <;> simp [footing, refs, there]
  · rfl

theorem giveUp_footing (s : Standing) : s.giveUp.footing = s.footing := by
  unfold giveUp
  split
  · cases there : s.slot <;> simp [footing, refs, there]
  · rfl

theorem invalidate_footing (s : Standing) : s.invalidate.footing = s.footing := by
  unfold invalidate
  repeat' split
  all_goals first | rfl | exact s.claim_footing

theorem reconsider_footing (s : Standing) : s.reconsider.footing = s.footing := by
  unfold reconsider
  repeat' split
  all_goals first | rfl | exact s.claim_footing

theorem renew_footing (s : Standing) : s.renew.footing = s.footing := by
  unfold renew
  repeat' split
  all_goals first | rfl | exact s.claim_footing

theorem dispatched_footing (dispatched : Dispatched s s') : s'.footing = s.footing := by
  obtain ⟨waiting, queued, rfl, _⟩ := dispatched
  rfl

theorem resumed_footing (s : Standing) : s.resumed.footing = s.footing := by
  unfold Standing.resumed
  split
  · exact reconsider_footing _
  · rfl

theorem retried_footing (s : Standing) : s.retried.footing = s.footing := by
  unfold Standing.retried
  split
  · exact renew_footing _
  · rfl

theorem shed_footing (s : Standing) : s.shed.footing = s.footing := by
  unfold Standing.shed
  split
  · exact giveUp_footing _
  · rfl

/-- Only the sweep of a settling pass has to do with removal. -/
theorem settled_footing (s : Standing) : s.settled.footing = s.swept.footing := by
  rw [settled, shed_footing, retried_footing, resumed_footing]

theorem swept_refs (s : Standing) : s.swept.refs = s.refs := by
  unfold swept
  split
  · unfold expire
    split
    · rfl
    · rename_i slot there
      split
      · rfl
      · rename_i free
        split
        · rfl
        · simp [refs, there, not_not.mp free]
  · rfl

/-- A settling pass takes no reference and drops none. -/
theorem settled_refs (dispatched : Dispatched s.settled s') : s'.refs = s.refs :=
  (congrArg Footing.refs ((dispatched_footing dispatched).trans (settled_footing s))).trans (swept_refs s)

theorem settled_now (dispatched : Dispatched s.settled s') : s'.now = s.now := by
  refine (congrArg Footing.now ((dispatched_footing dispatched).trans (settled_footing s))).trans ?_
  unfold swept expire
  repeat' split
  all_goals rfl

/-- A settling pass gives up the claim that waits for a cell that nobody references. -/
theorem settled_waiting (free : s.refs = 0) (dispatched : Dispatched s.settled s') : s'.waiting = false := by
  obtain ⟨waiting, queued, rfl, _, _, before⟩ := dispatched
  have unneeded : s.swept.resumed.retried.refs = 0 := by
    have same := congrArg Footing.refs ((retried_footing s.swept.resumed).trans (resumed_footing s.swept))
    exact same.trans ((swept_refs s).trans free)
  refine Bool.eq_false_iff.mpr fun left => ?_
  have kept := before left
  rw [settled, shed, if_pos unneeded, giveUp] at kept
  split at kept
  · cases kept
  · rename_i idle
    exact idle kept

theorem take_footing (s : Standing) (key : Key) (version : UInt32) : (s.take (Slot.newcomer key version)).footing =
    { s.footing with here := true, refs := s.refs + 1, leaving := if s.refs = 0 then none else s.leaving } := by
  have welcomed (s : Standing) : s.welcome.footing = { s.footing with leaving := none } := by
    unfold welcome
    dsimp only
    split
    · exact claim_footing _
    · rfl
  have refs : (s.slot.getD (Slot.newcomer key version)).refs = s.refs := by
    cases there : s.slot <;> simp [Standing.refs, there, Slot.newcomer]
  unfold take
  dsimp only
  rw [refs]
  split
  · rw [welcomed]
    simp [footing, Standing.refs]
  · simp [footing, Standing.refs]

theorem take_turn (s : Standing) (event : Option Event) (key : Key) (version : UInt32) :
    Footing.Turn key event s.footing (s.take (Slot.newcomer key version)).footing := by
  rw [take_footing]
  exact .took event s.footing

theorem drop_turn (s : Standing) (event : Option Event) (key : Key) :
    Footing.Turn key event s.footing s.drop.footing := by
  cases there : s.slot with
  | none =>
    have same : s.drop = s := by simp [drop, there]
    rw [same]
    exact .same event s.footing
  | some slot =>
    have here : s.footing.here = true := by simp [footing, there]
    have dropped : s.drop.footing = { s.footing with
        refs := s.footing.refs - 1
        leaving := if s.footing.refs - 1 = 0 then some (s.leaving.getD (passAfter s.now s.pacing.removalGrace))
          else s.leaving } := by
      have refs : s.footing.refs = slot.refs := by simp [footing, Standing.refs, there]
      rw [refs]
      simp only [drop, there]
      split <;> simp [footing, Standing.refs, there]
    rw [dropped]
    exact .dropped event here

theorem unload_turn (s : Standing) (key : Key) :
    Footing.Turn key (some (.cellUnloaded key)) s.footing s.unload.footing := by
  have kept : ({ s.giveUp with deferred := false } : Standing).footing = s.footing := giveUp_footing s
  unfold unload
  dsimp only
  split
  · rw [kept]
    exact .same _ _
  · rename_i slot there
    split
    · rename_i free
      have here : s.footing.here = true := (congrArg Footing.here kept).symm.trans (by simp [footing, there])
      have unreferenced : s.footing.refs = 0 :=
        (congrArg Footing.refs kept).symm.trans (by simp [footing, refs, there, free])
      have left : ({ s.giveUp with deferred := false, leaving := some s.giveUp.now } : Standing).footing =
          { s.footing with leaving := some s.footing.now } := by
        rw [← kept]
        rfl
      rw [left]
      exact .unloaded here unreferenced
    · have left : ({ s.giveUp with deferred := false } : Standing).postpone.footing = s.footing := kept
      rw [left]
      exact .same _ _

theorem stir_dated (key : Key) (dated : s.footing.Dated grace) (stir : Stir s s') : s'.footing.Dated grace := by
  cases stir with
  | take key version => exact (s.take_turn none key version).dated nofun dated
  | drop => exact (s.drop_turn none key).dated nofun dated
  | invalidate => rwa [invalidate_footing]
  | renew => rwa [renew_footing]
  | remind => exact dated

/-- Nothing spoils the dates as long as the grace period stays what it is. -/
theorem dated_persists (grace : Nat) (key : Key) :
    Persists key fun events s => Paced grace events ∧ s.footing.Dated grace where
  unloaded _ s kept := ⟨kept.1.later, (s.unload_turn key).dated nofun kept.2⟩
  unavailable _ _ kept := ⟨kept.1.later, kept.2⟩
  configured pacing margins _ _ kept :=
    ⟨kept.1.later, kept.1 pacing margins List.mem_cons_self, kept.2.listed, kept.2.soon⟩
  other _ _ _ _ _ kept := ⟨kept.1.later, kept.2⟩
  stir _ _ _ stir kept := ⟨kept.1, stir_dated key kept.2 stir⟩

/-- The sweep strikes out a date if the cell is gone by then or referenced, and otherwise leaves the cell alone. -/
theorem swept_cases (s : Standing) : s.swept = s ∨
    (s.swept.footing = { s.footing with here := s.swept.slot.isSome, leaving := none } ∧
      (s.swept.slot.isSome = true → 0 < s.refs)) := by
  have refs := s.swept_refs
  unfold swept at *
  split at refs
  · rename_i past
    rw [if_pos past]
    unfold expire at *
    split
    · rename_i absent
      exact .inr ⟨rfl, fun here => by simp [absent] at here⟩
    · rename_i slot there
      split
      · rename_i held
        exact .inr ⟨rfl, fun _ => by simpa [Standing.refs, there] using Nat.pos_of_ne_zero held⟩
      · rename_i free
        split
        · exact .inl rfl
        · refine .inr ⟨?_, fun here => by cases here⟩
          simp [footing, Standing.refs, there, not_not.mp free]
  · rename_i future
    rw [if_neg future]
    exact .inl rfl

/-- Settling keeps dates, and takes none away from a cell that stays. -/
theorem settled_dated (dated : s.footing.Dated grace) (dispatched : Dispatched s.settled s') :
    s'.footing.Dated grace := by
  rw [dispatched_footing dispatched, settled_footing]
  rcases s.swept_cases with same | ⟨same, held⟩
  · rwa [same]
  · rw [same]
    exact ⟨dated.pace, fun here free => absurd free (Nat.ne_of_gt (held here)), fun due none => by cases none⟩

/-- A cell that is idle and unreferenced is removed on its date, and is left alone before it. -/
theorem settled_unreferenced (free : s.refs = 0) (idle : ∀ slot, s.slot = some slot → slot.stage.isInFlight = false)
    (dispatched : Dispatched s.settled s') (still : s'.slot.isSome = true) :
    s.slot.isSome = true ∧ s'.leaving = s.leaving ∧ ∀ due, s.leaving = some due → s.now < due := by
  have same := (dispatched_footing dispatched).trans (settled_footing s)
  have here : s.swept.slot.isSome = true := (congrArg Footing.here same).symm.trans still
  have dates : s'.leaving = s.swept.leaving := congrArg Footing.leaving same
  rw [dates]
  unfold swept at here ⊢
  split at here
  · rename_i past
    unfold expire at here
    split at here
    · rename_i absent
      simp [absent] at here
    · rename_i slot there
      have unreferenced : slot.refs = 0 := by simpa [refs, there] using free
      simp [unreferenced, idle slot there] at here
  · rename_i future
    refine ⟨here, by rw [if_neg future], fun due date => ?_⟩
    simpa [date] using future

end Standing

namespace Desk

variable {d d' : Desk} {jobs : List Job} {batch queued : List Event} {probe : BodyId → Option Pose}

/-! ### Who is tracked -/

theorem release_trackers (d : Desk) (key : Key) : (d.release key).planner.trackers = d.planner.trackers := by
  unfold release
  split
  · rfl
  · dsimp only
    split <;> rfl

theorem releaseAll_trackers (d : Desk) (keys : List Key) : (d.releaseAll keys).planner.trackers = d.planner.trackers := by
  induction keys generalizing d with
  | nil => rfl
  | cons key keys ih => exact (ih (d.release key)).trans (release_trackers d key)

/-- Whether a body is tracked after an event is what the event says of it, if it says anything. -/
theorem applyEvent_tracked {e : Event} (sound : d.store.Sound) (applied : d.applyEvent e = .ok d') (body : BodyId) :
    (d'.planner.trackers[body]?).isSome = (e.track? body).getD (d.planner.trackers[body]?).isSome := by
  have silent (same : d'.planner.trackers = d.planner.trackers) (mute : e.track? body = none) :
      (d'.planner.trackers[body]?).isSome = (e.track? body).getD (d.planner.trackers[body]?).isSome := by
    rw [same, mute, Option.getD_none]
  cases e with
  | bodyAdded other =>
    cases applied
    dsimp only
    cases there : d.planner.trackers[other]? with
    | some tracker =>
      rw [Table.insertIfNew_present there]
      by_cases same : other = body
      · rw [← same, there]
        simp [Event.track?]
      · simp [Event.track?, same]
    | none =>
      rw [Table.insertIfNew_absent there, Table.getElem?_insert]
      by_cases same : other = body <;> simp [Event.track?, same]
  | bodyRemoved other =>
    simp only [applyEvent] at applied
    split at applied
    · rename_i absent
      cases applied
      by_cases same : other = body
      · rw [← same, absent]
        simp [Event.track?]
      · simp [Event.track?, same]
    · cases applied
      rw [releaseAll_trackers]
      dsimp only
      rw [Table.getElem?_erase]
      by_cases same : other = body <;> simp [Event.track?, same]
  | voxelEdited place =>
    cases applied
    exact silent (edited_clerical d place).framed.trackers rfl
  | cellUnloaded key =>
    cases applied
    exact silent (unload_clerical d key).framed.trackers rfl
  | requested key =>
    simp only [applyEvent] at applied
    split at applied
    · cases applied
      exact silent rfl rfl
    · generalize held : ({ d with planner := { d.planner with holds := d.planner.holds.insert key } } : Desk) = next
        at applied
      have kept : next.planner.trackers = d.planner.trackers := by rw [← held]
      have taken := acquire_moved (d := next) (by rw [← held]; exact sound) applied
      exact silent (taken.trackers.trans kept) rfl
  | released key =>
    simp only [applyEvent] at applied
    split at applied
    · cases applied
      exact silent (release_trackers _ key) rfl
    · cases applied
      exact silent rfl rfl
  | prioritized key priority =>
    cases applied
    exact silent (prioritize_clerical d key priority).framed.trackers rfl
  | snapshotUnavailable | claimAbandoned | configured | shutdown =>
    cases applied
    exact silent rfl rfl

theorem applyEvents_tracked {past : List Event} (orderly : d.Orderly jobs) (applied : d.applyEvents batch = .ok d')
    {body : BodyId} (tracked : (d.planner.trackers[body]?).isSome = trackedAfter past body) :
    (d'.planner.trackers[body]?).isSome = trackedAfter (past ++ batch) body := by
  induction batch generalizing d past with
  | nil =>
    cases applied
    rwa [List.append_nil]
  | cons e batch ih =>
    obtain ⟨next, first, applied⟩ := foldlM_cons_ok.mp applied
    have heard : (next.planner.trackers[body]?).isSome = trackedAfter (past ++ [e]) body := by
      rw [applyEvent_tracked orderly.sound first, tracked, trackedAfter_append]
    have reached := ih (orderly.attempt (applyEvent_counted d e) first) applied heard
    rwa [List.append_assoc] at reached

/-- Following a body tracks no other. -/
theorem follow_tracked {update : BodyId × Option Cells} (sound : d.store.Sound) (followed : d.follow update = .ok d')
    (body : BodyId) : (d'.planner.trackers[body]?).isSome = (d.planner.trackers[body]?).isSome := by
  unfold follow at followed
  split at followed
  · rename_i cells tracker wanted found
    dsimp only at followed
    generalize enrolled : ({ d with planner := { d.planner with
      trackers := d.planner.trackers.insert update.1 (tracker.adopt cells).1 } } : Desk) = next at followed
    obtain ⟨middle, acquired, rfl⟩ := map_ok.mp followed
    have taken := acquireAll_moved (d := next) (by rw [← enrolled]; exact sound) acquired
    rw [releaseAll_trackers, taken.trackers, ← enrolled]
    dsimp only
    rw [Table.getElem?_insert]
    split
    · rename_i here
      rw [← here, found]
      rfl
    · rfl
  · cases followed
    rfl

theorem followAll_tracked (sound : d.store.Sound) (followed : d.followAll probe = .ok d') (body : BodyId) :
    (d'.planner.trackers[body]?).isSome = (d.planner.trackers[body]?).isSome := by
  unfold followAll at followed
  generalize d.planner.trackers.toList.map _ = updates at followed
  induction updates generalizing d with
  | nil =>
    cases followed
    rfl
  | cons update updates ih =>
    obtain ⟨next, first, followed⟩ := foldlM_cons_ok.mp followed
    rw [ih (follow_stirs sound first).sound followed, follow_tracked sound first]

/-- After a pass a body is tracked if the last event that speaks of it adds it. -/
theorem pass_tracked {past : List Event} (orderly : d.Orderly jobs) (passed : d.pass queued probe = .ok d')
    {body : BodyId} (tracked : (d.planner.trackers[body]?).isSome = trackedAfter past body) :
    (d'.planner.trackers[body]?).isSome = trackedAfter (past ++ (d.planner.inbox ++ queued)) body := by
  obtain ⟨applied, followed, applying, following, rfl⟩ := pass_cases passed
  have opened := orderly.opened (d.planner.inbox ++ queued).length
  have heard := opened.attempt (applyEvents_counted _ _) applying
  have gone := heard.attempt (followAll_counted applied probe) following
  rw [(closed_noted followed.settle).trackers, (settle_steady gone.sound).trackers,
    followAll_tracked heard.sound following]
  exact applyEvents_tracked opened applying tracked

/-- After a pass no claim waits for a cell that nobody references. -/
theorem pass_waiting (orderly : d.Orderly jobs) (passed : d.pass queued probe = .ok d') {key : Key}
    (free : (d'.standing key).refs = 0) : (d'.standing key).waiting = false := by
  have anyhow : Persists key fun _ _ => True := by constructor <;> intros <;> trivial
  obtain ⟨_, s, _, dispatched⟩ := pass_keeps anyhow orderly passed (List.nil_append _).symm rfl trivial
  exact Standing.settled_waiting ((Standing.settled_refs dispatched).symm.trans free) dispatched

/-! ### Passes that cannot fail -/

/-- Only a request can find no room. -/
theorem applyEvents_succeed (unasked : ∀ key, .requested key ∉ batch) : ∃ d', d.applyEvents batch = .ok d' := by
  induction batch generalizing d with
  | nil => exact ⟨d, rfl⟩
  | cons e batch ih =>
    obtain ⟨next, first⟩ : ∃ next, d.applyEvent e = .ok next := by
      cases e with
      | requested key => exact absurd List.mem_cons_self (unasked key)
      | bodyRemoved body =>
        simp only [applyEvent]
        split <;> exact ⟨_, rfl⟩
      | released key =>
        simp only [applyEvent]
        split <;> exact ⟨_, rfl⟩
      | _ => exact ⟨_, rfl⟩
    obtain ⟨last, rest⟩ := ih (d := next) fun key later => unasked key (List.mem_cons_of_mem _ later)
    exact ⟨last, foldlM_cons_ok.mpr ⟨next, first, rest⟩⟩

theorem followAll_untracked (untracked : ∀ body : BodyId, d.planner.trackers[body]? = none) :
    d.followAll probe = .ok d := by
  rw [followAll, Table.toList_bare untracked]
  rfl

/-- Without holds and bodies a cell has no holders. -/
theorem unheld {p : Planner} (free : ∀ key, p.holds.contains key = false)
    (untracked : ∀ body : BodyId, p.trackers[body]? = none) (key : Key) : p.holders key = 0 := by
  rw [Planner.holders, free, followers, Table.toList_bare untracked]
  rfl

/-- A pass goes well if nothing is requested and no body is tracked once the events have been applied. -/
theorem pass_succeeds {past : List Event} (orderly : d.Orderly jobs)
    (tracked : ∀ body : BodyId, (d.planner.trackers[body]?).isSome = trackedAfter past body)
    (unasked : ∀ key, .requested key ∉ d.planner.inbox ++ queued)
    (untracked : ∀ body, trackedAfter (past ++ (d.planner.inbox ++ queued)) body = false) :
    ∃ d', d.pass queued probe = .ok d' := by
  obtain ⟨applied, applying⟩ := applyEvents_succeed (d := d.opened (d.planner.inbox ++ queued).length) unasked
  have alone (body : BodyId) : applied.planner.trackers[body]? = none := by
    have known := applyEvents_tracked (orderly.opened (d.planner.inbox ++ queued).length) applying (tracked body)
    rwa [untracked, Option.isSome_eq_false_iff, Option.isNone_iff_eq_none] at known
  exact ⟨_, map_ok.mpr ⟨applied, bind_ok.mpr ⟨applied, applying, followAll_untracked alone⟩, rfl⟩⟩

end Desk

/-! ### Answers to requests -/

/-- Whether an event is sent by the pipeline itself, as its answer to a request. -/
def Event.IsAnswer : Event → Prop
  | .claimAbandoned _ | .snapshotUnavailable _ => True
  | _ => False

namespace Desk

variable {d d' : Desk} {jobs : List Job} {batch queued : List Event} {probe : BodyId → Option Pose}

/-- Answers are noted for a retry, and that is all. -/
theorem applyEvents_answers (answers : ∀ e ∈ batch, e.IsAnswer) :
    ∃ retry, d.applyEvents batch = .ok { d with planner := { d.planner with retry } } := by
  induction batch generalizing d with
  | nil => exact ⟨d.planner.retry, rfl⟩
  | cons e batch ih =>
    obtain ⟨noted, first⟩ : ∃ noted, d.applyEvent e = .ok { d with planner := { d.planner with retry := noted } } := by
      have answer := answers e List.mem_cons_self
      cases e <;> first | exact ⟨_, rfl⟩ | exact answer.elim
    obtain ⟨retry, rest⟩ := ih (d := { d with planner := { d.planner with retry := noted } })
      fun e later => answers e (List.mem_cons_of_mem _ later)
    exact ⟨retry, foldlM_cons_ok.mpr ⟨_, first, rest⟩⟩

/-- With answers alone to apply and no body to follow, a pass comes to settling, and a cell may have heard of a
retry at most. -/
theorem pass_answers (orderly : d.Orderly jobs) (answers : ∀ e ∈ d.planner.inbox ++ queued, e.IsAnswer)
    (untracked : ∀ body : BodyId, d.planner.trackers[body]? = none) (probe : BodyId → Option Pose) :
    ∃ d', d.pass queued probe = .ok d' ∧ d'.planner.holds = d.planner.holds ∧
      d'.planner.trackers = d.planner.trackers ∧ ∀ key, ∃ retry,
        Dispatched ({ d.standing key with now := d.planner.passes + 1, retry } : Standing).settled (d'.standing key) := by
  have opened := orderly.opened (d.planner.inbox ++ queued).length
  obtain ⟨retry, applying⟩ := applyEvents_answers (d := d.opened (d.planner.inbox ++ queued).length) answers
  generalize noted : ({ d.opened (d.planner.inbox ++ queued).length with planner := {
    (d.opened (d.planner.inbox ++ queued).length).planner with retry } } : Desk) = heard at applying
  have holds : heard.planner.holds = d.planner.holds := by rw [← noted]; rfl
  have trackers : heard.planner.trackers = d.planner.trackers := by rw [← noted]; rfl
  have shown (key : Key) : heard.standing key = { d.standing key with now := d.planner.passes + 1, retry := retry[key]? } := by
    rw [← noted]
    rfl
  have orderly := opened.attempt (applyEvents_counted _ _) applying
  have following : heard.followAll probe = .ok heard := followAll_untracked (trackers ▸ untracked)
  have steady := settle_steady orderly.sound
  have closing := closed_noted heard.settle
  have settled (key : Key) := settle_standing orderly key
  have passed : d.pass queued probe = .ok heard.settle.closed :=
    map_ok.mpr ⟨heard, bind_ok.mpr ⟨heard, applying, following⟩, rfl⟩
  generalize heard.settle = last at passed steady closing settled
  refine ⟨last.closed, passed, closing.holds.trans (steady.holds.trans holds),
    closing.trackers.trans (steady.trackers.trans trackers), fun key => ⟨retry[key]?, ?_⟩⟩
  rw [← shown]
  exact settled key

end Desk

end TerrainStream.Residency
