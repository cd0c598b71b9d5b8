import TerrainStream.Proofs.Residency.Acts

/-! References and their holders. A cell has as many references as it has holders: a hold from outside
counts for one, and so does every tracker that needs the cell. -/

namespace TerrainStream.Residency

open Cell Physics Store Collision

/-- The trackers of a table that need a cell. -/
def followers (trackers : Std.ExtTreeMap BodyId Tracker) (key : Key) : Nat :=
  trackers.toList.countP fun t => t.2.cells.resident.contains key

/-- The holders of a cell. -/
def Planner.holders (p : Planner) (key : Key) : Nat := (p.holds.contains key).toNat + followers p.trackers key

/-- What an event says about holding a cell for a caller outside, if it says anything. -/
def Event.hold? (key : Key) : Event → Option Bool
  | .requested other => if other = key then some true else none
  | .released other => if other = key then some false else none
  | _ => none

/-- Whether the last of the events that say anything about it has a cell held. -/
def heldAfter (past : List Event) (key : Key) : Bool := ((past.filterMap (·.hold? key)).getLast?).getD false

theorem heldAfter_append (past : List Event) (e : Event) (key : Key) :
    heldAfter (past ++ [e]) key = (e.hold? key).getD (heldAfter past key) := by
  rw [heldAfter, List.filterMap_append, List.getLast?_append]
  cases said : e.hold? key with
  | none => simp [said, heldAfter]
  | some held => simp [said]

theorem hold_requested (holds : KeySet) (key other : Key) :
    (holds.insert key).contains other = ((Event.requested key).hold? other).getD (holds.contains other) := by
  rw [Table.contains_insert, Event.hold?]
  by_cases same : key = other <;> simp [same]

theorem hold_released (holds : KeySet) (key other : Key) :
    (holds.erase key).contains other = ((Event.released key).hold? other).getD (holds.contains other) := by
  rw [Table.contains_erase, Event.hold?]
  by_cases same : key = other <;> simp [same]

/-- An event that repeats what is so already changes nothing. -/
theorem hold_repeated {holds : KeySet} {event : Event} {key : Key} (other : Key)
    (said : event = .requested key ∧ holds.contains key = true ∨ event = .released key ∧ holds.contains key = false) :
    holds.contains other = (event.hold? other).getD (holds.contains other) := by
  by_cases same : key = other
  · subst other
    rcases said with ⟨rfl, held⟩ | ⟨rfl, free⟩
    · simpa [Event.hold?] using held
    · simpa [Event.hold?] using free
  · rcases said with ⟨rfl, _⟩ | ⟨rfl, _⟩ <;> simp [Event.hold?, same]

section Followers

variable {trackers : Std.ExtTreeMap BodyId Tracker} {body : BodyId} {tracker : Tracker}

theorem followers_erase (found : trackers[body]? = some tracker) (key : Key) :
    followers trackers key = followers (trackers.erase body) key + (tracker.cells.resident.contains key).toNat := by
  rw [followers, (Table.toList_erase found).countP_eq, List.countP_cons]
  cases tracker.cells.resident.contains key <;> rfl

theorem followers_insert (trackers : Std.ExtTreeMap BodyId Tracker) (body : BodyId) (tracker : Tracker) (key : Key) :
    followers (trackers.insert body tracker) key =
      followers (trackers.erase body) key + (tracker.cells.resident.contains key).toNat := by
  rw [followers, (Table.toList_insert trackers body tracker).countP_eq, List.countP_cons]
  cases tracker.cells.resident.contains key <;> rfl

theorem followers_empty (key : Key) : followers ∅ key = 0 := by
  rw [followers, Std.ExtTreeMap.toList_eq_nil_iff.mpr rfl]
  rfl

/-- A cell has no more holders than one for a caller outside and one for each body. -/
theorem holders_le (p : Planner) (key : Key) : p.holders key ≤ p.trackers.size + 1 := by
  have bodies : followers p.trackers key ≤ p.trackers.size := by
    rw [← Std.ExtTreeMap.length_toList]
    exact List.countP_le_length
  have caller := Bool.toNat_le (p.holds.contains key)
  unfold Planner.holders
  omega

/-- A body that has just been added needs nothing yet. -/
theorem followers_new (trackers : Std.ExtTreeMap BodyId Tracker) (body : BodyId) (key : Key) :
    followers (trackers.insertIfNew body (Tracker.new body)) key = followers trackers key := by
  cases found : trackers[body]? with
  | some tracker => rw [Table.insertIfNew_present found]
  | none =>
    have nothing : (Tracker.new body).cells.resident.contains key = false := Std.ExtTreeSet.contains_empty
    rw [Table.insertIfNew_absent found, followers_insert, Table.erase_absent found, nothing]
    rfl

end Followers

namespace Desk

variable {d d' d'' : Desk} {key : Key}

/-- References were taken on some cells and dropped on others, each of them counted, and nobody was removed. -/
structure Moved (d d' : Desk) (taken dropped : List Key) : Prop where
  sound : d'.store.Sound
  refs : ∀ key, d'.store.refsOf key + dropped.count key = d.store.refsOf key + taken.count key
  total : d'.store.total + d'.report.released + d.report.acquired =
    d.store.total + d.report.released + d'.report.acquired
  stays : ∀ (key : Key) i, d.store.index[key]? = some i → d'.store.index[key]? = some i
  holds : d'.planner.holds = d.planner.holds
  trackers : d'.planner.trackers = d.planner.trackers

theorem Moved.trans {taken dropped taken' dropped' : List Key} (first : Moved d d' taken dropped)
    (second : Moved d' d'' taken' dropped') : Moved d d'' (taken ++ taken') (dropped ++ dropped') := by
  refine ⟨second.sound, ?_, ?_, fun key i found => second.stays key i (first.stays key i found),
    second.holds.trans first.holds, second.trackers.trans first.trackers⟩
  · intro key
    have before := first.refs key
    have after := second.refs key
    simp only [List.count_append]
    omega
  · have before := first.total
    have after := second.total
    omega

/-- What a pass may do to notes, claims and requests moves no reference. -/
theorem Framed.moved (framed : Framed d d') (sound : d.store.Sound) : Moved d d' [] [] := by
  obtain ⟨refs, total, index⟩ := outline_level framed.outline
  refine ⟨sound.of_outline framed.outline, refs, ?_, ?_, framed.holds, framed.trackers⟩
  · rw [total, framed.acquired, framed.released]
  · intro key i found
    rw [index]
    exact found

theorem Moved.refl (sound : d.store.Sound) : Moved d d [] [] :=
  ⟨sound, fun _ => rfl, rfl, fun _ _ found => found, rfl, rfl⟩

private theorem entered_moved (sound : d.store.Sound) {store : Store} {index : Nat}
    (added : d.store.add key = (store, .ok index)) : Moved d { d with store } [] [] := by
  rcases added_cases sound added with rfl | ⟨admitted, kept⟩
  · exact Moved.refl sound
  · refine ⟨kept, fun other => admitted.refsOf sound kept other, ?_, fun _ _ found => admitted.stays found, rfl, rfl⟩
    exact congrArg (· + d.report.released + d.report.acquired) admitted.total

/-- One reference is taken on a cell that is there. -/
private theorem retained_moved (sound : d.store.Sound) {index : Nat} {slot : Slot}
    (living : d.store.live? index = some slot) :
    Moved d { d with
      store := d.store.put index { slot with refs := slot.refs + 1 }
      report := { d.report with acquired := d.report.acquired + 1 } } [slot.key] [] := by
  have kept : ({ slot with refs := slot.refs + 1 } : Slot).live = slot.live := rfl
  have counted := refsOf_live sound living
  refine ⟨sound.put living kept rfl, ?_, ?_, fun _ _ found => found, rfl, rfl⟩
  · intro other
    change (d.store.put index _).refsOf other + _ = _
    rw [refsOf_put sound living kept, List.count_singleton]
    by_cases here : slot.key = other
    · subst other
      simp [counted]
    · simp [here]
  · have sum := total_put living kept
    dsimp only at sum ⊢
    omega

/-- One reference is dropped on a cell that has one. -/
private theorem dropped_moved (sound : d.store.Sound) {index : Nat} {slot : Slot}
    (living : d.store.live? index = some slot) (held : 0 < slot.refs) :
    Moved d { d with
      store := d.store.put index { slot with refs := slot.refs - 1 }
      report := { d.report with released := d.report.released + 1 } } [] [slot.key] := by
  have kept : ({ slot with refs := slot.refs - 1 } : Slot).live = slot.live := rfl
  have counted := refsOf_live sound living
  refine ⟨sound.put living kept rfl, ?_, ?_, fun _ _ found => found, rfl, rfl⟩
  · intro other
    change (d.store.put index _).refsOf other + _ = _
    rw [refsOf_put sound living kept, List.count_singleton]
    by_cases here : slot.key = other
    · subst other
      simp only [↓reduceIte, beq_self_eq_true, counted, List.count_nil]
      omega
    · simp [here]
  · have sum := total_put living kept
    dsimp only at sum ⊢
    omega

/-- Taking a reference, if there is room for the cell, takes exactly one on it. -/
theorem acquire_moved (sound : d.store.Sound) (acquired : d.acquire key = .ok d') : Moved d d' [key] [] := by
  unfold acquire at acquired
  split at acquired
  · cases acquired
  · rename_i store index added
    have entered := entered_moved sound added
    have found := add_indexed added
    obtain ⟨slot, living, rfl⟩ := entered.sound.lives found
    have living : store.live? index = some slot := living
    rw [retain_live living] at acquired
    have retained := entered.trans (retained_moved (d := { d with store }) entered.sound living)
    cases acquired
    dsimp only
    split
    · refine retained.trans (Framed.moved (Clerical.framed (welcome_clerical ?_)) retained.sound)
      exact found
    · exact retained

/-- Dropping a reference that is there drops exactly one. -/
theorem release_moved (sound : d.store.Sound) (held : 0 < d.store.refsOf key) : Moved d (d.release key) [] [key] := by
  obtain ⟨index, found⟩ := indexed_of_refs held
  obtain ⟨slot, living, rfl⟩ := sound.lives found
  rw [refsOf_live sound living] at held
  have found : d.store.indexOf slot.key = some index := found
  have dropped := dropped_moved sound living held
  simp only [release, found, release_live living]
  split
  · refine dropped.trans (Framed.moved (Noted.framed ?_) dropped.sound)
    constructor <;> rfl
  · exact dropped

theorem acquireAll_moved {keys : List Key} (sound : d.store.Sound) (acquired : d.acquireAll keys = .ok d') :
    Moved d d' keys [] := by
  induction keys generalizing d with
  | nil =>
    cases acquired
    exact Moved.refl sound
  | cons key keys ih =>
    obtain ⟨next, first, acquired⟩ := foldlM_cons_ok.mp acquired
    have taken := acquire_moved sound first
    exact taken.trans (ih taken.sound acquired)

/-- Dropping references in turn drops them all, as long as there are enough of them at the start. -/
theorem releaseAll_moved {keys : List Key} (sound : d.store.Sound) (held : ∀ key, keys.count key ≤ d.store.refsOf key) :
    Moved d (d.releaseAll keys) [] keys := by
  induction keys generalizing d with
  | nil => exact Moved.refl sound
  | cons key keys ih =>
    have enough : 0 < d.store.refsOf key := by
      have one := held key
      rw [List.count_cons_self] at one
      omega
    have dropped := release_moved sound enough
    refine dropped.trans (ih dropped.sound fun other => ?_)
    have left := dropped.refs other
    have bound := held other
    simp only [List.count_cons, List.count_nil] at left bound
    omega

/-- Every cell has as many references as holders. -/
structure Balanced (d : Desk) : Prop where
  sound : d.store.Sound
  even : ∀ key, d.store.refsOf key = d.planner.holders key

/-- References moved and the holders changed in step with them. -/
theorem Moved.balanced {taken dropped : List Key} (moved : Moved d d' taken dropped)
    (even : ∀ key, d'.planner.holders key + dropped.count key = d.store.refsOf key + taken.count key) : Balanced d' := by
  refine ⟨moved.sound, fun key => ?_⟩
  have refs := moved.refs key
  have holders := even key
  omega

theorem Moved.holders {taken dropped : List Key} (moved : Moved d d' taken dropped) (key : Key) :
    d'.planner.holders key = d.planner.holders key := by
  rw [Planner.holders, moved.holds, moved.trackers, Planner.holders]

/-- A stretch of a pass after which references and holders agree again. -/
structure Evened (d d' : Desk) : Prop where
  balanced : Balanced d'
  total : d'.store.total + d'.report.released + d.report.acquired =
    d.store.total + d.report.released + d'.report.acquired
  stays : ∀ (key : Key) i, d.store.index[key]? = some i → d'.store.index[key]? = some i

theorem Evened.trans (first : Evened d d') (second : Evened d' d'') : Evened d d'' := by
  refine ⟨second.balanced, ?_, fun key i found => second.stays key i (first.stays key i found)⟩
  have before := first.total
  have after := second.total
  omega

theorem Balanced.evened (balanced : Balanced d) : Evened d d := ⟨balanced, rfl, fun _ _ found => found⟩

theorem Moved.evened {taken dropped : List Key} (moved : Moved d d' taken dropped)
    (even : ∀ key, d'.planner.holders key + dropped.count key = d.store.refsOf key + taken.count key) :
    Evened d d' := ⟨moved.balanced even, moved.total, moved.stays⟩

theorem Balanced.framed (balanced : Balanced d) (framed : Framed d d') : Evened d d' := by
  have moved := framed.moved balanced.sound
  exact moved.evened fun key => by rw [moved.holders, balanced.even key]

private theorem bodyAdded_evened (balanced : Balanced d) (body : BodyId) :
    Evened d { d with planner := { d.planner with
      trackers := d.planner.trackers.insertIfNew body (Tracker.new body) } } := by
  refine ⟨⟨balanced.sound, fun key => ?_⟩, rfl, fun _ _ found => found⟩
  simp only [Planner.holders, followers_new]
  exact balanced.even key

/-- A body that is removed gives back each of its references, and each of them once. -/
theorem bodyRemoved_moved (balanced : Balanced d) {body : BodyId} {tracker : Tracker}
    (found : d.planner.trackers[body]? = some tracker) :
    Moved { d with planner := { d.planner with trackers := d.planner.trackers.erase body } }
      ({ d with planner := { d.planner with trackers := d.planner.trackers.erase body } }.releaseAll tracker.held)
      [] tracker.held := by
  refine releaseAll_moved balanced.sound fun key => ?_
  change tracker.held.count key ≤ d.store.refsOf key
  have share := followers_erase found key
  rw [balanced.even key, Planner.holders, share, Tracker.held, Table.count_listed]
  omega

private theorem bodyRemoved_evened (balanced : Balanced d) {body : BodyId} {tracker : Tracker}
    (found : d.planner.trackers[body]? = some tracker) :
    Evened d
      ({ d with planner := { d.planner with trackers := d.planner.trackers.erase body } }.releaseAll tracker.held) := by
  have moved := bodyRemoved_moved balanced found
  refine ⟨moved.balanced fun key => ?_, moved.total, moved.stays⟩
  have share := followers_erase found key
  have even := balanced.even key
  rw [moved.holders, Tracker.held, Table.count_listed]
  simp only [Planner.holders, List.count_nil] at even ⊢
  omega

/-- Removing a body drops its tracker and gives back one reference on each cell that the tracker needed; a body
that is unknown, or removed once more, gives back nothing. -/
theorem bodyRemoved_returns (balanced : Balanced d) (body : BodyId) :
    ∃ d', d.applyEvent (.bodyRemoved body) = .ok d' ∧ d'.planner.trackers[body]? = none ∧
      ∀ key, d'.store.refsOf key + ((d.planner.trackers[body]?).any (·.cells.resident.contains key)).toNat =
        d.store.refsOf key := by
  cases found : d.planner.trackers[body]? with
  | none => exact ⟨d, by simp [applyEvent, found], found, fun key => rfl⟩
  | some tracker =>
    have moved := bodyRemoved_moved balanced found
    have answer : d.applyEvent (.bodyRemoved body) = .ok
        ({ d with planner := { d.planner with trackers := d.planner.trackers.erase body } }.releaseAll tracker.held) := by
      simp only [applyEvent, found]
    refine ⟨_, answer, ?_, fun key => ?_⟩
    · rw [moved.trackers]
      change (d.planner.trackers.erase body)[body]? = none
      rw [Table.getElem?_erase, if_pos rfl]
    · have refs := moved.refs key
      rw [Tracker.held, Table.count_listed] at refs
      exact refs

/-- A stretch of a pass that applies an event, and has cells held for callers outside as the event says. -/
structure Applied (d d' : Desk) (event : Event) : Prop extends Evened d d' where
  said : ∀ key, d'.planner.holds.contains key = (event.hold? key).getD (d.planner.holds.contains key)

private theorem clerical_applied (balanced : Balanced d) (steps : Clerical d d') {event : Event}
    (silent : ∀ key, event.hold? key = none) : Applied d d' event := by
  refine ⟨balanced.framed steps.framed, ?_⟩
  intro key
  rw [silent, steps.framed.holds]
  rfl

private theorem bodyRemoved_applied (balanced : Balanced d) {body : BodyId}
    (applied : d.applyEvent (.bodyRemoved body) = .ok d') : Applied d d' (.bodyRemoved body) := by
  simp only [applyEvent] at applied
  split at applied
  · cases applied
    exact ⟨balanced.evened, fun _ => rfl⟩
  · rename_i tracker found
    cases applied
    refine ⟨bodyRemoved_evened balanced found, ?_⟩
    intro key
    rw [(bodyRemoved_moved balanced found).holds]
    rfl

private theorem requested_evened (balanced : Balanced d) {key : Key} (free : d.planner.holds.contains key = false)
    (moved : Moved { d with planner := { d.planner with holds := d.planner.holds.insert key } } d' [key] []) :
    Evened d d' := by
  refine ⟨moved.balanced ?_, moved.total, moved.stays⟩
  intro other
  have even := balanced.even other
  rw [moved.holders]
  simp only [Planner.holders, Table.contains_insert, List.count_singleton] at even ⊢
  by_cases same : key = other
  · subst other
    simp only [free, Bool.toNat_false] at even
    simp only [decide_true, Bool.true_or, Bool.toNat_true, List.count_nil, beq_self_eq_true, ↓reduceIte]
    omega
  · simpa [same] using even.symm

private theorem requested_applied (balanced : Balanced d) {key : Key}
    (applied : d.applyEvent (.requested key) = .ok d') : Applied d d' (.requested key) := by
  simp only [applyEvent] at applied
  split at applied
  · rename_i held
    cases applied
    exact ⟨balanced.evened, fun other => hold_repeated other (.inl ⟨rfl, held⟩)⟩
  · rename_i free
    have moved : Moved { d with planner := { d.planner with holds := d.planner.holds.insert key } } d' [key] [] :=
      acquire_moved balanced.sound applied
    refine ⟨requested_evened balanced (Bool.eq_false_iff.mpr free) moved, ?_⟩
    intro other
    rw [moved.holds]
    exact hold_requested d.planner.holds key other

private theorem released_evened (balanced : Balanced d) {key : Key} (held : d.planner.holds.contains key = true)
    (moved : Moved { d with planner := { d.planner with holds := d.planner.holds.erase key } } d' [] [key]) :
    Evened d d' := by
  refine ⟨moved.balanced ?_, moved.total, moved.stays⟩
  intro other
  have even := balanced.even other
  rw [moved.holders]
  simp only [Planner.holders, Table.contains_erase, List.count_singleton] at even ⊢
  by_cases same : key = other
  · subst other
    simp only [held, Bool.toNat_true] at even
    simp only [decide_true, Bool.not_true, Bool.false_and, Bool.toNat_false, List.count_nil, beq_self_eq_true,
      ↓reduceIte]
    omega
  · simpa [same] using even.symm

private theorem released_applied (balanced : Balanced d) {key : Key}
    (applied : d.applyEvent (.released key) = .ok d') : Applied d d' (.released key) := by
  simp only [applyEvent] at applied
  split at applied
  · rename_i held
    cases applied
    have there : 0 < d.store.refsOf key := by
      rw [balanced.even key, Planner.holders, held]
      simp only [Bool.toNat_true]
      omega
    have moved : Moved { d with planner := { d.planner with holds := d.planner.holds.erase key } } _ [] [key] :=
      release_moved balanced.sound there
    refine ⟨released_evened balanced held moved, ?_⟩
    intro other
    rw [moved.holds]
    exact hold_released d.planner.holds key other
  · rename_i free
    cases applied
    exact ⟨balanced.evened, fun other => hold_repeated other (.inr ⟨rfl, Bool.eq_false_iff.mpr free⟩)⟩

theorem applyEvent_applied (balanced : Balanced d) {event : Event} (applied : d.applyEvent event = .ok d') :
    Applied d d' event := by
  have noted (note : Noted d d') (silent : ∀ key, event.hold? key = none) : Applied d d' event :=
    clerical_applied balanced (.single (.note note)) silent
  cases event with
  | bodyAdded body =>
    cases applied
    exact ⟨bodyAdded_evened balanced body, fun _ => rfl⟩
  | bodyRemoved body => exact bodyRemoved_applied balanced applied
  | voxelEdited place =>
    cases applied
    exact clerical_applied balanced (edited_clerical d place) fun _ => rfl
  | cellUnloaded key =>
    cases applied
    exact clerical_applied balanced (unload_clerical d key) fun _ => rfl
  | requested key => exact requested_applied balanced applied
  | released key => exact released_applied balanced applied
  | prioritized key priority =>
    cases applied
    exact clerical_applied balanced (prioritize_clerical d key priority) fun _ => rfl
  | snapshotUnavailable | claimAbandoned | configured | shutdown =>
    cases applied
    refine noted ?_ fun _ => rfl
    constructor <;> rfl

/-- Once a batch has been applied, references and holders agree, and a cell is held for a caller outside if
the last event that says anything about it says so. -/
theorem applyEvents_evened {batch : List Event} (balanced : Balanced d) (applied : d.applyEvents batch = .ok d') :
    Evened d d' ∧ ∀ past key, d.planner.holds.contains key = heldAfter past key →
      d'.planner.holds.contains key = heldAfter (past ++ batch) key := by
  induction batch generalizing d with
  | nil =>
    cases applied
    exact ⟨balanced.evened, by simp⟩
  | cons event batch ih =>
    obtain ⟨next, first, applied⟩ := foldlM_cons_ok.mp applied
    have heard := applyEvent_applied balanced first
    obtain ⟨later, holding⟩ := ih heard.balanced applied
    refine ⟨heard.toEvened.trans later, ?_⟩
    intro past key held
    have next : next.planner.holds.contains key = heldAfter (past ++ [event]) key := by
      rw [heard.said, held, heldAfter_append]
    rw [holding _ key next, List.append_assoc]
    rfl

private theorem left_behind (before after : Bool) : (before && !after).toNat ≤ before.toNat := by
  cases before <;> cases after <;> decide

private theorem exchanged (before after : Bool) :
    after.toNat + (before && !after).toNat = before.toNat + (after && !before).toNat := by
  cases before <;> cases after <;> rfl

/-- A body's tracker gives up the cells that the body has left for those that it came to. -/
theorem follow_evened (balanced : Balanced d) {update : BodyId × Option Cells} (followed : d.follow update = .ok d') :
    Evened d d' ∧ d'.planner.holds = d.planner.holds := by
  unfold follow at followed
  split at followed
  · rename_i next tracker wanted found
    dsimp only [Tracker.adopt] at followed
    obtain ⟨middle, acquired, rfl⟩ := map_ok.mp followed
    have took : Moved { d with planner := { d.planner with
        trackers := d.planner.trackers.insert update.1 { tracker with cells := next } } } middle _ [] :=
      acquireAll_moved balanced.sound acquired
    have share := followers_erase found
    have enough (key : Key) : (tracker.cells.resident \ next.resident).toList.count key ≤ middle.store.refsOf key := by
      have refs : middle.store.refsOf key + 0 = d.store.refsOf key + _ := took.refs key
      have even := balanced.even key
      have part := left_behind (tracker.cells.resident.contains key) (next.resident.contains key)
      rw [Planner.holders, share] at even
      rw [Table.count_listed, Std.ExtTreeSet.contains_diff]
      omega
    have moved := took.trans (releaseAll_moved took.sound enough)
    refine ⟨⟨moved.balanced fun key => ?_, moved.total, moved.stays⟩, moved.holds⟩
    have even := balanced.even key
    have trade := exchanged (tracker.cells.resident.contains key) (next.resident.contains key)
    rw [Planner.holders, share] at even
    rw [moved.holders]
    simp only [List.nil_append, List.append_nil, Table.count_listed, Std.ExtTreeSet.contains_diff, Planner.holders,
      followers_insert]
    omega
  · cases followed
    exact ⟨balanced.evened, rfl⟩

theorem followAll_evened (balanced : Balanced d) {probe : BodyId → Option Pose}
    (followed : d.followAll probe = .ok d') : Evened d d' ∧ d'.planner.holds = d.planner.holds := by
  unfold followAll at followed
  generalize d.planner.trackers.toList.map _ = updates at followed
  induction updates generalizing d with
  | nil =>
    cases followed
    exact ⟨balanced.evened, rfl⟩
  | cons update updates ih =>
    obtain ⟨next, first, followed⟩ := foldlM_cons_ok.mp followed
    obtain ⟨evened, holding⟩ := follow_evened balanced first
    obtain ⟨later, held⟩ := ih evened.balanced followed
    exact ⟨evened.trans later, held.trans holding⟩

end Desk

end TerrainStream.Residency
