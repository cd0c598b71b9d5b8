import TerrainStream.Proofs.Residency.Standing

/-! What a cell hears of a pass. Bodies and most events stir a cell in a few small ways; an unloading and
a missing snapshot are told apart, as nothing else voids a claim or puts a retry off, and so is a change of
pace. -/

namespace TerrainStream.Residency

open Cell Physics Store Collision

/-- One small change to a cell's standing that gives up nothing. -/
inductive Stir : Standing → Standing → Prop
  | take (key : Key) (version : UInt32) (s : Standing) : Stir s (s.take (Slot.newcomer key version))
  | drop (s : Standing) : Stir s s.drop
  | invalidate (s : Standing) : Stir s s.invalidate
  | renew (s : Standing) : Stir s s.renew
  | remind (s : Standing) : Stir s s.remind

abbrev Stirred : Standing → Standing → Prop := Relation.ReflTransGen Stir

/-- What an event does to a cell. -/
inductive Hears (key : Key) : Event → Standing → Standing → Prop
  | unloaded (s : Standing) : Hears key (.cellUnloaded key) s s.unload
  | unavailable (s : Standing) : Hears key (.snapshotUnavailable key) s s.postpone
  | configured (pacing : Pacing) (margins : Margins) (s : Standing) :
      Hears key (.configured pacing margins) s { s with pacing }
  | other {e : Event} {s s' : Standing} (loaded : e ≠ .cellUnloaded key) (available : e ≠ .snapshotUnavailable key)
      (stirred : Stirred s s') : Hears key e s s'

/-- What is kept of a cell as it hears of the events that are still to come, and as it is stirred. -/
structure Persists (key : Key) (J : List Event → Standing → Prop) : Prop where
  unloaded : ∀ rest s, J (.cellUnloaded key :: rest) s → J rest s.unload
  unavailable : ∀ rest s, J (.snapshotUnavailable key :: rest) s → J rest s.postpone
  configured : ∀ pacing margins rest s, J (.configured pacing margins :: rest) s → J rest { s with pacing }
  other : ∀ e rest s, e ≠ .cellUnloaded key → e ≠ .snapshotUnavailable key → J (e :: rest) s → J rest s
  stir : ∀ rest s s', Stir s s' → J rest s → J rest s'

section Persistence

variable {key : Key} {J : List Event → Standing → Prop} {e : Event} {rest : List Event} {s s' : Standing}

theorem Persists.stirred (persists : Persists key J) (stirred : Stirred s s') (start : J rest s) : J rest s' := by
  induction stirred with
  | refl => exact start
  | tail _ stir ih => exact persists.stir rest _ _ stir ih

theorem Persists.hears (persists : Persists key J) (hears : Hears key e s s') (start : J (e :: rest) s) : J rest s' := by
  cases hears with
  | unloaded => exact persists.unloaded rest s start
  | unavailable => exact persists.unavailable rest s start
  | configured pacing margins => exact persists.configured pacing margins rest s start
  | other loaded available stirred => exact persists.stirred stirred (persists.other e rest s loaded available start)

end Persistence

/-- Whatever waits waits for a claim that is out. -/
def Standing.Tidy (s : Standing) : Prop := s.waiting = true → ∃ slot, s.slot = some slot ∧ slot.stage = .scheduled

theorem Stir.tidy {s s' : Standing} (stir : Stir s s') (tidy : s.Tidy) : s'.Tidy := by
  cases stir <;> grind [Standing.Tidy, Standing.take, Standing.drop, Standing.invalidate, Standing.renew,
    Standing.remind, Standing.welcome, Standing.claim, Standing.claimable]

namespace Standing

variable {s : Standing}

theorem Tidy.swept (tidy : s.Tidy) : s.swept.Tidy := by
  cases there : s.slot <;> grind [Tidy, Standing.swept, expire, Stage.isInFlight]

theorem Tidy.resumed (tidy : s.Tidy) : s.resumed.Tidy := by
  cases there : s.slot <;> grind [Tidy, Standing.resumed, reconsider, claim, claimable]

theorem Tidy.retried (tidy : s.Tidy) : s.retried.Tidy := by
  cases there : s.slot <;> grind [Tidy, Standing.retried, renew, claim, claimable]

end Standing

namespace Desk

variable {d d' d'' : Desk} {k key : Key} {f : Standing → Standing}

/-- A stretch of a pass that keeps the store sound and only stirs. -/
structure Stirs (d d' : Desk) : Prop where
  sound : d'.store.Sound
  stirred : ∀ key, Stirred (d.standing key) (d'.standing key)

theorem Stirs.trans (first : Stirs d d') (second : Stirs d' d'') : Stirs d d'' :=
  ⟨second.sound, fun key => (first.stirred key).trans (second.stirred key)⟩

theorem Touches.stirs (touches : Touches k f d d') (sound : d'.store.Sound) (stir : ∀ s, Stir s (f s)) : Stirs d d' := by
  refine ⟨sound, fun key => ?_⟩
  rw [touches key]
  split
  · exact .single (stir _)
  · exact .refl

/-- A desk that differs in nothing that cells know of. -/
private theorem stirs_same (sound : d'.store.Sound) (same : ∀ key, d'.standing key = d.standing key) : Stirs d d' :=
  ⟨sound, fun key => by rw [same]⟩

theorem acquire_stirs (sound : d.store.Sound) (acquired : d.acquire k = .ok d') : Stirs d d' := by
  obtain ⟨version, touches⟩ := acquire_touches sound acquired
  exact touches.stirs (acquire_moved sound acquired).sound fun s => .take k version s

theorem release_stirs (sound : d.store.Sound) (k : Key) : Stirs d (d.release k) :=
  (release_touches sound k).stirs ((release_counted d k).sound sound) .drop

theorem releaseAll_stirs (sound : d.store.Sound) (keys : List Key) : Stirs d (d.releaseAll keys) := by
  induction keys generalizing d with
  | nil => exact stirs_same sound fun _ => rfl
  | cons key keys ih =>
    have first := release_stirs sound key
    exact first.trans (ih first.sound)

theorem acquireAll_stirs {keys : List Key} (sound : d.store.Sound) (acquired : d.acquireAll keys = .ok d') :
    Stirs d d' := by
  induction keys generalizing d with
  | nil =>
    cases acquired
    exact stirs_same sound fun _ => rfl
  | cons key keys ih =>
    obtain ⟨next, first, acquired⟩ := foldlM_cons_ok.mp acquired
    have taken := acquire_stirs sound first
    exact taken.trans (ih taken.sound acquired)

theorem follow_stirs {update : BodyId × Option Cells} (sound : d.store.Sound) (followed : d.follow update = .ok d') :
    Stirs d d' := by
  unfold follow at followed
  split at followed
  · rename_i cells tracker wanted found
    dsimp only at followed
    generalize enrolled : ({ d with planner := { d.planner with
      trackers := d.planner.trackers.insert update.1 (tracker.adopt cells).1 } } : Desk) = next at followed
    have listed : Stirs d next := by
      subst enrolled
      exact stirs_same sound fun _ => rfl
    obtain ⟨middle, acquired, rfl⟩ := map_ok.mp followed
    have taken := acquireAll_stirs listed.sound acquired
    exact (listed.trans taken).trans (releaseAll_stirs taken.sound _)
  · cases followed
    exact stirs_same sound fun _ => rfl

private theorem followEach_stirs {updates : List (BodyId × Option Cells)} (sound : d.store.Sound)
    (followed : updates.foldlM follow d = .ok d') : Stirs d d' := by
  induction updates generalizing d with
  | nil =>
    cases followed
    exact stirs_same sound fun _ => rfl
  | cons update updates ih =>
    obtain ⟨next, first, followed⟩ := foldlM_cons_ok.mp followed
    have stirs := follow_stirs sound first
    exact stirs.trans (ih stirs.sound followed)

theorem followAll_stirs {probe : BodyId → Option Pose} (sound : d.store.Sound)
    (followed : d.followAll probe = .ok d') : Stirs d d' := followEach_stirs sound followed

/-- Every event comes to each cell as what it does to that cell. -/
theorem applyEvent_hears {e : Event} (sound : d.store.Sound) (filed : ∀ k, d.Filed k)
    (applied : d.applyEvent e = .ok d') (key : Key) : Hears key e (d.standing key) (d'.standing key) := by
  have still {e : Event} {d' : Desk} (loaded : e ≠ .cellUnloaded key) (available : e ≠ .snapshotUnavailable key)
      (same : d'.standing key = d.standing key) : Hears key e (d.standing key) (d'.standing key) :=
    .other loaded available (same ▸ .refl)
  cases e with
  | bodyAdded body =>
    cases applied
    exact still (by simp) (by simp) rfl
  | bodyRemoved body =>
    simp only [applyEvent] at applied
    split at applied
    · cases applied
      exact still (by simp) (by simp) rfl
    · rename_i tracker _
      cases applied
      have freed := releaseAll_stirs
        (d := { d with planner := { d.planner with trackers := d.planner.trackers.erase body } }) sound tracker.held
      exact .other (by simp) (by simp) (freed.stirred key)
  | voxelEdited place =>
    cases applied
    refine .other (by simp) (by simp) ?_
    rw [invalidateAll_standing sound]
    split
    · exact .single (.invalidate _)
    · exact .refl
  | cellUnloaded k =>
    cases applied
    rw [unload_touches sound (filed k) key]
    split
    · rename_i here
      rw [here]
      exact .unloaded _
    · rename_i elsewhere
      exact .other (by simpa using elsewhere) (by simp) .refl
  | requested k =>
    simp only [applyEvent] at applied
    split at applied
    · cases applied
      exact still (by simp) (by simp) rfl
    · have taken := acquire_stirs
        (d := { d with planner := { d.planner with holds := d.planner.holds.insert k } }) sound applied
      exact .other (by simp) (by simp) (taken.stirred key)
  | released k =>
    simp only [applyEvent] at applied
    split at applied
    · cases applied
      have dropped := release_stirs
        (d := { d with planner := { d.planner with holds := d.planner.holds.erase k } }) sound k
      exact .other (by simp) (by simp) (dropped.stirred key)
    · cases applied
      exact still (by simp) (by simp) rfl
  | prioritized k priority =>
    cases applied
    have touches := prioritize_touches sound k priority
    exact .other (by simp) (by simp) ((touches.stirs
      (sound.of_outline (prioritize_clerical d k priority).framed.outline) .renew).stirred key)
  | snapshotUnavailable k =>
    cases applied
    rw [touches_retry k _ key]
    split
    · rename_i here
      rw [here]
      exact .unavailable _
    · rename_i elsewhere
      exact .other (by simp) (by simpa using elsewhere) .refl
  | claimAbandoned k =>
    cases applied
    exact .other (by simp) (by simp) (((touches_remind k).stirs sound .remind).stirred key)
  | configured pacing margins =>
    cases applied
    exact .configured pacing margins _
  | shutdown =>
    cases applied
    exact still (by simp) (by simp) rfl

end Desk

end TerrainStream.Residency
