import TerrainStream.Proofs.Pipeline.Passage
import TerrainStream.Proofs.Residency.Admission
import TerrainStream.Proofs.Residency.Departure
import TerrainStream.Proofs.Residency.Stillness

/-! Passes without events. Following the bodies leaves them at rest; and while the planner has noted no retry and no
edit to come back to, settling claims nothing. -/

namespace TerrainStream.Residency

open Cell Physics Store Build

/-- The same planner, but for the dates of departures and for what waits for admission. -/
def Planner.Bids (p p' : Planner) : Prop := ∃ leaving pending, p' = { p with leaving, pending }

theorem Planner.Bids.trans {p p' p'' : Planner} (first : p.Bids p') (second : p'.Bids p'') : p.Bids p'' := by
  obtain ⟨_, _, rfl⟩ := first
  obtain ⟨leaving, pending, rfl⟩ := second
  exact ⟨leaving, pending, rfl⟩

/-- The same planner, but for its trackers as well. -/
def Planner.Follows (p p' : Planner) : Prop := ∃ trackers leaving pending, p' = { p with trackers, leaving, pending }

theorem Planner.Follows.trans {p p' p'' : Planner} (first : p.Follows p') (second : p'.Follows p'') :
    p.Follows p'' := by
  obtain ⟨_, _, _, rfl⟩ := first
  obtain ⟨trackers, leaving, pending, rfl⟩ := second
  exact ⟨trackers, leaving, pending, rfl⟩

/-- Whether a planner has noted no edit and no retry to come back to. -/
def Planner.IsCaughtUp (p : Planner) : Prop := p.deferred.isEmpty = true ∧ p.retry.isEmpty = true

instance (p : Planner) : Decidable p.IsCaughtUp := inferInstanceAs (Decidable (_ ∧ _))

/-- Whether a tracker has adopted the cells that its body needs, as far as it needs any. -/
def Tracker.IsAbreast (t : Tracker) (probe : BodyId → Option Pose) (grid : Grid) (margins : Margins) : Prop :=
  ∀ cells, t.needs probe grid margins = some cells → cells = t.cells

namespace Desk

variable {d d' : Desk} {key : Key} {probe : BodyId → Option Pose}

private theorem claim_bids (d : Desk) (key : Key) (index : Nat) (priority : Priority) :
    d.planner.Bids (d.claim key index priority).1.planner := by
  unfold Desk.claim
  split <;> exact ⟨_, _, rfl⟩

private theorem acquire_bids (acquired : d.acquire key = .ok d') : d.planner.Bids d'.planner := by
  unfold acquire welcome at acquired
  split at acquired
  · cases acquired
  · dsimp only at acquired
    split at acquired
    · split at acquired
      · cases acquired
        exact .trans ⟨_, _, rfl⟩ (claim_bids _ _ _ _)
      · cases acquired
        exact ⟨_, _, rfl⟩
    · cases acquired
      exact ⟨_, _, rfl⟩

private theorem acquireAll_bids {keys : List Key} (acquired : d.acquireAll keys = .ok d') :
    d.planner.Bids d'.planner := by
  induction keys generalizing d with
  | nil =>
    cases acquired
    exact ⟨_, _, rfl⟩
  | cons key keys ih =>
    obtain ⟨next, first, rest⟩ := foldlM_cons_ok.mp acquired
    exact (acquire_bids first).trans (ih rest)

private theorem releaseAll_bids (d : Desk) (keys : List Key) : d.planner.Bids (d.releaseAll keys).planner := by
  induction keys generalizing d with
  | nil => exact ⟨_, _, rfl⟩
  | cons key keys ih =>
    refine .trans ?_ (ih (d.release key))
    unfold release
    split
    · exact ⟨_, _, rfl⟩
    · dsimp only
      split <;> exact ⟨_, _, rfl⟩

/-- Following a body has its tracker adopt what the body needs, and changes no other tracker. -/
private theorem follow_adopts {body : BodyId} {needed : Option Cells} (followed : d.follow (body, needed) = .ok d') :
    d.planner.Follows d'.planner ∧ ∀ other : BodyId, d'.planner.trackers[other]? =
      if body = other then d.planner.trackers[other]?.map fun old => { old with cells := needed.getD old.cells }
      else d.planner.trackers[other]? := by
  unfold follow at followed
  split at followed
  · rename_i cells tracker wanted found
    obtain ⟨middle, acquired, rfl⟩ := map_ok.mp followed
    obtain rfl : needed = some cells := wanted
    obtain ⟨leaving, pending, same⟩ := (acquireAll_bids acquired).trans (releaseAll_bids middle _)
    refine ⟨⟨_, leaving, pending, same⟩, fun other => ?_⟩
    rw [same, Table.getElem?_insert]
    split
    · rename_i here
      rw [← show body = other from here, found]
      rfl
    · rfl
  · rename_i idle
    cases followed
    refine ⟨⟨_, _, _, rfl⟩, fun other => ?_⟩
    split
    · rename_i here
      subst here
      cases needed with
      | none => exact Option.map_id_apply.symm
      | some cells =>
        cases found : d.planner.trackers[body]? with
        | none => rfl
        | some tracker => exact absurd found (idle cells tracker rfl)
    · rfl

/-- Once every body has been followed, every tracker has what its body needs. -/
private theorem followEach_abreast {grid : Grid} {margins : Margins} {todo : List (BodyId × Tracker)}
    (followed : (todo.map fun (body, tracker) => (body, tracker.needs probe grid margins)).foldlM follow d = .ok d')
    (apart : (todo.map (·.1)).Nodup)
    (ahead : ∀ body tracker, (body, tracker) ∈ todo → d.planner.trackers[body]? = some tracker)
    (behind : ∀ (body : BodyId) tracker, d.planner.trackers[body]? = some tracker → body ∉ todo.map (·.1) →
      tracker.IsAbreast probe grid margins) :
    d.planner.Follows d'.planner ∧ ∀ (body : BodyId) tracker, d'.planner.trackers[body]? = some tracker →
      tracker.IsAbreast probe grid margins := by
  induction todo generalizing d with
  | nil =>
    cases followed
    exact ⟨⟨_, _, _, rfl⟩, fun body tracker found => behind body tracker found List.not_mem_nil⟩
  | cons entry todo ih =>
    obtain ⟨head, old⟩ := entry
    obtain ⟨fresh, apart⟩ := List.nodup_cons.mp apart
    obtain ⟨next, first, rest⟩ := foldlM_cons_ok.mp followed
    obtain ⟨follows, adopts⟩ := follow_adopts first
    have listed : d.planner.trackers[head]? = some old := ahead head old List.mem_cons_self
    have ahead (body : BodyId) (tracker : Tracker) (member : (body, tracker) ∈ todo) :
        next.planner.trackers[body]? = some tracker := by
      have elsewhere : head ≠ body := by
        rintro rfl
        exact fresh (List.mem_map.mpr ⟨_, member, rfl⟩)
      rw [adopts, if_neg elsewhere]
      exact ahead body tracker (List.mem_cons_of_mem _ member)
    have behind (body : BodyId) (tracker : Tracker) (found : next.planner.trackers[body]? = some tracker)
        (done : body ∉ todo.map (·.1)) : tracker.IsAbreast probe grid margins := by
      rw [adopts] at found
      split at found
      · -- What a tracker needs is a matter of its body's pose, so that it needs what it has just adopted.
        rename_i here
        rw [← here, listed] at found
        cases found
        intro cells needed
        have needed : old.needs probe grid margins = some cells := needed
        simp only [needed, Option.getD_some]
      · rename_i elsewhere
        refine behind body tracker found fun member => ?_
        rcases List.mem_cons.mp member with here | later
        · exact elsewhere here.symm
        · exact done later
    obtain ⟨later, abreast⟩ := ih rest apart ahead behind
    exact ⟨follows.trans later, abreast⟩

/-- Once the bodies have been followed, they rest. -/
theorem followAll_rested (followed : d.followAll probe = .ok d') :
    d.planner.Follows d'.planner ∧ d'.planner.Rests probe := by
  have apart : (d.planner.trackers.toList.map (·.1)).Nodup :=
    List.pairwise_map.mpr (Std.ExtTreeMap.distinct_keys_toList.imp Std.ReflCmp.ne_of_cmp_ne_eq)
  obtain ⟨follows, abreast⟩ := followEach_abreast followed apart (fun body tracker => Table.mem_toList.mp)
    fun body tracker found none => absurd (List.mem_map.mpr ⟨_, Table.mem_toList.mpr found, rfl⟩) none
  refine ⟨follows, fun body tracker found => ?_⟩
  obtain ⟨_, _, _, same⟩ := follows
  have rests := abreast body tracker found
  rw [same]
  exact rests

/-- While no edit and no retry has been noted for a cell, settling makes no claim on it, and gives up the claim that
waits only if nobody needs the cell. -/
private theorem settled_caughtUp {s : Standing} (undeferred : s.deferred = false) (unretried : s.retry = none) :
    s.settled.waiting = (s.waiting && decide (s.refs ≠ 0)) ∧ s.settled.deferred = false ∧ s.settled.retry = none := by
  have swept : s.swept.waiting = s.waiting ∧ s.swept.deferred = false ∧ s.swept.retry = none := by
    unfold Standing.swept Standing.expire
    repeat' split
    all_goals exact ⟨rfl, by first | rfl | exact undeferred, by first | rfl | exact unretried⟩
  obtain ⟨waiting, undeferred, unretried⟩ := swept
  have resumed : s.swept.resumed = s.swept := by simp [Standing.resumed, undeferred]
  have retried : s.swept.retried = s.swept := by simp [Standing.retried, unretried]
  rw [Standing.settled, resumed, retried, Standing.shed, Standing.swept_refs]
  by_cases free : s.refs = 0
  · rw [if_pos free, Standing.giveUp]
    split
    · simp [free, undeferred, unretried]
    · rename_i idle
      simp [free, undeferred, unretried, idle]
  · simp [free, waiting, undeferred, unretried]

variable {jobs : List Job}

theorem caughtUp_standing (caughtUp : d.planner.IsCaughtUp) (key : Key) :
    (d.standing key).deferred = false ∧ (d.standing key).retry = none := by
  obtain ⟨undeferred, unretried⟩ := caughtUp
  refine ⟨?_, Table.bare_isEmpty unretried key⟩
  simp only [standing, Standing.of, Table.bare_isEmpty undeferred, Option.isSome_none]

theorem standing_caughtUp (noted : ∀ key, (d.standing key).deferred = false ∧ (d.standing key).retry = none) :
    d.planner.IsCaughtUp := by
  refine ⟨Table.isEmpty_bare fun key => ?_, Table.isEmpty_bare fun key => (noted key).2⟩
  have undeferred : (d.planner.deferred[key]?).isSome = false := (noted key).1
  rwa [Option.isSome_eq_false_iff, Option.isNone_iff_eq_none] at undeferred

/-- Of the claims that wait, settling leaves those for cells that somebody needs, if nothing else has been noted. -/
theorem gathered_waits (orderly : d.Orderly jobs) (caughtUp : d.planner.IsCaughtUp) (key : Key) :
    (d.gathered.planner.pending.get? key).isSome =
      ((d.planner.pending.get? key).isSome && decide (d.store.refsOf key ≠ 0)) := by
  obtain ⟨undeferred, unretried⟩ := caughtUp_standing caughtUp key
  have gathered : d.gathered.standing key = (d.standing key).settled := gather_standing orderly key
  generalize d.gathered = ready at gathered
  calc (ready.planner.pending.get? key).isSome
      = (ready.standing key).waiting := rfl
    _ = ((d.standing key).waiting && decide ((d.standing key).refs ≠ 0)) := by
      rw [gathered, (settled_caughtUp undeferred unretried).1]
    _ = ((d.planner.pending.get? key).isSome && decide (d.store.refsOf key ≠ 0)) := by
      rw [standing_refs]
      rfl

private theorem settle_tuning (orderly : d.Orderly jobs) :
    d.settle.planner.grid = d.planner.grid ∧ d.settle.planner.margins = d.planner.margins := by
  have same := gathered_allotment d
  rw [settle_eq]
  generalize d.gathered = ready at same
  have taking : ready.requests.isOpen = true := by
    rw [(Spared.of_allotment same).requests]
    exact orderly.requests
  obtain ⟨grid, _, margins⟩ := tuning_of_allotment same
  rw [(dispatch_admits taking).1]
  exact ⟨grid, margins⟩

/-- A pass without events leaves the bodies at rest and notes nothing. -/
theorem pass_caughtUp (orderly : d.Orderly jobs) (caughtUp : d.planner.IsCaughtUp)
    (quiet : d.planner.inbox ++ queued = []) (passed : d.pass queued probe = .ok d') :
    d'.planner.IsCaughtUp ∧ d'.planner.Rests probe := by
  obtain ⟨applied, followed, applying, following, rfl⟩ := pass_cases passed
  rw [quiet] at applying
  obtain rfl : d.opened 0 = applied := Except.ok.inj applying
  obtain ⟨⟨_, _, _, same⟩, rests⟩ := followAll_rested following
  have orderly : followed.Orderly jobs := (orderly.opened 0).attempt (followAll_counted _ _) following
  have caughtUp : followed.planner.IsCaughtUp := by
    rw [same]
    exact caughtUp
  obtain ⟨grid, margins⟩ := settle_tuning orderly
  have trackers := (settle_steady orderly.sound).trackers
  have dispatched := settle_standing orderly
  generalize followed.settle = settled at *
  refine ⟨standing_caughtUp fun key => ?_, fun body tracker found => ?_⟩
  · obtain ⟨undeferred, unretried⟩ := caughtUp_standing caughtUp key
    obtain ⟨_, _, same, _⟩ := dispatched key
    rw [closed_standing, same]
    exact (settled_caughtUp undeferred unretried).2
  · have found : settled.planner.trackers[body]? = some tracker := found
    have abreast : tracker.IsAbreast probe _ _ := rests body tracker (trackers ▸ found)
    rwa [← grid, ← margins] at abreast

/-- A pass without events succeeds if the bodies rest. -/
theorem pass_succeeds_resting (quiet : d.planner.inbox ++ queued = []) (rests : d.planner.Rests probe) :
    ∃ d', d.pass queued probe = .ok d' := by
  have following : (d.opened 0).followAll probe = .ok (d.opened 0) := followAll_rests rests
  refine ⟨(d.opened 0).settle.closed, ?_⟩
  unfold pass
  rw [quiet]
  exact map_ok.mpr ⟨d.opened 0, bind_ok.mpr ⟨d.opened 0, rfl, following⟩, rfl⟩

end Desk

end TerrainStream.Residency
