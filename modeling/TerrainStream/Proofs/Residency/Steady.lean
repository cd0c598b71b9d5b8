import TerrainStream.Proofs.Residency.Balance

/-! Once the bodies have been followed, a pass takes no reference and drops none. Only cells without
references are removed, so whoever needs a cell keeps it. -/

namespace TerrainStream.Residency.Desk

open Cell Physics Store Collision

/-- Two desks with the same holders and the same references, on cells that stay where they are. -/
structure Steady (d d' : Desk) : Prop where
  sound : d'.store.Sound
  refs : ∀ key, d'.store.refsOf key = d.store.refsOf key
  total : d'.store.total = d.store.total
  stays : ∀ (key : Key) i, d.store.index[key]? = some i → 0 < d.store.refsOf key → d'.store.index[key]? = some i
  holds : d'.planner.holds = d.planner.holds
  trackers : d'.planner.trackers = d.planner.trackers
  acquired : d'.report.acquired = d.report.acquired
  released : d'.report.released = d.report.released

variable {d d' d'' : Desk} {key : Key} {index : Nat}

theorem Steady.refl (sound : d.store.Sound) : Steady d d :=
  ⟨sound, fun _ => rfl, rfl, fun _ _ found _ => found, rfl, rfl, rfl, rfl⟩

theorem Steady.trans (first : Steady d d') (second : Steady d' d'') : Steady d d'' := by
  refine ⟨second.sound, fun key => (second.refs key).trans (first.refs key), second.total.trans first.total, ?_,
    second.holds.trans first.holds, second.trackers.trans first.trackers, second.acquired.trans first.acquired,
    second.released.trans first.released⟩
  intro key i found held
  refine second.stays key i (first.stays key i found held) ?_
  rw [first.refs key]
  exact held

theorem Framed.steady (framed : Framed d d') (sound : d.store.Sound) : Steady d d' := by
  have moved := framed.moved sound
  have total := moved.total
  rw [framed.acquired, framed.released] at total
  exact ⟨moved.sound, moved.refs, by omega, fun key i found _ => moved.stays key i found, framed.holds,
    framed.trackers, framed.acquired, framed.released⟩

theorem Steady.balanced (steady : Steady d d') (balanced : Balanced d) : Balanced d' := by
  refine ⟨steady.sound, fun key => ?_⟩
  rw [steady.refs key, balanced.even key, Planner.holders, Planner.holders, steady.holds, steady.trackers]

private theorem fold_steady {α : Type} {f : Desk → α → Desk}
    (step : ∀ d x, d.store.Sound → Steady d (f d x)) (xs : List α) (sound : d.store.Sound) :
    Steady d (xs.foldl f d) := by
  induction xs generalizing d with
  | nil => exact Steady.refl sound
  | cons x xs ih =>
    have first := step d x sound
    exact first.trans (ih first.sound)

theorem switch_steady (sound : d.store.Sound) (enabled : Bool) (key : Key) : Steady d (d.switch enabled key) := by
  rcases switch_cases sound enabled key with ⟨i, slot, report, living, _, step, acquired, released⟩ | ⟨_, step⟩
  · have kept : ({ slot with active := enabled } : Slot).live = slot.live := rfl
    rw [step]
    refine ⟨sound.put living kept rfl, fun other => ?_, ?_, fun _ _ found _ => found, rfl, rfl, acquired, released⟩
    · change (d.store.put i { slot with active := enabled }).refsOf other = _
      rw [refsOf_put sound living kept]
      by_cases here : slot.key = other
      · subst other
        rw [if_pos rfl, refsOf_live sound living]
      · rw [if_neg here]
    · have sum := total_put living kept
      dsimp only at sum ⊢
      omega
  · rw [step]
    exact Steady.refl sound

theorem activate_steady (sound : d.store.Sound) : Steady d d.activate := by
  have switching (enabled : Bool) (keys : List Key) {d : Desk} (sound : d.store.Sound) :
      Steady d (keys.foldl (·.switch enabled) d) :=
    fold_steady (fun d key sound => switch_steady sound enabled key) keys sound
  have on := switching true (d.planner.wanted \ d.planner.active).toList sound
  have off := switching false (d.planner.active \ d.planner.wanted).toList on.sound
  obtain ⟨sound, refs, total, stays, holds, trackers, acquired, released⟩ := on.trans off
  exact ⟨sound, refs, total, stays, holds, trackers, acquired, released⟩

/-- A cell is removed only when nobody holds a reference on it. -/
theorem evict_steady (sound : d.store.Sound) {store : Store} (found : d.store.indexOf key = some index)
    (retired : d.store.tryRetire index = (store, true)) :
    Steady d ({ d with store, planner := forget d.planner key }.evict key) := by
  obtain ⟨s', slot, report, departed, kept, unreferenced, _, step, acquired, released⟩ :=
    evict_cases sound found retired
  have free : d.store.refsOf key = 0 := by
    rw [← departed.owner, refsOf_live sound departed.found, unreferenced]
  rw [step]
  refine ⟨kept, fun other => ?_, ?_, fun other i found held => ?_, rfl, rfl, acquired, released⟩
  · change s'.refsOf other = _
    rw [departed.refsOf sound other]
    split
    · rename_i same
      rw [← same, free]
    · rfl
  · have sum := departed.total
    rw [unreferenced, Nat.zero_add] at sum
    exact sum.symm
  · refine departed.stays ?_ found
    rintro rfl
    rw [free] at held
    exact Nat.lt_irrefl 0 held

theorem sweepOne_steady (sound : d.store.Sound) (key : Key) : Steady d (d.sweepOne key) := by
  rcases sweepOne_cases d key with noted | ⟨index, store, found, _, retired, step⟩
  · exact noted.framed.steady sound
  · rw [step]
    exact evict_steady sound found retired

theorem sweep_steady (sound : d.store.Sound) : Steady d d.sweep :=
  fold_steady (fun _ key sound => sweepOne_steady sound key) _ sound

theorem settle_steady (sound : d.store.Sound) : Steady d d.settle := by
  have activated := activate_steady sound
  have swept := sweep_steady activated.sound
  have claimed : Steady _ d.settle := Framed.steady (claims_clerical d.activate.sweep).framed swept.sound
  exact (activated.trans swept).trans claimed

/-- A pass that succeeds applies its events, follows the bodies, and settles. -/
theorem pass_cases {queued : List Event} {probe : BodyId → Option Pose} (passed : d.pass queued probe = .ok d') :
    ∃ applied followed,
      (d.opened (d.planner.inbox ++ queued).length).applyEvents (d.planner.inbox ++ queued) = .ok applied ∧
      applied.followAll probe = .ok followed ∧ d' = followed.settle.closed := by
  obtain ⟨followed, rest, settled⟩ := map_ok.mp passed
  obtain ⟨applied, applying, following⟩ := bind_ok.mp rest
  exact ⟨applied, followed, applying, following, settled.symm⟩

/-- After a pass references and holders agree, a cell is held for a caller outside as the events have it,
the report tells how the number of references changed, and whatever is still referenced is where it was. -/
theorem pass_balanced {past queued : List Event} {probe : BodyId → Option Pose} (balanced : Balanced d)
    (held : ∀ key, d.planner.holds.contains key = heldAfter past key) (passed : d.pass queued probe = .ok d') :
    Balanced d' ∧
    (∀ key, d'.planner.holds.contains key = heldAfter (past ++ (d.planner.inbox ++ queued)) key) ∧
    d'.store.total + d'.report.released = d.store.total + d'.report.acquired ∧
    ∀ (key : Key) i, d.store.index[key]? = some i → 0 < d'.store.refsOf key → d'.store.index[key]? = some i := by
  obtain ⟨applied, followed, applying, following, rfl⟩ := pass_cases passed
  have opened : Balanced (d.opened (d.planner.inbox ++ queued).length) := ⟨balanced.sound, balanced.even⟩
  obtain ⟨first, holding⟩ := applyEvents_evened opened applying
  obtain ⟨second, same⟩ := followAll_evened first.balanced following
  have evened := first.trans second
  have settled := settle_steady second.balanced.sound
  have steady := settled.trans ((closed_noted followed.settle).framed.steady settled.sound)
  refine ⟨steady.balanced second.balanced, fun key => ?_, ?_, fun key i found referenced => ?_⟩
  · rw [steady.holds, same, holding past key (held key)]
  · have total := evened.total
    rw [steady.total, steady.released, steady.acquired]
    exact total
  · refine steady.stays key i (evened.stays key i found) ?_
    rw [← steady.refs key]
    exact referenced

end TerrainStream.Residency.Desk
