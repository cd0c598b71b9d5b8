import TerrainStream.Proofs.Residency.Acts

/-! What a pass leaves of the builds that cells have. Cells come before others go, so one that is there after a pass
has been there all the time with the build that it has, unless it was not there before. -/

namespace TerrainStream.Residency.Desk

open Cell Physics Store Collision

variable {d d' : Desk} {key : Key}

theorem Framed.grows (framed : Framed d d') : Grows d.store d'.store := by
  have index : d'.store.outline.index = d.store.outline.index := congrArg (·.index) framed.outline
  exact (inherits_outline framed.outline).grows index

theorem Count.grows (act : Count d d') (sound : d.store.Sound) : Grows d.store d'.store := by
  cases act with
  | clerk act => exact act.framed.grows
  | enroll => exact .refl _
  | enter added =>
    rcases added_cases sound added with rfl | ⟨admitted, _⟩
    · exact .refl _
    · exact admitted.grows
  | retain index =>
    cases found : d.store.live? index with
    | none => rw [retain_vacant found]; exact .refl _
    | some slot => rw [retain_live found]; exact Inherits.grows (inherits_put found rfl rfl rfl rfl) rfl
  | release index =>
    cases found : d.store.live? index with
    | none => rw [release_vacant found]; exact .refl _
    | some slot => rw [release_live found]; exact Inherits.grows (inherits_put found rfl rfl rfl rfl) rfl

theorem Count.unbuilt (act : Count d d') (sound : d.store.Sound) : Unbuilt d.store d'.store := by
  cases act with
  | clerk act => exact (inherits_outline act.framed.outline).unbuilt
  | enroll => exact (Inherits.refl _).unbuilt
  | enter added =>
    rcases added_cases sound added with rfl | ⟨admitted, _⟩
    · exact (Inherits.refl _).unbuilt
    · exact admitted.unbuilt
  | retain index => exact (inherits_retain _ index).unbuilt
  | release index => exact (inherits_release _ index).unbuilt

theorem Counted.unbuilt (counted : Counted d d') (sound : d.store.Sound) : Unbuilt d.store d'.store := by
  induction counted with
  | refl => exact (Inherits.refl _).unbuilt
  | tail before act ih => exact ih.trans (act.unbuilt (Counted.sound before sound))

/-- Up to the point where cells are switched and removed, nobody leaves. -/
theorem Counted.grows (counted : Counted d d') (sound : d.store.Sound) : Grows d.store d'.store := by
  induction counted with
  | refl => exact .refl _
  | tail before act ih => exact ih.trans (act.grows (Counted.sound before sound))

private theorem fold_inherits {α : Type} {f : Desk → α → Desk}
    (step : ∀ d x, d.store.Sound → (f d x).store.Sound ∧ Inherits d.store (f d x).store) (xs : List α)
    (sound : d.store.Sound) : (xs.foldl f d).store.Sound ∧ Inherits d.store (xs.foldl f d).store := by
  induction xs generalizing d with
  | nil => exact ⟨sound, .refl _⟩
  | cons x xs ih =>
    obtain ⟨kept, first⟩ := step d x sound
    obtain ⟨still, rest⟩ := ih kept
    exact ⟨still, first.trans rest⟩

private theorem switch_inherits (enabled : Bool) (d : Desk) (key : Key) (sound : d.store.Sound) :
    (d.switch enabled key).store.Sound ∧ Inherits d.store (d.switch enabled key).store := by
  rcases switch_cases sound enabled key with ⟨i, slot, report, living, _, step, _⟩ | ⟨_, step⟩
  · rw [step]
    exact ⟨sound.put living rfl rfl, inherits_put living rfl rfl rfl rfl⟩
  · rw [step]
    exact ⟨sound, .refl _⟩

private theorem sweepOne_inherits (d : Desk) (key : Key) (sound : d.store.Sound) :
    (d.sweepOne key).store.Sound ∧ Inherits d.store (d.sweepOne key).store := by
  rcases sweepOne_cases d key with noted | ⟨index, store, found, _, retired, step⟩
  · rw [noted.store]
    exact ⟨sound, .refl _⟩
  · obtain ⟨s', slot, report, departed, kept, _, _, gone, _⟩ := evict_cases sound found retired
    rw [step, gone]
    exact ⟨kept, departed.inherits⟩

/-- From that point on, nobody comes. -/
theorem settle_inherits (sound : d.store.Sound) : Inherits d.store d.settle.store := by
  obtain ⟨lit, on⟩ := fold_inherits (switch_inherits true) (d.planner.wanted \ d.planner.active).toList sound
  obtain ⟨dark, off⟩ := fold_inherits (switch_inherits false) (d.planner.active \ d.planner.wanted).toList lit
  obtain ⟨_, swept⟩ := fold_inherits (d := d.activate) sweepOne_inherits _ dark
  exact ((on.trans off).trans swept).trans (inherits_outline (claims_clerical d.activate.sweep).framed.outline)

/-- Whoever is there before a pass and after it has the build that it had. -/
theorem pass_keeps_builds (sound : d.store.Sound) (queued : List Event) (probe : BodyId → Option Pose) {i : Nat}
    {slot : Slot} (living : (left (d.pass queued probe)).store.live? i = some slot)
    (there : d.store.contains slot.key = true) : slot.Keeps d.store i := by
  obtain ⟨counted, first, ends | ends⟩ := pass_halves d queued probe
  · rw [ends] at living
    exact (first.grows sound).keeps i slot living there
  · have settled := settle_inherits (first.sound sound)
    rw [ends, (closed_noted counted.settle).store] at living
    generalize counted.settle.store = s at settled living
    obtain ⟨old, before, owner, build⟩ := settled i slot living
    exact ((first.grows sound).keeps i old before (owner ▸ there)).trans ⟨before, owner, build⟩

/-- Nothing is built in a pass. -/
theorem pass_unbuilt (sound : d.store.Sound) (queued : List Event) (probe : BodyId → Option Pose) :
    Unbuilt d.store (left (d.pass queued probe)).store := by
  obtain ⟨counted, first, ends | ends⟩ := pass_halves d queued probe
  · rw [ends]
    exact first.unbuilt sound
  · have settled := settle_inherits (first.sound sound)
    rw [ends, (closed_noted counted.settle).store]
    exact (first.unbuilt sound).trans settled.unbuilt

end TerrainStream.Residency.Desk
