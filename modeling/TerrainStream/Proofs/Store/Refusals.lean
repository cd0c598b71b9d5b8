import TerrainStream.Proofs.Store.Room

/-! Refusals. What a store refuses to do it does not do in part, and what it does for one slot is not seen in any
other. -/

namespace TerrainStream.Store

open Cell

variable {s s' : Store} {i j : Nat} {slot fresh : Slot} {key : Key} {operation : Operation}

/-- Whether an operation is refused. -/
def declines (s : Store) : Operation → Bool
  | .add key => !(s.add key).2.isOk
  | .remove key => (s.remove key).2.isNone
  | .schedule i => (s.schedule i).2.isNone
  | .begin i version => !(s.begin i version).2
  | .abandon i version => !(s.abandon i version).2
  | .finish i key version shape placeholder => !(s.finish i key version shape placeholder).2.isOk
  | .tryRetire i => !(s.tryRetire i).2
  | .retain i => (s.retain i).2.isNone
  | .release i => (s.release i).2.isNone
  | .setActive i active => !(s.setActive i active).2

/-- The slot that an operation is about. -/
def seat? (s : Store) : Operation → Option Nat
  | .add key => (s.add key).2.toOption
  | .remove key => s.indexOf key
  | .schedule i | .begin i _ | .abandon i _ | .finish i _ _ _ _ | .tryRetire i | .retain i | .release i
  | .setActive i _ => some i

/-- Another slot looks as it did; it may have come with growth, and then it was never handed out. -/
def Elsewhere (s s' : Store) (i : Nat) : Prop :=
  ∀ j, j ≠ i → s'.slot? j = s.slot? j ∨ s.slot? j = none ∧ s'.slot? j = some Slot.blank

theorem elsewhere_put (s : Store) (i : Nat) (fresh : Slot) : Elsewhere s (s.put i fresh) i := by
  intro j other
  left
  have same : (s.put i fresh).reaches j = s.reaches j := rfl
  rw [slot?, same, put_slots, Array.getElem?_setIfInBounds, if_neg (Ne.symm other), slot?]

theorem elsewhere_add (sound : s.Sound) (added : s.add key = (s', .ok i)) : Elsewhere s s' i := by
  intro j other
  by_cases inside : j < s.capacity
  · exact .inl (slot?_add sound added other inside)
  · have beyond : s.slots[j]? = none :=
      Array.getElem?_eq_none (Nat.le_trans sound.roomy.used (Nat.le_of_not_lt inside))
    rw [sound.roomy.slot?_eq, if_neg inside, (sound.added added).roomy.slot?_eq, add_elsewhere added other, beyond]
    split
    · exact .inr ⟨rfl, rfl⟩
    · exact .inl rfl

theorem elsewhere_remove (found : s.indexOf key = some i) : Elsewhere s (s.remove key).1 i := by
  have mapped : s.index[key]? = some i := found
  intro j other
  unfold remove
  rw [mapped]
  dsimp only
  split
  · exact .inl rfl
  · exact elsewhere_put s i _ j other

/-- The ways for an operation to end: refused, with everything as it was, or granted, with other slots as they were. -/
inductive Verdict (s : Store) (operation : Operation) : Prop
  | refused (answer : s.declines operation = true) (same : s.perform operation = s)
  | granted (answer : s.declines operation = false) {i : Nat} (seat : s.seat? operation = some i)
      (elsewhere : Elsewhere s (s.perform operation) i)

private theorem Verdict.put (answer : s.declines operation = false) (seat : s.seat? operation = some i)
    (step : s.perform operation = s.put i fresh) : Verdict s operation :=
  .granted answer seat (step ▸ elsewhere_put s i fresh)

private theorem add_verdict (sound : s.Sound) (key : Key) : Verdict s (.add key) := by
  rcases step : s.add key with ⟨s', answer⟩
  cases answer with
  | ok i =>
    refine .granted (i := i) (by simp [declines, step, Except.isOk, Except.toBool])
      (by simp [seat?, step, Except.toOption]) ?_
    rw [perform, step]
    exact elsewhere_add sound step
  | error fault =>
    refine .refused (by simp [declines, step, Except.isOk, Except.toBool]) ?_
    rw [perform, step]
    exact add_refused step

private theorem remove_verdict (sound : s.Sound) (key : Key) : Verdict s (.remove key) := by
  rcases remove_cases sound key with ⟨s', i, slot, step, found, _⟩ | ⟨_, step⟩
  · exact .granted (by simp [declines, step]) found (elsewhere_remove found)
  · exact .refused (by simp [declines, step]) (by rw [perform, step])

private theorem tryRetire_verdict (s : Store) (i : Nat) : Verdict s (.tryRetire i) := by
  rcases step : s.tryRetire i with ⟨s', answer⟩
  cases answer with
  | false => exact .refused (by simp [declines, step]) (by rw [perform, step, tryRetire_false step])
  | true =>
    obtain ⟨slot, _, _, _, rfl⟩ := tryRetire_true step
    exact .put (by simp [declines, step]) rfl (by rw [perform, step])

private theorem setActive_verdict (s : Store) (i : Nat) (active : Bool) : Verdict s (.setActive i active) := by
  cases found : s.live? i with
  | none => exact .refused (by simp [declines, setActive, found]) (setActive_vacant found active)
  | some slot =>
    by_cases same : slot.active = active
    · exact .refused (by simp [declines, setActive, found, same]) (by simp [perform, setActive, found, same])
    · exact .put (by simp [declines, setActive, found, same]) rfl (setActive_live found active)

/-- Every operation, whatever its arguments, ends in one of these ways. -/
theorem verdict (sound : s.Sound) (operation : Operation) : Verdict s operation := by
  cases operation with
  | add key => exact add_verdict sound key
  | remove key => exact remove_verdict sound key
  | tryRetire i => exact tryRetire_verdict s i
  | setActive i active => exact setActive_verdict s i active
  | schedule i =>
    rcases schedule_cases s i with ⟨slot, _, _, step⟩ | step
    · exact .put (by simp [declines, step]) rfl (by rw [perform, step])
    · exact .refused (by simp [declines, step]) (by rw [perform, step])
  | begin i version =>
    rcases begin_cases s i version with ⟨slot, _, _, _, step⟩ | step
    · exact .put (by simp [declines, step]) rfl (by rw [perform, step])
    · exact .refused (by simp [declines, step]) (by rw [perform, step])
  | abandon i version =>
    rcases abandon_cases s i version with ⟨slot, _, _, _, step⟩ | step
    · exact .put (by simp [declines, step]) rfl (by rw [perform, step])
    · exact .refused (by simp [declines, step]) (by rw [perform, step])
  | finish i key version shape placeholder =>
    rcases finish_cases s i key version shape placeholder with ⟨slot, _, _, _, _, step⟩ | ⟨reason, step⟩
    · exact .put (by simp [declines, step, Except.isOk, Except.toBool]) rfl (by rw [perform, step])
    · exact .refused (by simp [declines, step, Except.isOk, Except.toBool]) (by rw [perform, step])
  | retain i =>
    cases found : s.live? i with
    | none => exact .refused (by simp [declines, retain_vacant found]) (by rw [perform, retain_vacant found])
    | some slot => exact .put (by simp [declines, retain_live found]) rfl (by rw [perform, retain_live found])
  | release i =>
    cases found : s.live? i with
    | none => exact .refused (by simp [declines, release_vacant found]) (by rw [perform, release_vacant found])
    | some slot => exact .put (by simp [declines, release_live found]) rfl (by rw [perform, release_live found])

/-- A build that is put into a slot where none is under way is taken out again. -/
theorem swapIn_refused (idle : slot.stage ≠ .generating) (shape : Option Handle) (placeholder : Bool) :
    slot.swapIn shape placeholder = (slot, .error (.notGenerating slot.stage)) := by
  simp [Slot.swapIn, idle]

/-- After every history of a store that started empty, whatever the operation and its arguments: if it is refused the
whole store is as it was; if it is granted every slot but the one that it is about is as it was, or has just come with
growth and was never handed out. And a build put straight into a slot where none is under way leaves that slot as it
was. -/
theorem refusals_change_nothing (initial most : Nat) (history : List Operation) (operation : Operation) :
    let s := (ofLimits initial most).after history
    (s.declines operation = true → s.perform operation = s) ∧
    (s.declines operation = false → ∃ i, s.seat? operation = some i ∧ ∀ j, j ≠ i →
      (s.perform operation).slot? j = s.slot? j ∨
        s.slot? j = none ∧ (s.perform operation).slot? j = some Slot.blank) ∧
    (∀ (slot : Slot) shape placeholder, slot.stage ≠ .generating →
      slot.swapIn shape placeholder = (slot, .error (.notGenerating slot.stage))) := by
  intro s
  obtain ⟨sound, tallied, widened⟩ := after_tallied (sound_ofLimits initial most) (tallied_ofLimits initial most) history
  refine ⟨fun turned => ?_, fun done => ?_, fun slot shape placeholder idle => swapIn_refused idle shape placeholder⟩
  · rcases verdict sound operation with ⟨_, same⟩ | ⟨answer, _, _⟩
    · exact same
    · rw [turned] at answer
      cases answer
  · rcases verdict sound operation with ⟨answer, _⟩ | ⟨_, seat, elsewhere⟩
    · rw [done] at answer
      cases answer
    · exact ⟨_, seat, elsewhere⟩

/-- One page is filled, one of its cells claimed. -/
private def manned : List Operation := (List.range 64).map (fun n => .add ⟨UInt64.ofNat n⟩) ++ [.schedule 3]

/-- A cell without room, an unknown one, a claim that is out, versions that are past and to come, another cell's build
and one that has not begun, a claimed cell, slots out of range, and a flag that is set already. -/
private def vain : List Operation :=
  [.add ⟨64⟩, .remove ⟨64⟩, .schedule 3, .begin 3 0, .begin 3 2, .abandon 3 0, .finish 3 ⟨4⟩ 1 none false,
    .finish 3 ⟨3⟩ 1 (some ⟨9⟩) true, .tryRetire 3, .retain 64, .release 99, .setActive 5 false]

/-- All of these are refused and change nothing; the claim is begun, which the next slot does not see. -/
theorem refusals_change_nothing_manned :
    let s := (ofLimits 0 1).after manned
    (∀ operation ∈ vain, s.declines operation = true ∧ s.perform operation = s) ∧
      s.declines (.begin 3 1) = false ∧ (s.perform (.begin 3 1)).slot? 4 = s.slot? 4 := by
  intro s
  have turned : ∀ operation ∈ vain, s.declines operation = true := by decide +kernel
  have done : s.declines (.begin 3 1) = false := by decide +kernel
  have there : (s.slot? 4).isSome = true := by decide +kernel
  refine ⟨fun operation listed => ?_, done, ?_⟩
  · have refused := turned operation listed
    exact ⟨refused, (refusals_change_nothing 0 1 manned operation).1 refused⟩
  · obtain ⟨i, seat, elsewhere⟩ := (refusals_change_nothing 0 1 manned (.begin 3 1)).2.1 done
    have other : 4 ≠ i := by
      rw [← Option.some.inj seat]
      decide
    rcases elsewhere 4 other with same | ⟨bare, _⟩
    · exact same
    · rw [show s.slot? 4 = none from bare] at there
      cases there

end TerrainStream.Store
