import TerrainStream.Proofs.Store.Tenancy

/-! Histories of a store: operations one after another, with any arguments. Whatever is asked of it, a
store rewrites one tenant, lets one cell in, turns one out or stays as it is. -/

namespace TerrainStream.Store

open Cell

/-- A request to change a store. -/
inductive Operation
  | add (key : Key)
  | remove (key : Key)
  | schedule (i : Nat)
  | begin (i : Nat) (version : UInt32)
  | abandon (i : Nat) (version : UInt32)
  | finish (i : Nat) (key : Key) (version : UInt32) (shape : Option Handle) (placeholder : Bool)
  | tryRetire (i : Nat)
  | retain (i : Nat)
  | release (i : Nat)
  | setActive (i : Nat) (active : Bool)

/-- The store that an operation leaves, whether it was granted or refused. -/
def perform (s : Store) : Operation → Store
  | .add key => (s.add key).1
  | .remove key => (s.remove key).1
  | .schedule i => (s.schedule i).1
  | .begin i version => (s.begin i version).1
  | .abandon i version => (s.abandon i version).1
  | .finish i key version shape placeholder => (s.finish i key version shape placeholder).1
  | .tryRetire i => (s.tryRetire i).1
  | .retain i => (s.retain i).1
  | .release i => (s.release i).1
  | .setActive i active => (s.setActive i active).1

/-- The store after a list of operations. -/
def after (s : Store) (history : List Operation) : Store := history.foldl perform s

theorem after_append (s : Store) (history later : List Operation) :
    s.after (history ++ later) = (s.after history).after later := List.foldl_append

/-- What an operation made of a store. -/
inductive Outcome (s : Store) : Store → Prop
  | same : Outcome s s
  | rewritten {i : Nat} {slot fresh : Slot} (found : s.live? i = some slot) (kept : fresh.live = slot.live)
      (owner : fresh.key = slot.key) : Outcome s (s.put i fresh)
  | admitted {s' : Store} {key : Key} {i : Nat} (added : s.add key = (s', .ok i)) (admitted : Admitted s key s' i)
      (sound : s'.Sound) : Outcome s s'
  | departed {s' : Store} {key : Key} {i : Nat} {slot : Slot} (removed : s.remove key = (s', some ⟨i, slot.shape⟩))
      (departed : Departed s key s' i slot) (sound : s'.Sound) : Outcome s s'

variable {s s' : Store}

theorem Outcome.sound (sound : s.Sound) (outcome : Outcome s s') : s'.Sound := by
  cases outcome with
  | same => exact sound
  | rewritten found kept owner => exact sound.put found kept owner
  | admitted _ _ kept => exact kept
  | departed _ _ kept => exact kept

private theorem add_outcome (sound : s.Sound) (key : Key) : Outcome s (s.add key).1 := by
  rcases add_cases sound key with ⟨i, _, step⟩ | ⟨s', i, step, admitted, kept⟩ | ⟨fault, step⟩
  · rw [step]
    exact .same
  · rw [step]
    exact .admitted step admitted kept
  · rw [step]
    exact .same

private theorem remove_outcome (sound : s.Sound) (key : Key) : Outcome s (s.remove key).1 := by
  rcases remove_cases sound key with ⟨s', i, slot, step, _, departed, kept⟩ | ⟨_, step⟩
  · rw [step]
    exact .departed step departed kept
  · rw [step]
    exact .same

/-- What becomes of a store when nobody comes or leaves. -/
inductive Rewrite (s : Store) : Store → Prop
  | same : Rewrite s s
  | put {i : Nat} {slot fresh : Slot} (found : s.live? i = some slot) (kept : fresh.live = slot.live)
      (owner : fresh.key = slot.key) : Rewrite s (s.put i fresh)

theorem perform_rewrite (s : Store) {operation : Operation} (letsIn : ∀ key, operation ≠ .add key)
    (turnsOut : ∀ key, operation ≠ .remove key) : Rewrite s (s.perform operation) := by
  cases operation with
  | add key => exact absurd rfl (letsIn key)
  | remove key => exact absurd rfl (turnsOut key)
  | tryRetire i =>
    rcases step : s.tryRetire i with ⟨s', answer⟩
    cases answer with
    | false =>
      rw [perform, step, tryRetire_false step]
      exact .same
    | true =>
      obtain ⟨slot, found, _, _, rfl⟩ := tryRetire_true step
      rw [perform, step]
      exact .put found rfl rfl
  | schedule i =>
    rcases schedule_cases s i with ⟨slot, found, _, step⟩ | step
    · rw [perform, step]
      exact .put found rfl rfl
    · rw [perform, step]
      exact .same
  | begin i version =>
    rcases begin_cases s i version with ⟨slot, found, _, _, step⟩ | step
    · rw [perform, step]
      exact .put found rfl rfl
    · rw [perform, step]
      exact .same
  | abandon i version =>
    rcases abandon_cases s i version with ⟨slot, found, _, _, step⟩ | step
    · rw [perform, step]
      exact .put found rfl rfl
    · rw [perform, step]
      exact .same
  | finish i key version shape placeholder =>
    rcases finish_cases s i key version shape placeholder with ⟨slot, found, _, _, _, step⟩ | ⟨reason, step⟩
    · rw [perform, step]
      exact .put found rfl rfl
    · rw [perform, step]
      exact .same
  | retain i =>
    cases found : s.live? i with
    | none =>
      rw [perform, retain_vacant found]
      exact .same
    | some slot =>
      rw [perform, retain_live found]
      exact .put found rfl rfl
  | release i =>
    cases found : s.live? i with
    | none =>
      rw [perform, release_vacant found]
      exact .same
    | some slot =>
      rw [perform, release_live found]
      exact .put found rfl rfl
  | setActive i active =>
    cases found : s.live? i with
    | none =>
      rw [perform, setActive_vacant found]
      exact .same
    | some slot =>
      rw [perform, setActive_live found]
      exact .put found rfl rfl

/-- No operation does anything else, whatever its arguments. -/
theorem perform_outcome (sound : s.Sound) (operation : Operation) : Outcome s (s.perform operation) := by
  by_cases letsIn : ∃ key, operation = .add key
  · obtain ⟨key, rfl⟩ := letsIn
    exact add_outcome sound key
  by_cases turnsOut : ∃ key, operation = .remove key
  · obtain ⟨key, rfl⟩ := turnsOut
    exact remove_outcome sound key
  have rewrite := s.perform_rewrite (fun key same => letsIn ⟨key, same⟩) fun key same => turnsOut ⟨key, same⟩
  generalize s.perform operation = s' at rewrite ⊢
  cases rewrite with
  | same => exact .same
  | put found kept owner => exact .rewritten found kept owner

/-- What holds of a sound store and outlasts every outcome holds after every history. -/
theorem after_keeps (holds : Store → Prop) (sound : s.Sound) (start : holds s)
    (step : ∀ s s', s.Sound → holds s → Outcome s s' → holds s') (history : List Operation) :
    (s.after history).Sound ∧ holds (s.after history) := by
  induction history generalizing s with
  | nil => exact ⟨sound, start⟩
  | cons operation rest ih =>
    have outcome := perform_outcome sound operation
    exact ih (outcome.sound sound) (step s _ sound start outcome)

end TerrainStream.Store
