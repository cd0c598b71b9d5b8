import TerrainStream.Proofs.Store.History

/-! The books of a store. Index, slots and free list name every slot once, capacity is made of whole pages
and never shrinks, and the census adds up, after any history of operations. -/

namespace TerrainStream.Store

open Cell

variable {s s' : Store} {i : Nat} {key : Key}

/-- The limit stands and the capacity does not shrink. -/
structure Widened (s s' : Store) : Prop where
  limit : s'.limit = s.limit
  wider : s.capacity ≤ s'.capacity

theorem Widened.refl (s : Store) : Widened s s := ⟨rfl, Nat.le_refl _⟩

theorem Widened.trans {middle : Store} (first : Widened s middle) (second : Widened middle s') : Widened s s' :=
  ⟨second.limit.trans first.limit, Nat.le_trans first.wider second.wider⟩

theorem add_widened (s : Store) (key : Key) : Widened s (s.add key).1 := by
  unfold add
  split
  · exact .refl s
  · split
    · exact ⟨rfl, Nat.le_refl _⟩
    · dsimp only
      split
      · exact ⟨rfl, Nat.le_refl _⟩
      · split
        · rename_i grew
          obtain ⟨below, rfl⟩ := grow_cases grew
          exact ⟨rfl, Nat.le_of_lt (lt_nextCapacity below)⟩
        · exact .refl s

theorem remove_widened (s : Store) (key : Key) : Widened s (s.remove key).1 := by
  unfold remove
  split
  · exact .refl s
  · dsimp only
    split
    · exact ⟨rfl, Nat.le_refl _⟩
    · exact ⟨rfl, Nat.le_refl _⟩

theorem Outcome.widened (outcome : Outcome s s') : Widened s s' := by
  cases outcome with
  | same => exact .refl s
  | rewritten => exact ⟨rfl, Nat.le_refl _⟩
  | @admitted _ key _ added =>
    have step := add_widened s key
    rwa [added] at step
  | @departed _ key _ _ removed =>
    have step := remove_widened s key
    rwa [removed] at step

/-- The index counts the tenants, and every slot handed out is a tenant's or was given back. -/
structure Tallied (s : Store) : Prop where
  indexed : s.index.size = s.tenants.length
  shared : s.slots.size = s.tenants.length + s.free.length

theorem tallied_ofLimits (initial most : Nat) : (ofLimits initial most).Tallied := ⟨rfl, rfl⟩

/-- A cell that is let in takes a slot given back, or one more. -/
private theorem add_shares (absent : s.index[key]? = none) (added : s.add key = (s', .ok i)) :
    s'.slots.size + s.free.length = s.slots.size + s'.free.length + 1 := by
  unfold add at added
  rw [absent] at added
  dsimp only at added
  split at added
  · rename_i spare
    cases added
    simp [settle, spare, Nat.add_assoc]
  · rename_i spare
    split at added
    · cases added
      simp [settleNext]
      omega
    · split at added
      · rename_i grown grew
        obtain ⟨_, rfl⟩ := grow_cases grew
        cases added
        simp [settleNext]
        omega
      · cases added

/-- A cell that is turned out gives its slot back. -/
private theorem remove_shares {slot : Slot} (found : s.index[key]? = some i) (living : s.live? i = some slot) :
    (s.remove key).1.slots.size = s.slots.size ∧ (s.remove key).1.free.length = s.free.length + 1 := by
  simp [remove, found, slot?_live living, put_size]

theorem Admitted.size (admitted : Admitted s key s' i) : s'.size = s.size + 1 := by
  have fresh : key ∉ s.index := by simp [Std.ExtTreeMap.mem_iff_isSome_getElem?, admitted.absent]
  rw [Store.size, admitted.index, Std.ExtTreeMap.size_insert]
  exact if_neg fresh

theorem Departed.size {slot : Slot} (departed : Departed s key s' i slot) (found : s.index[key]? = some i) :
    s'.size = s.size - 1 := by
  have known : key ∈ s.index := by simp [Std.ExtTreeMap.mem_iff_isSome_getElem?, found]
  rw [Store.size, departed.index, Std.ExtTreeMap.size_erase]
  exact if_pos known

private theorem Tallied.admitted (tallied : s.Tallied) (admitted : Admitted s key s' i)
    (added : s.add key = (s', .ok i)) : s'.Tallied := by
  have shares := add_shares admitted.absent added
  have tenants : s'.tenants.length = s.tenants.length + 1 := admitted.tenants.length_eq
  have index : s'.index.size = s.index.size + 1 := admitted.size
  have := tallied.indexed
  have := tallied.shared
  exact ⟨by omega, by omega⟩

private theorem Tallied.departed {slot : Slot} (tallied : s.Tallied) (sound : s.Sound)
    (departed : Departed s key s' i slot) (removed : s.remove key = (s', some ⟨i, slot.shape⟩)) : s'.Tallied := by
  have found : s.index[key]? = some i := departed.owner ▸ sound.indexed departed.found
  obtain ⟨size, free⟩ : s'.slots.size = s.slots.size ∧ s'.free.length = s.free.length + 1 := by
    simpa only [removed] using remove_shares found departed.found
  have tenants : s.tenants.length = s'.tenants.length + 1 := departed.tenants.length_eq
  have index : s'.index.size = s.index.size - 1 := departed.size found
  have := tallied.indexed
  have := tallied.shared
  exact ⟨by omega, by omega⟩

theorem Outcome.tallied (sound : s.Sound) (tallied : s.Tallied) (outcome : Outcome s s') : s'.Tallied := by
  cases outcome with
  | same => exact tallied
  | rewritten found kept =>
    obtain ⟨others, before, later⟩ := tenants_rewrite found kept
    have tenants := later.length_eq.trans before.length_eq.symm
    exact ⟨tallied.indexed.trans tenants.symm, (put_size ..).trans (tallied.shared.trans (by rw [tenants]; rfl))⟩
  | admitted added admitted => exact tallied.admitted admitted added
  | departed removed departed => exact tallied.departed sound departed removed

/-- Every slot is in one of the five stages. -/
private theorem length_by_stage (slots : List Slot) :
    slots.length = slots.countP (·.stage = .unloaded) + slots.countP (·.stage = .scheduled) +
      slots.countP (·.stage = .generating) + slots.countP (·.stage = .ready) + slots.countP (·.stage = .removing) := by
  induction slots with
  | nil => rfl
  | cons slot rest ih =>
    rw [List.length_cons, ih]
    cases stage : slot.stage <;> simp [stage] <;> omega

/-- The books of a store agree. -/
structure Agreed (s : Store) : Prop where
  /-- The index leads to a slot exactly when a cell of that key lives there. -/
  mapped : ∀ key i, s.indexOf key = some i ↔ ∃ slot, s.live? i = some slot ∧ slot.key = key
  alone : ∀ key other i, s.indexOf key = some i → s.indexOf other = some i → key = other
  distinct : s.free.Nodup
  /-- The slots handed out are those given back and those the index leads to. -/
  covered : ∀ i, i < s.slots.size ↔ i ∈ s.free ∨ ∃ key, s.indexOf key = some i
  apart : ∀ i ∈ s.free, ∀ key, s.indexOf key ≠ some i
  used : s.slots.size ≤ s.capacity
  bounded : s.capacity ≤ s.limit
  paged : pageSize ∣ s.capacity
  /-- Every slot within the capacity has its page. -/
  laid : ∀ i < s.capacity, i / pageSize ∈ s.pages
  /-- Just the slots within the capacity can be looked at. -/
  within : ∀ i, (s.slot? i).isSome ↔ i < s.capacity
  capacity : s.census.capacity = s.capacity
  live : s.census.live = s.size
  stages : s.census.live = s.census.unloaded + s.census.scheduled + s.census.generating + s.census.ready +
    s.census.removing
  spare : s.census.live + s.census.freeSlots = s.slots.size

theorem slot?_isSome (roomy : s.Roomy) (i : Nat) : (s.slot? i).isSome ↔ i < s.capacity := by
  rw [roomy.slot?_eq]
  split <;> simp_all

theorem Sound.agreed (sound : s.Sound) (tallied : s.Tallied) : s.Agreed where
  mapped := sound.mapped
  alone key other i first second := by
    obtain ⟨slot, living, rfl⟩ := sound.lives first
    obtain ⟨tenant, present, rfl⟩ := sound.lives second
    rw [living] at present
    cases present
    rfl
  distinct := sound.distinct
  covered i := by
    constructor
    · intro inside
      have stored := Array.getElem?_eq_getElem inside
      cases alive : s.slots[i].live with
      | false => exact .inl ((sound.spare i).mpr ⟨_, stored, alive⟩)
      | true => exact .inr ⟨_, sound.indexed (sound.roomy.live?_eq_some.mpr ⟨stored, alive⟩)⟩
    · rintro (listed | ⟨key, found⟩)
      · obtain ⟨slot, stored, _⟩ := (sound.spare i).mp listed
        exact (Array.getElem?_eq_some_iff.mp stored).1
      · obtain ⟨slot, living, _⟩ := sound.lives found
        exact live?_inside living
  apart i listed key found := by
    obtain ⟨slot, living, _⟩ := sound.lives found
    obtain ⟨stored, alive⟩ := live?_stored living
    obtain ⟨vacated, there, vacant⟩ := (sound.spare i).mp listed
    rw [stored] at there
    cases there
    rw [alive] at vacant
    cases vacant
  used := sound.roomy.used
  bounded := sound.roomy.bounded
  paged := sound.roomy.paged
  laid i inside := Std.ExtTreeSet.contains_iff_mem.mp (sound.roomy.laid i inside)
  within := slot?_isSome sound.roomy
  capacity := rfl
  live := tallied.indexed.symm
  stages := length_by_stage s.tenants
  spare := tallied.shared.symm

/-- Soundness, counts and room outlast every history. -/
theorem after_tallied (sound : s.Sound) (tallied : s.Tallied) (history : List Operation) :
    (s.after history).Sound ∧ (s.after history).Tallied ∧ Widened s (s.after history) := by
  refine after_keeps (fun reached => reached.Tallied ∧ Widened s reached) sound ⟨tallied, .refl s⟩ ?_ history
  rintro before after sound ⟨tallied, widened⟩ outcome
  exact ⟨outcome.tallied sound tallied, widened.trans outcome.widened⟩

/-- After every history of a store that started empty its books agree, its limit is the first one, and
its capacity does not shrink from there on. -/
theorem books_agree (initial most : Nat) (history later : List Operation) :
    let start := ofLimits initial most
    (start.after history).Agreed ∧ (start.after history).limit = start.limit ∧
      (start.after history).capacity ≤ (start.after (history ++ later)).capacity := by
  intro start
  obtain ⟨sound, tallied, widened⟩ := after_tallied (sound_ofLimits initial most) (tallied_ofLimits initial most) history
  obtain ⟨_, _, further⟩ := after_tallied sound tallied later
  refine ⟨sound.agreed tallied, widened.limit, ?_⟩
  rw [after_append]
  exact further.wider

end TerrainStream.Store
