import TerrainStream.Proofs.Store.Claims
import TerrainStream.Proofs.Store.Tenancy

/-! Stores that look alike to a simulation: what is switched on, and who owns which shape. -/

namespace TerrainStream.Store

open Cell

/-- Whether a slot is the home of a key's cell and switched on. -/
def lights (s : Store) (key : Key) (i : Nat) : Bool := (s.live? i).any fun slot => slot.key = key && slot.active

variable {s s' : Store} {i : Nat} {slot fresh : Slot} {key : Key}

theorem lights_live (found : s.live? i = some slot) (key : Key) : s.lights key i = (slot.key = key && slot.active) := by
  rw [lights, found, Option.any_some]

theorem lights_vacant (vacant : s.live? i = none) (key : Key) : s.lights key i = false := by
  rw [lights, vacant, Option.any_none]

theorem isLit_eq_true (sound : s.Sound) : s.isLit key = true ↔ ∃ i, s.lights key i = true := by
  constructor
  · intro lit
    cases found : s.index[key]? with
    | none =>
      rw [isLit_absent found] at lit
      cases lit
    | some i =>
      obtain ⟨slot, living, rfl⟩ := sound.lives found
      refine ⟨i, ?_⟩
      rw [isLit_live sound living] at lit
      simp [lights_live living, lit]
  · rintro ⟨i, lit⟩
    cases living : s.live? i with
    | none =>
      rw [lights_vacant living] at lit
      cases lit
    | some slot =>
      rw [lights_live living, Bool.and_eq_true, decide_eq_true_eq] at lit
      rw [← lit.1, isLit_live sound living, lit.2]

/-- Two stores whose cells are switched alike and own the same shapes. -/
structure Alike (s s' : Store) : Prop where
  lights : ∀ key i, s'.lights key i = s.lights key i
  shapes : s'.shapes.Perm s.shapes
  owners : ∀ (i : Nat) slot shape, s'.live? i = some slot → slot.shape = some shape →
    ∃ old, s.live? i = some old ∧ old.key = slot.key ∧ old.shape = some shape ∧ old.active = slot.active

theorem Alike.isLit (alike : Alike s s') (sound : s.Sound) (kept : s'.Sound) (key : Key) : s'.isLit key = s.isLit key := by
  rw [Bool.eq_iff_iff, isLit_eq_true kept, isLit_eq_true sound]
  simp only [alike.lights]

theorem Alike.refl (s : Store) : Alike s s :=
  ⟨fun _ _ => rfl, .refl _, fun _ slot _ found owned => ⟨slot, found, rfl, owned, rfl⟩⟩

theorem alike_put (found : s.live? i = some slot) (kept : fresh.live = slot.live) (key : fresh.key = slot.key)
    (active : fresh.active = slot.active) (shape : fresh.shape = slot.shape) : Alike s (s.put i fresh) := by
  refine ⟨?_, shapes_kept found kept shape, ?_⟩
  · intro other j
    rw [lights, live?_put found kept]
    split
    · rename_i here
      subst j
      rw [lights_live found, Option.any_some, key, active]
    · rfl
  · intro j other handle living owned
    rw [live?_put found kept] at living
    split at living
    · rename_i here
      subst j
      cases living
      exact ⟨slot, found, key.symm, shape ▸ owned, active.symm⟩
    · exact ⟨other, living, rfl, owned, rfl⟩

theorem alike_outline (same : s'.outline = s.outline) : Alike s s' := by
  have slots (i : Nat) : (s'.live? i).map Slot.outline = (s.live? i).map Slot.outline := by
    rw [← live?_outline, same, live?_outline]
  have faces {i : Nat} {slot old : Slot} (now : s'.live? i = some slot) (before : s.live? i = some old) :
      slot.key = old.key ∧ slot.shape = old.shape ∧ slot.active = old.active := by
    have outlines : slot.outline = old.outline := by simpa [now, before] using slots i
    have key : slot.outline.key = old.outline.key := congrArg Slot.key outlines
    have shape : slot.outline.shape = old.outline.shape := congrArg Slot.shape outlines
    have active : slot.outline.active = old.outline.active := congrArg Slot.active outlines
    exact ⟨key, shape, active⟩
  refine ⟨?_, .of_eq (by rw [← shapes_outline, same, shapes_outline]), ?_⟩
  · intro key i
    cases now : s'.live? i with
    | none =>
      have before : s.live? i = none := by
        have same := slots i
        rw [now] at same
        exact Option.map_eq_none_iff.mp same.symm
      rw [lights_vacant now, lights_vacant before]
    | some slot =>
      obtain ⟨old, before, _⟩ : ∃ old, s.live? i = some old ∧ old.outline = slot.outline := by
        simpa [now, eq_comm] using slots i
      obtain ⟨owner, _, active⟩ := faces now before
      rw [lights_live now, lights_live before, owner, active]
  · intro i slot shape now owned
    obtain ⟨old, before, _⟩ : ∃ old, s.live? i = some old ∧ old.outline = slot.outline := by
      simpa [now, eq_comm] using slots i
    obtain ⟨owner, same, active⟩ := faces now before
    exact ⟨old, before, owner.symm, same ▸ owned, active.symm⟩

/-- Whoever comes in is switched off and owns no shape. -/
theorem Admitted.alike (admitted : Admitted s key s' i) : Alike s s' := by
  refine ⟨?_, admitted.shapes, ?_⟩
  · intro other j
    rw [lights, admitted.sees]
    split
    · rename_i here
      subst j
      rw [lights_vacant admitted.vacant]
      simp [Slot.newcomer]
    · rfl
  · intro j slot shape living owned
    rw [admitted.sees] at living
    split at living
    · cases living
      cases owned
    · exact ⟨slot, living, rfl, owned, rfl⟩

/-- Whether a slot holds the build that it held in an earlier store, for the same cell. -/
def Slot.Keeps (s : Store) (i : Nat) (slot : Slot) : Prop :=
  ∃ old, s.live? i = some old ∧ old.key = slot.key ∧ old.shape = slot.shape ∧ old.placeholder = slot.placeholder

/-- Every tenant has been there before, with the build that it has. -/
def Inherits (s s' : Store) : Prop := ∀ i slot, s'.live? i = some slot → slot.Keeps s i

/-- Whether a tenant has no build: one that is complete leaves a shape behind, or is no placeholder. -/
def Slot.isBare (s : Slot) : Bool := s.placeholder && s.shape.isNone

/-- Every tenant that has a build has been there before, with the build that it has. -/
def Unbuilt (s s' : Store) : Prop := ∀ i slot, s'.live? i = some slot → slot.isBare = true ∨ slot.Keeps s i

/-- Nobody has left, and whoever has been there before has the build that it had. -/
structure Grows (s s' : Store) : Prop where
  stays : ∀ key, s.contains key = true → s'.contains key = true
  keeps : ∀ i slot, s'.live? i = some slot → s.contains slot.key = true → slot.Keeps s i

variable {s'' : Store}

theorem Slot.Keeps.trans {old : Slot} (first : old.Keeps s i) (second : s'.live? i = some old ∧ old.key = slot.key ∧
    old.shape = slot.shape ∧ old.placeholder = slot.placeholder) : slot.Keeps s i := by
  obtain ⟨older, living, key, shape, placeholder⟩ := first
  exact ⟨older, living, key.trans second.2.1, shape.trans second.2.2.1, placeholder.trans second.2.2.2⟩

theorem Slot.Keeps.isBare {old : Slot} (keeps : slot.Keeps s i) (found : s.live? i = some old) :
    slot.isBare = old.isBare := by
  obtain ⟨same, living, _, shape, placeholder⟩ := keeps
  rw [found] at living
  cases living
  rw [Slot.isBare, Slot.isBare, shape, placeholder]

theorem isBare_live (found : s.live? i = some slot) : (s.isPlaceholder i && (s.shape i).isNone) = slot.isBare := by
  rw [isPlaceholder_live found, shape, found, Option.bind_some, Slot.isBare]

theorem Inherits.refl (s : Store) : Inherits s s := fun _ slot living => ⟨slot, living, rfl, rfl, rfl⟩

theorem Inherits.trans (first : Inherits s s') (second : Inherits s' s'') : Inherits s s'' := by
  intro i slot living
  obtain ⟨old, before, same⟩ := second i slot living
  exact (first i old before).trans ⟨before, same⟩

theorem Inherits.grows (inherits : Inherits s s') (index : s'.index = s.index) : Grows s s' :=
  ⟨fun key there => by rw [contains, index]; exact there, fun i slot living _ => inherits i slot living⟩

theorem Inherits.unbuilt (inherits : Inherits s s') : Unbuilt s s' := fun i slot living => .inr (inherits i slot living)

theorem Unbuilt.trans (first : Unbuilt s s') (second : Unbuilt s' s'') : Unbuilt s s'' := by
  intro i slot living
  rcases second i slot living with bare | keeps
  · exact .inl bare
  · obtain ⟨old, before, same⟩ := id keeps
    exact (first i old before).imp (fun bare => (keeps.isBare before).trans bare) fun kept => kept.trans ⟨before, same⟩

theorem Grows.refl (s : Store) : Grows s s := (Inherits.refl s).grows rfl

theorem Grows.trans (first : Grows s s') (second : Grows s' s'') : Grows s s'' := by
  refine ⟨fun key there => second.stays key (first.stays key there), fun i slot living there => ?_⟩
  obtain ⟨old, before, owner, same⟩ := second.keeps i slot living (first.stays _ there)
  exact (first.keeps i old before (owner ▸ there)).trans ⟨before, owner, same⟩

theorem inherits_put (found : s.live? i = some slot) (kept : fresh.live = slot.live) (key : fresh.key = slot.key)
    (shape : fresh.shape = slot.shape) (placeholder : fresh.placeholder = slot.placeholder) :
    Inherits s (s.put i fresh) := by
  intro j other living
  rw [live?_put found kept] at living
  split at living
  · rename_i here
    subst j
    cases living
    exact ⟨slot, found, key.symm, shape.symm, placeholder.symm⟩
  · exact ⟨other, living, rfl, rfl, rfl⟩

theorem inherits_outline (same : s'.outline = s.outline) : Inherits s s' := by
  intro i slot living
  have slots : (s'.live? i).map Slot.outline = (s.live? i).map Slot.outline := by
    rw [← live?_outline, same, live?_outline]
  rw [living, Option.map_some] at slots
  obtain ⟨old, before, outlines⟩ := Option.map_eq_some_iff.mp slots.symm
  have key : old.outline.key = slot.outline.key := congrArg Slot.key outlines
  have shape : old.outline.shape = slot.outline.shape := congrArg Slot.shape outlines
  have placeholder : old.outline.placeholder = slot.outline.placeholder := congrArg Slot.placeholder outlines
  exact ⟨old, before, key, shape, placeholder⟩

theorem inherits_retain (s : Store) (i : Nat) : Inherits s (s.retain i).1 := by
  cases found : s.live? i with
  | none => rw [retain_vacant found]; exact .refl _
  | some slot => rw [retain_live found]; exact inherits_put found rfl rfl rfl rfl

theorem inherits_release (s : Store) (i : Nat) : Inherits s (s.release i).1 := by
  cases found : s.live? i with
  | none => rw [release_vacant found]; exact .refl _
  | some slot => rw [release_live found]; exact inherits_put found rfl rfl rfl rfl

theorem Departed.inherits (departed : Departed s key s' i slot) : Inherits s s' := by
  intro j other living
  rw [departed.sees] at living
  split at living
  · cases living
  · exact ⟨other, living, rfl, rfl, rfl⟩

theorem Admitted.grows (admitted : Admitted s key s' i) : Grows s s' := by
  refine ⟨fun other there => ?_, fun j slot living there => ?_⟩
  · rw [contains, Std.ExtTreeMap.contains_eq_isSome_getElem?] at there ⊢
    obtain ⟨j, found⟩ := Option.isSome_iff_exists.mp there
    rw [admitted.stays found]
    rfl
  · rw [admitted.sees] at living
    split at living
    · cases living
      rw [contains, Std.ExtTreeMap.contains_eq_isSome_getElem?] at there
      rw [show s.index[(Slot.newcomer key (s.version i)).key]? = none from admitted.absent] at there
      cases there
    · exact ⟨slot, living, rfl, rfl, rfl⟩

/-- Whoever comes in has no build. -/
theorem Admitted.unbuilt (admitted : Admitted s key s' i) : Unbuilt s s' := by
  intro j slot living
  rw [admitted.sees] at living
  split at living
  · cases living
    exact .inl rfl
  · exact .inr ⟨slot, living, rfl, rfl, rfl⟩

end TerrainStream.Store
