import TerrainStream.Proofs.Residency.Steady
import TerrainStream.Proofs.Store.Lookup

/-! How cells are cleared away. From its sweep on a pass leaves a tenant in its slot with its shape, or it frees the
slot and orders the shape out of the simulation. -/

namespace TerrainStream

open Cell Physics Store Collision

namespace Store

variable {s : Store} {i : Nat} {key : Key} {slot : Slot}

/-- Removing a cell takes no slot away from those that are free. -/
theorem remove_spares (key : Key) (spare : i ∈ s.free) : i ∈ (s.remove key).1.free := by
  unfold remove
  split
  · exact spare
  · dsimp only
    split
    · exact spare
    · exact List.mem_cons_of_mem _ spare

/-- Removing a cell frees its slot. -/
theorem remove_frees (found : s.index[key]? = some i) (living : s.live? i = some slot) : i ∈ (s.remove key).1.free := by
  simp [remove, found, slot?_live living]

end Store

namespace Residency.Desk

variable {d d' d'' : Desk} {key : Key} {i : Nat} {shape : Option Handle} {more : List Command}

/-- What has become of a tenant between two desks: it is in its slot with its shape, or the slot is free and the
shape is to be removed. -/
structure Disposes (key : Key) (i : Nat) (shape : Option Handle) (d d' : Desk) : Prop where
  sound : d'.store.Sound
  ready : d'.commands.isOpen = true
  outcome : ∃ sent, d'.commands.letters.toList = d.commands.letters.toList ++ sent ∧
    ((∃ slot, d'.store.live? i = some slot ∧ slot.key = key ∧ slot.shape = shape) ∨
      (i ∈ d'.store.free ∧ ∀ handle, shape = some handle → .remove key handle ∈ sent))

/-- What one act does to tenants and free slots carries on what has become of a tenant before. -/
private theorem Disposes.next (disposes : Disposes key i shape d d') (sound : d''.store.Sound)
    (ready : d''.commands.isOpen = true) (letters : d''.commands.letters.toList = d'.commands.letters.toList ++ more)
    (tenant : ∀ slot, d'.store.live? i = some slot →
      (∃ fresh, d''.store.live? i = some fresh ∧ fresh.key = slot.key ∧ fresh.shape = slot.shape) ∨
        (i ∈ d''.store.free ∧ ∀ handle, slot.shape = some handle → .remove slot.key handle ∈ more))
    (spare : i ∈ d'.store.free → i ∈ d''.store.free) : Disposes key i shape d d'' := by
  obtain ⟨sent, before, outcome⟩ := disposes.outcome
  refine ⟨sound, ready, sent ++ more, by rw [letters, before, List.append_assoc], ?_⟩
  rcases outcome with ⟨slot, living, rfl, rfl⟩ | ⟨free, removed⟩
  · rcases tenant slot living with stays | ⟨freed, removed⟩
    · exact .inl stays
    · exact .inr ⟨freed, fun handle owned => List.mem_append_right _ (removed handle owned)⟩
  · exact .inr ⟨spare free, fun handle owned => List.mem_append_left _ (removed handle owned)⟩

private theorem Disposes.framed (disposes : Disposes key i shape d d') (framed : Framed d' d'') :
    Disposes key i shape d d'' := by
  have slots : (d''.store.live? i).map Slot.outline = (d'.store.live? i).map Slot.outline := by
    rw [← live?_outline, framed.outline, live?_outline]
  have free : d''.store.outline.free = d'.store.outline.free := congrArg Store.free framed.outline
  have letters : d''.commands.letters.toList = d'.commands.letters.toList ++ [] := by
    rw [framed.commands, List.append_nil]
  refine disposes.next (disposes.sound.of_outline framed.outline) (framed.commands ▸ disposes.ready) letters
    (fun slot living => .inl ?_) fun spare => (free ▸ spare : i ∈ d''.store.outline.free)
  rw [living, Option.map_some] at slots
  obtain ⟨fresh, present, outlines⟩ := Option.map_eq_some_iff.mp slots
  have key : fresh.outline.key = slot.outline.key := congrArg Slot.key outlines
  have shape : fresh.outline.shape = slot.outline.shape := congrArg Slot.shape outlines
  exact ⟨fresh, present, key, shape⟩

private theorem evict_store (d : Desk) (key : Key) : (d.evict key).store = (d.store.remove key).1 := by
  unfold evict
  split <;> rename_i removed <;> rw [removed]

private theorem Disposes.sweepOne (disposes : Disposes key i shape d d') (k : Key) :
    Disposes key i shape d (d'.sweepOne k) := by
  rcases sweepOne_cases d' k with noted | ⟨j, store, found, _, retired, step⟩
  · exact disposes.framed noted.framed
  · obtain ⟨s', slot, report, departed, sound, _, _, ends, _⟩ := evict_cases disposes.sound found retired
    obtain ⟨_, tenant, _, _, rfl⟩ := tryRetire_true retired
    obtain rfl : slot = _ := Option.some.inj (departed.found.symm.trans tenant)
    have turnedOut : s' = (Store.remove _ k).1 := ((evict_store _ k).symm.trans (congrArg Desk.store ends)).symm
    have spare : j ∈ s'.free := by
      rw [turnedOut]
      exact remove_frees found (live?_put_self _ departed.found rfl)
    have letters : (slot.shape.elim d'.commands fun shape => d'.commands.post (.remove k shape)).letters.toList =
        d'.commands.letters.toList ++ slot.shape.toList.map (Command.remove k) := by
      cases slot.shape with
      | none => exact (List.append_nil _).symm
      | some shape => exact Mailbox.post_letters disposes.ready _
    have ready : (slot.shape.elim d'.commands fun shape => d'.commands.post (.remove k shape)).isOpen = true := by
      cases slot.shape with
      | none => exact disposes.ready
      | some shape => exact (Mailbox.post_isOpen _ _).trans disposes.ready
    rw [step, ends]
    refine disposes.next sound ready letters (fun other living => ?_) fun before => ?_
    · dsimp only
      by_cases here : j = i
      · subst j
        obtain rfl : slot = other := Option.some.inj (departed.found.symm.trans living)
        refine .inr ⟨spare, fun handle owned => ?_⟩
        simp [owned, departed.owner]
      · exact .inl ⟨other, by rw [departed.sees, if_neg here, living], rfl, rfl⟩
    · dsimp only
      rw [turnedOut]
      exact remove_spares k before

private theorem fold_disposes (keys : List Key) (disposes : Disposes key i shape d d') :
    Disposes key i shape d (keys.foldl sweepOne d') := by
  induction keys generalizing d' with
  | nil => exact disposes
  | cons k keys ih => exact ih (disposes.sweepOne k)

/-- From its sweep on a pass disposes of every tenant. -/
theorem settle_disposes {slot : Slot} (sound : d.activate.store.Sound) (ready : d.activate.commands.isOpen = true)
    (living : d.activate.store.live? i = some slot) : Disposes slot.key i slot.shape d.activate d.settle := by
  have start : Disposes slot.key i slot.shape d.activate d.activate :=
    ⟨sound, ready, [], (List.append_nil _).symm, .inl ⟨slot, living, rfl, rfl⟩⟩
  have swept : Disposes slot.key i slot.shape d.activate d.activate.sweep := fold_disposes _ start
  exact swept.framed (claims_clerical d.activate.sweep).framed

end Residency.Desk
end TerrainStream
