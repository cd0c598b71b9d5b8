import TerrainStream.Proofs.Store.Tenancy

/-! The cell of a key. In a sound store a key leads to one tenant at most, and rewriting a tenant, letting
a cell in and turning one out are seen under one key only. -/

namespace TerrainStream.Store

open Cell

/-- The slot that the cell of a key lives in. -/
def tenant? (s : Store) (key : Key) : Option Slot := (s.indexOf key).bind s.live?

variable {s s' : Store} {i : Nat} {slot fresh : Slot} {key other : Key}

theorem tenant?_live (sound : s.Sound) (found : s.live? i = some slot) : s.tenant? slot.key = some slot := by
  simp [tenant?, indexOf, sound.indexed found, found]

theorem tenant?_absent (absent : s.index[key]? = none) : s.tenant? key = none := by
  simp [tenant?, indexOf, absent]

theorem tenant?_isSome (sound : s.Sound) : (s.tenant? key).isSome = s.contains key := by
  rw [contains, Std.ExtTreeMap.contains_eq_isSome_getElem?]
  cases found : s.index[key]? with
  | none => simp [tenant?_absent found]
  | some i =>
    obtain ⟨slot, living, rfl⟩ := sound.lives found
    simp [tenant?_live sound living]

theorem refsOf_tenant (s : Store) (key : Key) : s.refsOf key = (s.tenant? key).elim 0 (·.refs) := by
  unfold refsOf tenant?
  cases s.indexOf key <;> rfl

/-- The cell of a key, if the index knows of one. -/
theorem tenant_cases (sound : s.Sound) (key : Key) :
    (∃ i slot, s.indexOf key = some i ∧ s.live? i = some slot ∧ slot.key = key ∧ s.tenant? key = some slot) ∨
    (s.indexOf key = none ∧ s.tenant? key = none) := by
  cases found : s.index[key]? with
  | none => exact .inr ⟨found, tenant?_absent found⟩
  | some i =>
    obtain ⟨slot, living, rfl⟩ := sound.lives found
    exact .inl ⟨i, slot, found, living, rfl, tenant?_live sound living⟩

theorem tenant?_same (index : s'.index[key]? = s.index[key]?)
    (sees : ∀ j, s.index[key]? = some j → s'.live? j = s.live? j) : s'.tenant? key = s.tenant? key := by
  cases found : s.index[key]? with
  | none => rw [tenant?_absent found, tenant?_absent (index.trans found)]
  | some j => simp [tenant?, indexOf, index, found, sees j found]

theorem live?_put_self (fresh : Slot) (found : s.live? i = some slot) (kept : fresh.live = slot.live) :
    (s.put i fresh).live? i = some fresh := by
  rw [live?_put found kept, if_pos rfl]

theorem tenant?_put (sound : s.Sound) (found : s.live? i = some slot) (kept : fresh.live = slot.live)
    (key : Key) : (s.put i fresh).tenant? key = if slot.key = key then some fresh else s.tenant? key := by
  split
  · rename_i here
    subst key
    simp [tenant?, indexOf, sound.indexed found, live?_put found kept]
  · rename_i elsewhere
    refine tenant?_same rfl fun j there => ?_
    rw [live?_put found kept, if_neg (sound.apart found there elsewhere)]

theorem Admitted.tenant? (sound : s.Sound) (admitted : Admitted s key s' i) (kept : s'.Sound) (other : Key) :
    s'.tenant? other = if key = other then some (Slot.newcomer key (s.version i)) else s.tenant? other := by
  split
  · rename_i same
    subst other
    exact tenant?_live kept admitted.here
  · rename_i different
    exact tenant?_same (admitted.index_other different) fun j found => admitted.sees_other sound found

theorem Departed.tenant? (sound : s.Sound) (departed : Departed s key s' i slot) (other : Key) :
    s'.tenant? other = if key = other then none else s.tenant? other := by
  split
  · rename_i same
    subst other
    exact tenant?_absent departed.gone
  · rename_i different
    exact tenant?_same (departed.index_other different) fun j found => departed.sees_other sound different found

end TerrainStream.Store
