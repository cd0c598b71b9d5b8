import Mathlib.Algebra.Ring.Nat
import TerrainStream.Proofs.Cell.Table
import TerrainStream.Store.Census
import TerrainStream.Store.Lifecycle

/-! The index, the slots, the free list and the pages of a store tell one story. Rewriting a tenant in place
keeps it, and what is seen of a cell through its key changes only as the slot does. -/

namespace TerrainStream.Store

open Cell

/-- The slots handed out fit into the capacity, which is whole pages within the limit, all of them laid out. -/
structure Roomy (s : Store) : Prop where
  used : s.slots.size ≤ s.capacity
  bounded : s.capacity ≤ s.limit
  paged : pageSize ∣ s.capacity
  whole : pageSize ∣ s.limit
  laid : ∀ i < s.capacity, s.pages.contains (i / pageSize) = true

/-- The index maps a key to the slot where a cell of that key lives, the free list names every slot
handed back once, a slot without a tenant holds no shape, and every slot has its page. -/
structure Sound (s : Store) : Prop where
  roomy : s.Roomy
  mapped : ∀ key i, s.index[key]? = some i ↔ ∃ slot, s.live? i = some slot ∧ slot.key = key
  spare : ∀ i, i ∈ s.free ↔ ∃ slot, s.slots[i]? = some slot ∧ slot.live = false
  distinct : s.free.Nodup
  bare : ∀ (i : Nat) (slot : Slot), s.slots[i]? = some slot → slot.live = false → slot.shape = none

/-- The references on a cell, named by its key; a cell that is not there has none. -/
def refsOf (s : Store) (key : Key) : Nat := (s.indexOf key).elim 0 s.refs

/-- Whether the cell of a key is there and switched on. -/
def isLit (s : Store) (key : Key) : Bool := (s.indexOf key).any s.isActive

/-- The shapes that tenants own. -/
def shapes (s : Store) : List Handle := s.tenants.filterMap (·.shape)

/-- All the references in a store. -/
def total (s : Store) : Nat := (s.tenants.map (·.refs)).sum

variable {s s' : Store} {i j : Nat} {slot fresh : Slot} {key : Key}

/-- A tenant is seen as any slot is. -/
theorem slot?_live (found : s.live? i = some slot) : s.slot? i = some slot := (Option.filter_eq_some_iff.mp found).1

theorem live?_alive (found : s.live? i = some slot) : slot.live = true := (Option.filter_eq_some_iff.mp found).2

theorem stage_live (found : s.live? i = some slot) : s.stage i = slot.stage := by
  rw [stage, slot?_live found, Option.elim_some]

theorem version_live (found : s.live? i = some slot) : s.version i = slot.version := by
  rw [version, slot?_live found, Option.elim_some]

theorem isPlaceholder_live (found : s.live? i = some slot) : s.isPlaceholder i = slot.placeholder := by
  rw [isPlaceholder, slot?_live found, Option.elim_some]

theorem slot?_eq_some (seen : s.slot? i = some slot) : slot = s.slots[i]?.getD Slot.blank := by
  unfold slot? at seen
  split at seen
  · exact (Option.some.inj seen).symm
  · cases seen

theorem live?_stored (found : s.live? i = some slot) : s.slots[i]? = some slot ∧ slot.live = true := by
  have alive := live?_alive found
  have seen := slot?_eq_some (slot?_live found)
  -- A slot that was never handed out looks blank, and nobody lives in it.
  cases stored : s.slots[i]? with
  | none =>
    rw [stored, Option.getD_none] at seen
    rw [seen] at alive
    cases alive
  | some there =>
    rw [stored, Option.getD_some] at seen
    exact ⟨congrArg some seen.symm, alive⟩

theorem live?_inside (found : s.live? i = some slot) : i < s.slots.size :=
  (Array.getElem?_eq_some_iff.mp (live?_stored found).1).1

theorem live?_vacant (vacant : ∀ slot, s.slots[i]? = some slot → slot.live = false) : s.live? i = none := by
  refine Option.eq_none_iff_forall_ne_some.mpr fun slot found => ?_
  obtain ⟨stored, alive⟩ := live?_stored found
  cases (vacant slot stored).symm.trans alive

/-- Just the slots within the capacity can be looked at. -/
theorem Roomy.slot?_eq (roomy : s.Roomy) (i : Nat) :
    s.slot? i = if i < s.capacity then some (s.slots[i]?.getD Slot.blank) else none := by
  by_cases inside : i < s.capacity
  · simp [slot?, reaches, inside, roomy.laid i inside]
  · simp [slot?, reaches, inside]

/-- A slot that was handed out has its page, so it is seen. -/
theorem Roomy.slot?_stored (roomy : s.Roomy) (stored : s.slots[i]? = some slot) : s.slot? i = some slot := by
  have inside := (Array.getElem?_eq_some_iff.mp stored).1
  rw [roomy.slot?_eq, if_pos (Nat.lt_of_lt_of_le inside roomy.used), stored, Option.getD_some]

theorem Roomy.live?_eq (roomy : s.Roomy) (i : Nat) : s.live? i = s.slots[i]?.filter (·.live) := by
  cases stored : s.slots[i]? with
  | none => exact live?_vacant (by simp [stored])
  | some slot => rw [live?, roomy.slot?_stored stored]

theorem Roomy.live?_eq_some (roomy : s.Roomy) :
    s.live? i = some slot ↔ s.slots[i]? = some slot ∧ slot.live = true := by
  rw [roomy.live?_eq, Option.filter_eq_some_iff]

/-- A slot that was never handed out has the first version. -/
theorem Roomy.version_eq (roomy : s.Roomy) (i : Nat) : s.version i = s.slots[i]?.elim 0 (·.version) := by
  cases stored : s.slots[i]? with
  | none =>
    rw [version, roomy.slot?_eq, stored]
    split <;> rfl
  | some slot => rw [version, roomy.slot?_stored stored]

/-- Room stays where the limit, the capacity and the pages stay and no more slots are handed out than fit. -/
theorem Roomy.same (roomy : s.Roomy) (limit : s'.limit = s.limit) (capacity : s'.capacity = s.capacity)
    (pages : s'.pages = s.pages) (used : s'.slots.size ≤ s.capacity) : s'.Roomy := by
  refine ⟨capacity ▸ used, ?_, capacity ▸ roomy.paged, limit ▸ roomy.whole, ?_⟩
  · rw [capacity, limit]
    exact roomy.bounded
  · rw [capacity, pages]
    exact roomy.laid

theorem Sound.lives (sound : s.Sound) (found : s.index[key]? = some i) :
    ∃ slot, s.live? i = some slot ∧ slot.key = key := (sound.mapped key i).mp found

theorem Sound.indexed (sound : s.Sound) (found : s.live? i = some slot) : s.index[slot.key]? = some i :=
  (sound.mapped slot.key i).mpr ⟨slot, found, rfl⟩

theorem contains_of_indexed (found : s.index[key]? = some i) : s.contains key = true :=
  Std.ExtTreeMap.contains_eq_isSome_getElem?.trans (congrArg Option.isSome found)

theorem Sound.contains_key (sound : s.Sound) (found : s.live? i = some slot) : s.contains slot.key = true :=
  contains_of_indexed (sound.indexed found)

/-- No two slots have tenants of one key. -/
theorem Sound.alone (sound : s.Sound) (found : s.live? i = some slot) (other : s.live? j = some fresh)
    (same : slot.key = fresh.key) : i = j := by
  have first := sound.indexed found
  rw [same, sound.indexed other] at first
  exact (Option.some.inj first).symm

theorem Sound.apart (sound : s.Sound) (found : s.live? i = some slot) (other : s.index[key]? = some j)
    (different : slot.key ≠ key) : i ≠ j := by
  rintro rfl
  obtain ⟨actual, living, name⟩ := sound.lives other
  rw [found] at living
  cases living
  exact different name

theorem refsOf_live (sound : s.Sound) (found : s.live? i = some slot) : s.refsOf slot.key = slot.refs := by
  simp [refsOf, indexOf, sound.indexed found, refs, found]

theorem isLit_live (sound : s.Sound) (found : s.live? i = some slot) : s.isLit slot.key = slot.active := by
  simp [isLit, indexOf, sound.indexed found, isActive, found]

theorem refsOf_absent (absent : s.index[key]? = none) : s.refsOf key = 0 := by
  simp [refsOf, indexOf, absent]

theorem isLit_absent (absent : s.index[key]? = none) : s.isLit key = false := by
  simp [isLit, indexOf, absent]

theorem indexed_of_refs (held : 0 < s.refsOf key) : ∃ i, s.index[key]? = some i := by
  cases found : s.index[key]? with
  | none => rw [refsOf_absent found] at held; exact absurd held (Nat.lt_irrefl 0)
  | some i => exact ⟨i, rfl⟩

theorem put_size (s : Store) (i : Nat) (slot : Slot) : (s.put i slot).slots.size = s.slots.size :=
  Array.size_setIfInBounds

theorem put_slots (s : Store) (i : Nat) (slot : Slot) : (s.put i slot).slots = s.slots.setIfInBounds i slot := rfl

@[simp] theorem put_index (s : Store) (i : Nat) (slot : Slot) : (s.put i slot).index = s.index := rfl

@[simp] theorem put_free (s : Store) (i : Nat) (slot : Slot) : (s.put i slot).free = s.free := rfl

theorem put_self (found : s.live? i = some slot) : s.put i slot = s := by
  have stored := (live?_stored found).1
  have rows : s.slots.setIfInBounds i slot = s.slots := by
    apply Array.ext_getElem?
    intro j
    rw [Array.getElem?_setIfInBounds]
    split
    · rename_i here
      subst j
      split <;> simp_all
    · rfl
  simp [put, rows]

/-- Rewriting a slot that was handed out changes that slot alone. -/
theorem slot?_put (inside : i < s.slots.size) (fresh : Slot) (j : Nat) :
    (s.put i fresh).slot? j = if i = j then (s.slot? j).map fun _ => fresh else s.slot? j := by
  have same : (s.put i fresh).reaches j = s.reaches j := rfl
  rw [slot?, same, put_slots, Array.getElem?_setIfInBounds]
  by_cases here : i = j
  · subst j
    cases reached : s.reaches i <;> simp [slot?, reached, inside]
  · simp [slot?, here]

theorem live?_put (found : s.live? i = some slot) (kept : fresh.live = slot.live) :
    (s.put i fresh).live? j = if i = j then some fresh else s.live? j := by
  rw [live?, slot?_put (live?_inside found)]
  split
  · rename_i same
    subst j
    rw [slot?_live found, Option.map_some, Option.filter_some, if_pos (kept.trans (live?_alive found))]
  · rfl

/-- A tenant rewritten in place leaves the store sound. -/
theorem Sound.put (sound : s.Sound) (found : s.live? i = some slot) (kept : fresh.live = slot.live)
    (same : fresh.key = slot.key) : (s.put i fresh).Sound := by
  have alive : fresh.live = true := kept.trans (live?_alive found)
  have elsewhere (j : Nat) (other : Slot) (vacant : other.live = false) :
      (s.put i fresh).slots[j]? = some other ↔ s.slots[j]? = some other := by
    rw [put_slots, Array.getElem?_setIfInBounds]
    split
    · rename_i here
      subst j
      have stored := (live?_stored found).1
      have awake := live?_alive found
      simp only [stored, Option.some.injEq]
      split <;> grind
    · rfl
  refine ⟨sound.roomy.same rfl rfl rfl (Nat.le_trans (Nat.le_of_eq (put_size ..)) sound.roomy.used), ?_, ?_,
    sound.distinct, ?_⟩
  · intro key j
    rw [put_index, sound.mapped, live?_put found kept]
    split
    · rename_i here
      subst j
      simp [found, same]
    · rfl
  · intro j
    rw [put_free, sound.spare]
    constructor
    · rintro ⟨other, stored, vacant⟩
      exact ⟨other, (elsewhere j other vacant).mpr stored, vacant⟩
    · rintro ⟨other, stored, vacant⟩
      exact ⟨other, (elsewhere j other vacant).mp stored, vacant⟩
  · intro j other stored vacant
    exact sound.bare j other ((elsewhere j other vacant).mp stored) vacant

theorem refsOf_put (sound : s.Sound) (found : s.live? i = some slot) (kept : fresh.live = slot.live)
    (key : Key) : (s.put i fresh).refsOf key = if slot.key = key then fresh.refs else s.refsOf key := by
  split
  · rename_i here
    subst key
    simp [refsOf, indexOf, sound.indexed found, refs, live?_put found kept]
  · rename_i elsewhere
    cases other : s.index[key]? with
    | none => simp [refsOf, indexOf, other]
    | some j => simp [refsOf, indexOf, other, refs, live?_put found kept, sound.apart found other elsewhere]

theorem isLit_put (sound : s.Sound) (found : s.live? i = some slot) (kept : fresh.live = slot.live)
    (key : Key) : (s.put i fresh).isLit key = if slot.key = key then fresh.active else s.isLit key := by
  split
  · rename_i here
    subst key
    simp [isLit, indexOf, sound.indexed found, isActive, live?_put found kept]
  · rename_i elsewhere
    cases other : s.index[key]? with
    | none => simp [isLit, indexOf, other]
    | some j => simp [isLit, indexOf, other, isActive, live?_put found kept, sound.apart found other elsewhere]

theorem mem_tenants : slot ∈ s.tenants ↔ ∃ i, s.live? i = some slot := by
  rw [tenants, List.mem_filterMap]
  exact exists_congr fun i => and_iff_right_of_imp fun found => List.mem_range.mpr (live?_inside found)

/-- Where only one slot changes, its tenant alone is traded. -/
theorem tenants_trade (size : s'.slots.size = s.slots.size) (inside : i < s.slots.size)
    (elsewhere : ∀ j, j ≠ i → s'.live? j = s.live? j) :
    ∃ others, s.tenants.Perm ((s.live? i).toList ++ others) ∧ s'.tenants.Perm ((s'.live? i).toList ++ others) := by
  have listed := List.perm_cons_erase (List.mem_range.mpr inside)
  have rest : ((List.range s.slots.size).erase i).filterMap s'.live? =
      ((List.range s.slots.size).erase i).filterMap s.live? :=
    List.filterMap_congr fun j other => elsewhere j (List.nodup_range.mem_erase_iff.mp other).1
  have split (t : Store) : ((i :: (List.range s.slots.size).erase i).filterMap t.live?) =
      (t.live? i).toList ++ ((List.range s.slots.size).erase i).filterMap t.live? := by
    rw [List.filterMap_cons]
    cases t.live? i <;> rfl
  refine ⟨((List.range s.slots.size).erase i).filterMap s.live?, ?_, ?_⟩
  · rw [← split]
    exact listed.filterMap s.live?
  · rw [← rest, ← split, tenants, size]
    exact listed.filterMap s'.live?

/-- A tenant rewritten in place takes the place of the old entry among the tenants. -/
theorem tenants_rewrite (found : s.live? i = some slot) (kept : fresh.live = slot.live) :
    ∃ others, s.tenants.Perm (slot :: others) ∧ (s.put i fresh).tenants.Perm (fresh :: others) := by
  obtain ⟨others, before, after⟩ := tenants_trade (put_size s i fresh) (live?_inside found) fun j other => by
    rw [live?_put found kept, if_neg (Ne.symm other)]
  rw [found] at before
  rw [live?_put found kept, if_pos rfl] at after
  exact ⟨others, before, after⟩

/-- The shapes before and after a tenant is rewritten in place. -/
theorem shapes_rewrite (found : s.live? i = some slot) (kept : fresh.live = slot.live) :
    ∃ others, s.shapes.Perm (slot.shape.toList ++ others) ∧
      (s.put i fresh).shapes.Perm (fresh.shape.toList ++ others) := by
  obtain ⟨others, before, after⟩ := tenants_rewrite found kept
  have listed (slot : Slot) : (slot :: others).filterMap (·.shape) = slot.shape.toList ++ others.filterMap (·.shape) := by
    rw [List.filterMap_cons]
    cases slot.shape <;> rfl
  refine ⟨others.filterMap (·.shape), ?_, ?_⟩
  · rw [← listed]
    exact before.filterMap _
  · rw [← listed]
    exact after.filterMap _

theorem shapes_kept (found : s.live? i = some slot) (kept : fresh.live = slot.live) (same : fresh.shape = slot.shape) :
    (s.put i fresh).shapes.Perm s.shapes := by
  obtain ⟨others, before, after⟩ := shapes_rewrite found kept
  rw [same] at after
  exact after.trans before.symm

theorem total_put (found : s.live? i = some slot) (kept : fresh.live = slot.live) :
    (s.put i fresh).total + slot.refs = s.total + fresh.refs := by
  obtain ⟨others, before, after⟩ : ∃ others, s.tenants.Perm (slot :: others) ∧
      (s.put i fresh).tenants.Perm (fresh :: others) := tenants_rewrite found kept
  have first := (before.map (·.refs)).sum_nat
  have second := (after.map (·.refs)).sum_nat
  simp only [List.map_cons, List.sum_cons] at first second
  simp only [total, first, second]
  omega

/-- Where no shape has two owners, a shape tells its owner. -/
theorem shapes_apart (once : s.shapes.Nodup) (found : s.live? i = some slot) (other : s.live? j = some fresh)
    {shape : Handle} (owns : slot.shape = some shape) (shares : fresh.shape = some shape) : i = j := by
  by_contra apart
  have kept : ({ slot with shape := none } : Slot).live = slot.live := rfl
  obtain ⟨others, before, after⟩ : ∃ others, s.shapes.Perm (slot.shape.toList ++ others) ∧
      (s.put i { slot with shape := none }).shapes.Perm others := shapes_rewrite found kept
  have still : (s.put i { slot with shape := none }).live? j = some fresh := by
    rw [live?_put found kept, if_neg apart]
    exact other
  have member : shape ∈ others :=
    after.mem_iff.mp (List.mem_filterMap.mpr ⟨fresh, mem_tenants.mpr ⟨j, still⟩, shares⟩)
  rw [owns] at before
  exact (List.nodup_cons.mp (before.nodup_iff.mp once)).1 member

end TerrainStream.Store
