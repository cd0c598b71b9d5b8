import TerrainStream.Proofs.Store.Claims

/-! Coming and going. A new cell takes a vacant slot with every field at its default but the version; a
cell that is turned out leaves its slot vacant. Nobody else's slot changes. -/

namespace TerrainStream.Store

open Cell

variable {s s' : Store} {i j : Nat} {slot : Slot} {key other : Key}

/-- The slot of a cell that has just come. -/
def Slot.newcomer (key : Key) (version : UInt32) : Slot := ⟨true, key, .unloaded, none, true, false, version, 0⟩

/-- A key was let into a vacant slot. -/
structure Admitted (s : Store) (key : Key) (s' : Store) (i : Nat) : Prop where
  absent : s.index[key]? = none
  vacant : s.live? i = none
  index : s'.index = s.index.insert key i
  sees : ∀ j, s'.live? j = if i = j then some (Slot.newcomer key (s.version i)) else s.live? j
  tenants : s'.tenants.Perm (Slot.newcomer key (s.version i) :: s.tenants)

/-- A key was turned out of its slot. -/
structure Departed (s : Store) (key : Key) (s' : Store) (i : Nat) (slot : Slot) : Prop where
  found : s.live? i = some slot
  owner : slot.key = key
  index : s'.index = s.index.erase key
  sees : ∀ j, s'.live? j = if i = j then none else s.live? j
  tenants : s.tenants.Perm (slot :: s'.tenants)

/-! ### Growth -/

theorem pageSize_dvd_wholePages (n : Nat) : pageSize ∣ wholePages n := Nat.dvd_mul_left _ _

theorem le_wholePages (n : Nat) : n ≤ wholePages n := by
  unfold wholePages pageSize
  omega

private theorem pageSize_dvd_min {a b : Nat} (left : pageSize ∣ a) (right : pageSize ∣ b) : pageSize ∣ min a b := by
  rcases Nat.le_total a b with first | second
  · rwa [Nat.min_eq_left first]
  · rwa [Nat.min_eq_right second]

theorem mem_layOut {pages : Std.ExtTreeSet Nat} {first last page : Nat} :
    page ∈ layOut pages first last ↔ page ∈ pages ∨ first ≤ page ∧ page < last := by
  rw [layOut, Std.ExtTreeSet.mem_insertMany_list, List.contains_iff_mem, List.mem_range'_1]
  exact or_congr_right (by omega)

/-- Where the slots below one capacity have their pages, laying out those in between gives every slot below a larger
one its page. -/
private theorem laid_layOut {pages : Std.ExtTreeSet Nat} {first last : Nat} (whole : pageSize ∣ last)
    (laid : ∀ i < first, pages.contains (i / pageSize) = true) :
    ∀ i < last, (layOut pages (first / pageSize) (last / pageSize)).contains (i / pageSize) = true := by
  intro i inside
  refine Std.ExtTreeSet.contains_iff_mem.mpr (mem_layOut.mpr ?_)
  rcases Nat.lt_or_ge i first with earlier | later
  · exact .inl (Std.ExtTreeSet.contains_iff_mem.mp (laid i earlier))
  · exact .inr ⟨Nat.div_le_div_right later, Nat.div_lt_div_of_lt_of_dvd whole inside⟩

theorem roomy_ofLimits (initial most : Nat) : (ofLimits initial most).Roomy := by
  have bits : pageSize ∣ UInt32.size := by decide
  have whole := pageSize_dvd_min (pageSize_dvd_wholePages most) bits
  have paged := pageSize_dvd_min (pageSize_dvd_wholePages initial) whole
  have none (i : Nat) (below : i < 0) : (∅ : Std.ExtTreeSet Nat).contains (i / pageSize) = true :=
    absurd below (Nat.not_lt_zero i)
  exact ⟨Nat.zero_le _, Nat.min_le_right _ _, paged, whole, laid_layOut paged none⟩

theorem grow_cases {grown : Store} (grew : s.grow? = some grown) : s.capacity < s.limit ∧
    grown = { s with
      pages := layOut s.pages (s.capacity / pageSize) (s.nextCapacity / pageSize)
      capacity := s.nextCapacity } := by
  unfold grow? at grew
  split at grew
  · cases grew
  · rename_i below
    exact ⟨Nat.lt_of_not_ge below, (Option.some.inj grew).symm⟩

/-- Growth makes room for one slot at least. -/
theorem lt_nextCapacity (below : s.capacity < s.limit) : s.capacity < s.nextCapacity := by
  have more := le_wholePages (max (s.capacity + s.capacity / 2) (s.capacity + 1))
  exact Nat.lt_min.mpr ⟨by omega, below⟩

theorem Roomy.grown {grown : Store} (roomy : s.Roomy) (grew : s.grow? = some grown) : grown.Roomy := by
  obtain ⟨below, rfl⟩ := grow_cases grew
  have paged : pageSize ∣ s.nextCapacity := pageSize_dvd_min (pageSize_dvd_wholePages _) roomy.whole
  exact ⟨Nat.le_trans roomy.used (Nat.le_of_lt (lt_nextCapacity below)), Nat.min_le_right _ _, paged, roomy.whole,
    laid_layOut paged roomy.laid⟩

/-- Growth lets no more be seen than slots that were never handed out. -/
theorem Roomy.live?_grown {grown : Store} (roomy : s.Roomy) (grew : s.grow? = some grown) (i : Nat) :
    grown.live? i = s.live? i := by
  rw [(roomy.grown grew).live?_eq, roomy.live?_eq, (grow_cases grew).2]

private theorem Sound.grown {grown : Store} (sound : s.Sound) (grew : s.grow? = some grown) : grown.Sound := by
  have mapped (key : Key) (i : Nat) : s.index[key]? = some i ↔ ∃ slot, grown.live? i = some slot ∧ slot.key = key := by
    rw [sound.roomy.live?_grown grew]
    exact sound.mapped key i
  have roomy := sound.roomy.grown grew
  obtain ⟨_, rfl⟩ := grow_cases grew
  exact ⟨roomy, mapped, sound.spare, sound.distinct, sound.bare⟩

/-! ### Letting a cell in -/

private theorem Admitted.mapped (sound : s.Sound) (admitted : Admitted s key s' i) (other : Key) (j : Nat) :
    s'.index[other]? = some j ↔ ∃ slot, s'.live? j = some slot ∧ slot.key = other := by
  rw [admitted.index, Table.getElem?_insert, admitted.sees]
  by_cases here : i = j
  · subst j
    by_cases same : key = other
    · subst other
      simp [Slot.newcomer]
    · have none : s.index[other]? ≠ some i := by
        intro mapped
        obtain ⟨slot, living, _⟩ := sound.lives mapped
        rw [admitted.vacant] at living
        cases living
      simp [same, none, Slot.newcomer]
  · by_cases same : key = other
    · subst other
      have none : ¬ ∃ slot, s.live? j = some slot ∧ slot.key = key := by
        intro living
        have mapped := (sound.mapped key j).mpr living
        rw [admitted.absent] at mapped
        cases mapped
      simp only [↓reduceIte, Option.some.injEq, iff_false_intro here, none]
    · simp only [if_neg here, if_neg same, sound.mapped]

private theorem settle_roomy (roomy : s.Roomy) (i : Nat) (key : Key) (free : List Nat) :
    ({ s with free }.settle i key).Roomy :=
  roomy.same rfl rfl rfl (Nat.le_trans (Nat.le_of_eq Array.size_modify) roomy.used)

/-- A slot that is handed out again keeps only its version. -/
private theorem reused_sees {vacated : Slot} (roomy : s.Roomy) (stored : s.slots[i]? = some vacated) (key : Key)
    (free : List Nat) (j : Nat) : ({ s with free }.settle i key).slots[j]? =
      if i = j then some (Slot.newcomer key (s.version i)) else s.slots[j]? := by
  have newcomer : vacated.settle key = Slot.newcomer key (s.version i) := by
    rw [roomy.version_eq, stored]
    rfl
  change (s.slots.modify i (·.settle key))[j]? = _
  rw [Array.getElem?_modify]
  split
  · rename_i here
    subst j
    rw [stored, ← newcomer]
    rfl
  · rfl

private theorem reused_admitted {vacated : Slot} (roomy : s.Roomy) (absent : s.index[key]? = none)
    (stored : s.slots[i]? = some vacated) (vacant : vacated.live = false) (free : List Nat) :
    Admitted s key ({ s with free }.settle i key) i := by
  have unlived : s.live? i = none := live?_vacant fun slot found => by
    rw [stored] at found
    cases found
    exact vacant
  have sees (j : Nat) : ({ s with free }.settle i key).live? j =
      if i = j then some (Slot.newcomer key (s.version i)) else s.live? j := by
    rw [(settle_roomy roomy i key free).live?_eq, reused_sees roomy stored, roomy.live?_eq]
    split
    · simp [Slot.newcomer]
    · rfl
  refine ⟨absent, unlived, rfl, sees, ?_⟩
  have elsewhere (j : Nat) (other : j ≠ i) : ({ s with free }.settle i key).live? j = s.live? j := by
    rw [sees, if_neg (Ne.symm other)]
  obtain ⟨others, before, after⟩ :=
    tenants_trade Array.size_modify (Array.getElem?_eq_some_iff.mp stored).1 elsewhere
  rw [unlived] at before
  rw [sees, if_pos rfl] at after
  exact after.trans (before.symm.cons _)

private theorem add_reused (sound : s.Sound) (absent : s.index[key]? = none) {rest : List Nat}
    (spare : s.free = i :: rest) :
    Admitted s key ({ s with free := rest }.settle i key) i ∧ ({ s with free := rest }.settle i key).Sound := by
  obtain ⟨vacated, stored, vacant⟩ := (sound.spare i).mp (by simp [spare])
  have distinct := sound.distinct
  rw [spare, List.nodup_cons] at distinct
  have admitted := reused_admitted sound.roomy absent stored vacant rest
  refine ⟨admitted, settle_roomy sound.roomy i key rest, admitted.mapped sound, ?_, distinct.2, ?_⟩
  · intro j
    change j ∈ rest ↔ _
    rw [reused_sees sound.roomy stored]
    by_cases here : i = j
    · subst j
      simp [distinct.1, Slot.newcomer]
    · have listed : j ∈ rest ↔ j ∈ s.free := by simp [spare, Ne.symm here]
      simp only [if_neg here, listed, sound.spare]
  · intro j slot found vacant
    rw [reused_sees sound.roomy stored] at found
    split at found
    · cases found
      cases vacant
    · exact sound.bare j slot found vacant

theorem Roomy.version_next (roomy : s.Roomy) : s.version s.slots.size = 0 := by
  rw [roomy.version_eq, Array.getElem?_size]
  rfl

private theorem add_next (sound : s.Sound) (absent : s.index[key]? = none) (room : s.slots.size < s.capacity) :
    Admitted s key (s.settleNext key) s.slots.size ∧ (s.settleNext key).Sound := by
  have newcomer : Slot.blank.settle key = Slot.newcomer key (s.version s.slots.size) := by
    rw [sound.roomy.version_next]
    rfl
  have roomy : (s.settleNext key).Roomy :=
    sound.roomy.same rfl rfl rfl (Nat.le_trans (Nat.le_of_eq (Array.size_push _)) room)
  have admitted : Admitted s key (s.settleNext key) s.slots.size := by
    have sees (j : Nat) : (s.settleNext key).live? j =
        if s.slots.size = j then some (Slot.newcomer key (s.version s.slots.size)) else s.live? j := by
      rw [roomy.live?_eq, sound.roomy.live?_eq]
      simp only [settleNext, Array.getElem?_push, newcomer]
      by_cases here : s.slots.size = j
      · subst j
        simp [Slot.newcomer]
      · simp [here, Ne.symm here]
    refine ⟨absent, live?_vacant (by simp), rfl, sees, ?_⟩
    have earlier : (List.range s.slots.size).filterMap (s.settleNext key).live? = s.tenants :=
      List.filterMap_congr fun j listed => by rw [sees, if_neg (Nat.ne_of_gt (List.mem_range.mp listed))]
    have size : (s.settleNext key).slots.size = s.slots.size + 1 := Array.size_push _
    rw [Store.tenants, size, List.range_succ, List.filterMap_append, earlier, List.filterMap_cons_some
      ((sees _).trans (if_pos rfl)), List.filterMap_nil]
    exact List.perm_append_singleton _ _
  refine ⟨admitted, roomy, admitted.mapped sound, ?_, sound.distinct, ?_⟩
  · intro j
    change j ∈ s.free ↔ _
    rw [sound.spare]
    simp only [settleNext, Array.getElem?_push]
    by_cases here : j = s.slots.size
    · subst j
      simp [newcomer, Slot.newcomer]
    · simp [here]
  · intro j slot found vacant
    simp only [settleNext, Array.getElem?_push] at found
    split at found
    · cases found
      cases vacant
    · exact sound.bare j slot found vacant

private theorem add_grown {grown : Store} (sound : s.Sound) (absent : s.index[key]? = none)
    (grew : s.grow? = some grown) :
    Admitted s key (grown.settleNext key) s.slots.size ∧ (grown.settleNext key).Sound := by
  have grownSound := sound.grown grew
  have version : grown.version s.slots.size = s.version s.slots.size := by
    rw [grownSound.roomy.version_eq, sound.roomy.version_eq, (grow_cases grew).2]
  have sees := sound.roomy.live?_grown grew
  obtain ⟨below, same⟩ := grow_cases grew
  have slots : grown.slots = s.slots := by rw [same]
  have tenants : grown.tenants = s.tenants := by rw [Store.tenants, slots, funext sees, Store.tenants]
  have index : grown.index = s.index := by rw [same]
  have room : grown.slots.size < grown.capacity := by
    rw [same]
    exact Nat.lt_of_le_of_lt sound.roomy.used (lt_nextCapacity below)
  obtain ⟨admitted, kept⟩ := add_next grownSound (index ▸ absent) room
  rw [slots] at admitted
  refine ⟨⟨absent, sees _ ▸ admitted.vacant, index ▸ admitted.index, fun j => ?_, ?_⟩, kept⟩
  · rw [← version, ← sees]
    exact admitted.sees j
  · rw [← version, ← tenants]
    exact admitted.tenants

/-- Adding a key finds its slot, or lets it into a vacant one, or finds no room and changes nothing. -/
theorem add_cases (sound : s.Sound) (key : Key) :
    (∃ i, s.index[key]? = some i ∧ s.add key = (s, .ok i)) ∨
    (∃ s' i, s.add key = (s', .ok i) ∧ Admitted s key s' i ∧ s'.Sound) ∨
    (∃ fault, s.add key = (s, .error fault)) := by
  unfold add
  split
  · rename_i i found
    exact .inl ⟨i, found, rfl⟩
  · rename_i absent
    split
    · rename_i i rest spare
      obtain ⟨admitted, kept⟩ := add_reused sound absent spare
      exact .inr (.inl ⟨_, i, rfl, admitted, kept⟩)
    · dsimp only
      split
      · rename_i room
        obtain ⟨admitted, kept⟩ := add_next sound absent room
        exact .inr (.inl ⟨_, _, rfl, admitted, kept⟩)
      · split
        · rename_i grown grew
          obtain ⟨admitted, kept⟩ := add_grown sound absent grew
          exact .inr (.inl ⟨_, _, rfl, admitted, kept⟩)
        · exact .inr (.inr ⟨_, rfl⟩)

/-- A key that was added was there already, or has been let in. -/
theorem added_cases (sound : s.Sound) (added : s.add key = (s', .ok i)) : s' = s ∨ Admitted s key s' i ∧ s'.Sound := by
  rcases add_cases sound key with ⟨j, _, same⟩ | ⟨grown, j, same, admitted, kept⟩ | ⟨fault, same⟩
  · rw [same] at added
    cases added
    exact .inl rfl
  · rw [same] at added
    cases added
    exact .inr ⟨admitted, kept⟩
  · rw [same] at added
    cases added

theorem Sound.added (sound : s.Sound) (added : s.add key = (s', .ok i)) : s'.Sound := by
  rcases added_cases sound added with rfl | ⟨_, kept⟩
  · exact sound
  · exact kept

theorem add_refused {fault : Fault} (refused : s.add key = (s', .error fault)) : s' = s := by
  unfold add at refused
  split at refused
  · cases refused
  · split at refused
    · cases refused
    · dsimp only at refused
      split at refused
      · cases refused
      · split at refused
        · cases refused
        · cases refused
          rfl

theorem add_indexed (added : s.add key = (s', .ok i)) : s'.index[key]? = some i := by
  unfold add at added
  split at added
  · rename_i found
    cases added
    exact found
  · split at added
    · cases added
      simp [settle]
    · dsimp only at added
      split at added
      · cases added
        simp [settleNext]
      · split at added
        · rename_i grew
          obtain ⟨_, rfl⟩ := grow_cases grew
          cases added
          simp [settleNext]
        · cases added

/-! ### Turning a cell out -/

/-- The store once the tenant of a slot has been turned out. -/
private def turnedOut (s : Store) (key : Key) (i : Nat) (slot : Slot) : Store :=
  { s with
    slots := s.slots.setIfInBounds i slot.vacate
    index := s.index.erase key
    free := i :: s.free }

private theorem turnedOut_sees (living : s.live? i = some slot) (j : Nat) :
    (turnedOut s key i slot).live? j = if i = j then none else s.live? j := by
  have same : (turnedOut s key i slot).slot? j = (s.put i slot.vacate).slot? j := rfl
  rw [live?, same, slot?_put (live?_inside living)]
  split
  · rename_i here
    subst j
    rw [slot?_live living]
    rfl
  · rfl

private theorem turnedOut_departed (living : s.live? i = some slot) (owner : slot.key = key) :
    Departed s key (turnedOut s key i slot) i slot := by
  refine ⟨living, owner, rfl, turnedOut_sees living, ?_⟩
  have elsewhere (j : Nat) (other : j ≠ i) : (turnedOut s key i slot).live? j = s.live? j := by
    rw [turnedOut_sees living, if_neg (Ne.symm other)]
  have size : (turnedOut s key i slot).slots.size = s.slots.size := put_size s i slot.vacate
  obtain ⟨others, before, later⟩ := tenants_trade size (live?_inside living) elsewhere
  rw [living] at before
  rw [turnedOut_sees living, if_pos rfl] at later
  exact before.trans (later.symm.cons slot)

private theorem turnedOut_sound (sound : s.Sound) (living : s.live? i = some slot) (owner : slot.key = key) :
    (turnedOut s key i slot).Sound := by
  obtain ⟨stored, alive⟩ := live?_stored living
  have slots (j : Nat) : (turnedOut s key i slot).slots[j]? = if i = j then some slot.vacate else s.slots[j]? := by
    simp only [turnedOut, Array.getElem?_setIfInBounds, if_pos (live?_inside living)]
  refine ⟨sound.roomy.same rfl rfl rfl (Nat.le_trans (Nat.le_of_eq (put_size ..)) sound.roomy.used), ?_, ?_, ?_, ?_⟩
  · intro other j
    rw [turnedOut_sees living, show (turnedOut s key i slot).index = s.index.erase key from rfl,
      Table.getElem?_erase]
    by_cases same : key = other
    · subst other
      have gone : ¬ ∃ there, (if i = j then none else s.live? j) = some there ∧ there.key = key := by
        rintro ⟨there, present, name⟩
        split at present
        · cases present
        · rename_i apart
          exact apart (sound.alone living present (owner.trans name.symm))
      rw [if_pos rfl]
      exact ⟨fun impossible => (nomatch impossible), fun present => absurd present gone⟩
    · rw [if_neg same, sound.mapped]
      by_cases here : i = j
      · subst j
        simp [living, owner, same]
      · simp [here]
  · intro j
    rw [slots]
    by_cases here : i = j
    · subst j
      simp [turnedOut, Slot.vacate]
    · simp [turnedOut, here, Ne.symm here, sound.spare]
  · refine List.nodup_cons.mpr ⟨?_, sound.distinct⟩
    intro listed
    obtain ⟨vacated, there, vacant⟩ := (sound.spare i).mp listed
    rw [stored] at there
    cases there
    rw [alive] at vacant
    cases vacant
  · intro j there present vacant
    rw [slots] at present
    split at present
    · cases present
      rfl
    · exact sound.bare j there present vacant

private theorem remove_mapped (found : s.index[key]? = some i) (living : s.live? i = some slot) :
    s.remove key = (turnedOut s key i slot, some ⟨i, slot.shape⟩) := by
  simp [remove, found, slot?_live living, put, turnedOut]

/-- Removing a key turns its cell out, or finds no such cell and changes nothing. -/
theorem remove_cases (sound : s.Sound) (key : Key) :
    (∃ s' i slot, s.remove key = (s', some ⟨i, slot.shape⟩) ∧ s.index[key]? = some i ∧
      Departed s key s' i slot ∧ s'.Sound) ∨
    (s.index[key]? = none ∧ s.remove key = (s, none)) := by
  cases found : s.index[key]? with
  | none => exact .inr ⟨rfl, by simp [remove, found]⟩
  | some i =>
    obtain ⟨slot, living, owner⟩ := sound.lives found
    exact .inl ⟨_, i, slot, remove_mapped found living, rfl, turnedOut_departed living owner,
      turnedOut_sound sound living owner⟩

/-- A cell that is marked as leaving and then removed is turned out as it stood before. -/
theorem retire_remove (sound : s.Sound) (found : s.index[key]? = some i) {marked : Store}
    (retired : s.tryRetire i = (marked, true)) :
    ∃ s' slot, marked.remove key = (s', some ⟨i, slot.shape⟩) ∧ Departed s key s' i slot ∧ s'.Sound ∧
      slot.refs = 0 ∧ slot.stage.isInFlight = false := by
  obtain ⟨slot, living, unreferenced, idle, rfl⟩ := tryRetire_true retired
  have owner : slot.key = key := by
    obtain ⟨tenant, present, name⟩ := sound.lives found
    rw [living] at present
    cases present
    exact name
  have sees (j : Nat) : (s.put i { slot with stage := .removing }).live? j =
      if i = j then some { slot with stage := .removing } else s.live? j := live?_put living rfl
  have kept : (s.put i { slot with stage := .removing }).Sound := sound.put living rfl rfl
  have present := (sees i).trans (if_pos rfl)
  have step := turnedOut_departed present owner
  refine ⟨_, slot, ?_, ⟨living, owner, step.index, ?_, ?_⟩, turnedOut_sound kept present owner, unreferenced, idle⟩
  · exact remove_mapped found present
  · intro j
    rw [step.sees, sees]
    split <;> rfl
  · obtain ⟨others, before, after⟩ : ∃ others, s.tenants.Perm (slot :: others) ∧
        (s.put i { slot with stage := .removing }).tenants.Perm ({ slot with stage := .removing } :: others) :=
      tenants_rewrite living rfl
    have rest := (after.symm.trans step.tenants).cons_inv
    exact before.trans (rest.cons slot)

/-! ### What others see of it -/

theorem refsOf_same (index : s'.index[key]? = s.index[key]?)
    (sees : ∀ j, s.index[key]? = some j → s'.live? j = s.live? j) : s'.refsOf key = s.refsOf key := by
  cases found : s.index[key]? with
  | none => rw [refsOf_absent found, refsOf_absent (index.trans found)]
  | some j => simp [refsOf, indexOf, index, found, refs, sees j found]

theorem isLit_same (index : s'.index[key]? = s.index[key]?)
    (sees : ∀ j, s.index[key]? = some j → s'.live? j = s.live? j) : s'.isLit key = s.isLit key := by
  cases found : s.index[key]? with
  | none => rw [isLit_absent found, isLit_absent (index.trans found)]
  | some j => simp [isLit, indexOf, index, found, isActive, sees j found]

theorem Admitted.index_other (admitted : Admitted s key s' i) (different : key ≠ other) :
    s'.index[other]? = s.index[other]? := by
  rw [admitted.index, Table.getElem?_insert, if_neg different]

theorem Admitted.sees_other (sound : s.Sound) (admitted : Admitted s key s' i)
    (found : s.index[other]? = some j) : s'.live? j = s.live? j := by
  obtain ⟨slot, living, _⟩ := sound.lives found
  rw [admitted.sees, if_neg]
  rintro rfl
  rw [admitted.vacant] at living
  cases living

theorem Admitted.here (admitted : Admitted s key s' i) :
    s'.live? i = some (Slot.newcomer key (s.version i)) := by rw [admitted.sees, if_pos rfl]

/-- A newcomer has no references, so no key has more or fewer than before. -/
theorem Admitted.refsOf (sound : s.Sound) (admitted : Admitted s key s' i) (kept : s'.Sound) (other : Key) :
    s'.refsOf other = s.refsOf other := by
  by_cases same : key = other
  · subst other
    rw [refsOf_absent admitted.absent]
    exact refsOf_live kept admitted.here
  · exact refsOf_same (admitted.index_other same) fun j found => admitted.sees_other sound found

/-- Whoever was in the store stays where they are. -/
theorem Admitted.stays (admitted : Admitted s key s' i) (found : s.index[other]? = some j) :
    s'.index[other]? = some j := by
  have different : key ≠ other := by
    rintro rfl
    rw [admitted.absent] at found
    cases found
  exact (admitted.index_other different).trans found

theorem Departed.stays (departed : Departed s key s' i slot) (different : key ≠ other)
    (found : s.index[other]? = some j) : s'.index[other]? = some j := by
  rw [departed.index, Table.getElem?_erase, if_neg different, found]

theorem Admitted.shapes (admitted : Admitted s key s' i) : s'.shapes.Perm s.shapes :=
  admitted.tenants.filterMap _

theorem Admitted.total (admitted : Admitted s key s' i) : s'.total = s.total := by
  have sum := (admitted.tenants.map (·.refs)).sum_nat
  simpa [Store.total, Slot.newcomer] using sum

theorem Departed.index_other (departed : Departed s key s' i slot) (different : key ≠ other) :
    s'.index[other]? = s.index[other]? := by
  rw [departed.index, Table.getElem?_erase, if_neg different]

theorem Departed.sees_other (sound : s.Sound) (departed : Departed s key s' i slot)
    (different : key ≠ other) (found : s.index[other]? = some j) : s'.live? j = s.live? j := by
  rw [departed.sees, if_neg]
  exact sound.apart departed.found found (departed.owner ▸ different)

theorem Departed.gone (departed : Departed s key s' i slot) : s'.index[key]? = none := by
  rw [departed.index, Table.getElem?_erase, if_pos rfl]

theorem Departed.refsOf (sound : s.Sound) (departed : Departed s key s' i slot) (other : Key) :
    s'.refsOf other = if key = other then 0 else s.refsOf other := by
  split
  · rename_i same
    subst other
    exact refsOf_absent departed.gone
  · rename_i different
    exact refsOf_same (departed.index_other different) fun j found => departed.sees_other sound different found

theorem Departed.isLit (sound : s.Sound) (departed : Departed s key s' i slot) (other : Key) :
    s'.isLit other = if key = other then false else s.isLit other := by
  split
  · rename_i same
    subst other
    exact isLit_absent departed.gone
  · rename_i different
    exact isLit_same (departed.index_other different) fun j found => departed.sees_other sound different found

theorem Departed.shapes (departed : Departed s key s' i slot) :
    s.shapes.Perm (slot.shape.toList ++ s'.shapes) := by
  refine (departed.tenants.filterMap (·.shape)).trans ?_
  rw [List.filterMap_cons]
  cases slot.shape <;> exact .refl _

theorem Departed.total (departed : Departed s key s' i slot) : s.total = slot.refs + s'.total := by
  have sum := (departed.tenants.map (·.refs)).sum_nat
  simpa [Store.total] using sum

/-! ### A store at the start -/

theorem live?_ofLimits (initial most i : Nat) : (ofLimits initial most).live? i = none :=
  live?_vacant (by simp [ofLimits])

theorem sound_ofLimits (initial most : Nat) : (ofLimits initial most).Sound := by
  refine ⟨roomy_ofLimits initial most, ?_, ?_, List.nodup_nil, ?_⟩
  · intro key i
    rw [live?_ofLimits]
    simp [ofLimits]
  · intro i
    simp [ofLimits]
  · intro i slot stored
    simp [ofLimits] at stored

end TerrainStream.Store
