import TerrainStream.Proofs.Store.Sound

/-! What each operation on a slot comes to: it rewrites one tenant, or it hands the store back. The
operations on claims touch nothing but a tenant's stage and version, so all else that is seen of the
store stays. -/

namespace TerrainStream.Store

open Cell

variable {s s' : Store} {i : Nat} {slot fresh : Slot} {key : Key} {version : UInt32}

theorem schedule_cases (s : Store) (i : Nat) :
    (∃ slot, s.live? i = some slot ∧ slot.stage.acceptsClaim = true ∧
      s.schedule i = (s.put i { slot with stage := .scheduled, version := slot.version + 1 },
        some (slot.version + 1))) ∨
    s.schedule i = (s, none) := by
  unfold schedule
  split
  · exact .inr rfl
  · rename_i slot found
    split
    · rename_i accepts
      exact .inl ⟨slot, found, accepts, rfl⟩
    · exact .inr rfl

theorem begin_cases (s : Store) (i : Nat) (version : UInt32) :
    (∃ slot, s.live? i = some slot ∧ slot.version = version ∧ slot.stage = .scheduled ∧
      s.begin i version = (s.put i { slot with stage := .generating }, true)) ∨
    s.begin i version = (s, false) := by
  unfold begin
  split
  · exact .inr rfl
  · rename_i slot found
    split
    · rename_i current
      exact .inl ⟨slot, found, current.1, current.2, rfl⟩
    · exact .inr rfl

theorem begin_current (found : s.live? i = some slot) (stage : slot.stage = .scheduled) :
    s.begin i slot.version = (s.put i { slot with stage := .generating }, true) := by
  simp [begin, found, stage]

theorem abandon_cases (s : Store) (i : Nat) (version : UInt32) :
    (∃ slot, s.live? i = some slot ∧ slot.version = version ∧ slot.stage.isInFlight = true ∧
      s.abandon i version = (s.put i { slot with stage := slot.fallback }, true)) ∨
    s.abandon i version = (s, false) := by
  unfold abandon
  split
  · exact .inr rfl
  · rename_i slot found
    split
    · rename_i current
      exact .inl ⟨slot, found, current.1, current.2, rfl⟩
    · exact .inr rfl

theorem abandon_current (found : s.live? i = some slot) (flying : slot.stage.isInFlight = true) :
    s.abandon i slot.version = (s.put i { slot with stage := slot.fallback }, true) := by
  simp [abandon, found, flying]

/-- Giving up a claim leaves a stage in which none is out. -/
theorem fallback_settled (slot : Slot) : slot.fallback.isInFlight = false := by
  unfold Slot.fallback
  split <;> rfl

theorem accepts_cases (slot : Slot) (key : Key) (version : UInt32) :
    (slot.key = key ∧ slot.version = version ∧ slot.stage = .generating ∧ slot.accepts key version = .ok ()) ∨
    ∃ reason, slot.accepts key version = .error reason := by
  unfold Slot.accepts
  split
  · exact .inr ⟨_, rfl⟩
  · rename_i owner
    split
    · exact .inr ⟨_, rfl⟩
    · rename_i current
      split
      · exact .inr ⟨_, rfl⟩
      · rename_i stage
        exact .inl ⟨not_not.mp owner, (not_not.mp current).symm, not_not.mp stage, rfl⟩

theorem checkInstall_cases (s : Store) (i : Nat) (key : Key) (version : UInt32) :
    (∃ slot, s.live? i = some slot ∧ slot.key = key ∧ slot.version = version ∧ slot.stage = .generating ∧
      s.checkInstall i key version = .ok ()) ∨
    ∃ reason, s.checkInstall i key version = .error reason := by
  unfold checkInstall
  split
  · exact .inr ⟨_, rfl⟩
  · rename_i slot found
    rcases accepts_cases slot key version with ⟨owner, current, stage, fits⟩ | turned
    · exact .inl ⟨slot, found, owner, current, stage, fits⟩
    · exact .inr turned

theorem finish_current (found : s.live? i = some slot) (stage : slot.stage = .generating)
    (shape : Option Handle) (placeholder : Bool) :
    s.finish i slot.key slot.version shape placeholder =
      (s.put i { slot with shape, placeholder, stage := .ready }, .ok slot.shape) := by
  simp [finish, checkInstall, found, Slot.accepts, stage, Slot.swapIn]

theorem finish_cases (s : Store) (i : Nat) (key : Key) (version : UInt32) (shape : Option Handle) (placeholder : Bool) :
    (∃ slot, s.live? i = some slot ∧ slot.key = key ∧ slot.version = version ∧ slot.stage = .generating ∧
      s.finish i key version shape placeholder =
        (s.put i { slot with shape, placeholder, stage := .ready }, .ok slot.shape)) ∨
    ∃ reason, s.finish i key version shape placeholder = (s, .error reason) := by
  rcases checkInstall_cases s i key version with ⟨slot, found, rfl, rfl, stage, _⟩ | ⟨reason, turned⟩
  · exact .inl ⟨slot, found, rfl, rfl, stage, finish_current found stage shape placeholder⟩
  · exact .inr ⟨reason, by simp [finish, turned]⟩

theorem tryRetire_true (retired : s.tryRetire i = (s', true)) :
    ∃ slot, s.live? i = some slot ∧ slot.refs = 0 ∧ slot.stage.isInFlight = false ∧
      s' = s.put i { slot with stage := .removing } := by
  unfold tryRetire at retired
  split at retired
  · cases retired
  · rename_i slot found
    split at retired
    · cases retired
    · rename_i unreferenced
      split at retired
      · rename_i leaving
        cases retired
        have same : { slot with stage := .removing } = slot := by cases slot; cases leaving; rfl
        exact ⟨slot, found, not_not.mp unreferenced, by rw [leaving]; rfl, by rw [same, put_self found]⟩
      · split at retired
        · cases retired
        · rename_i idle
          cases retired
          exact ⟨slot, found, not_not.mp unreferenced, Bool.eq_false_iff.mpr idle, rfl⟩

theorem tryRetire_false (refused : s.tryRetire i = (s', false)) : s' = s := by
  unfold tryRetire at refused
  split at refused
  · cases refused; rfl
  · split at refused
    · cases refused; rfl
    · split at refused
      · cases refused
      · split at refused
        · cases refused; rfl
        · cases refused

theorem retain_live (found : s.live? i = some slot) :
    s.retain i = (s.put i { slot with refs := slot.refs + 1 }, some (slot.refs + 1)) := by
  simp [retain, found]

theorem retain_vacant (vacant : s.live? i = none) : s.retain i = (s, none) := by
  simp [retain, vacant]

theorem release_live (found : s.live? i = some slot) :
    s.release i = (s.put i { slot with refs := slot.refs - 1 }, some (slot.refs - 1)) := by
  simp [release, found]

theorem release_vacant (vacant : s.live? i = none) : s.release i = (s, none) := by
  simp [release, vacant]

theorem setActive_live (found : s.live? i = some slot) (active : Bool) :
    (s.setActive i active).1 = s.put i { slot with active } := by
  simp only [setActive, found]
  split
  · rename_i same
    have kept : { slot with active } = slot := by cases slot; cases same; rfl
    rw [kept, put_self found]
  · rfl

theorem setActive_vacant (vacant : s.live? i = none) (active : Bool) : (s.setActive i active).1 = s := by
  simp [setActive, vacant]

/-- A claim, as requests, jobs and deliveries carry it. -/
structure Claim where
  key : Key
  index : Nat
  version : UInt32
deriving DecidableEq

/-- The claim that a slot was given last. -/
def Slot.claim (slot : Slot) (i : Nat) : Claim := ⟨slot.key, i, slot.version⟩

/-- 1 if the slot is in this stage of this claim, and 0 if not. -/
def Slot.bears (slot : Slot) (i : Nat) (stage : Stage) (c : Claim) : Nat :=
  if slot.stage = stage ∧ slot.claim i = c then 1 else 0

/-- 1 if a cell is in this stage of this claim, and 0 if none is. -/
def bears (s : Store) (stage : Stage) (c : Claim) : Nat :=
  (s.live? c.index).elim 0 (·.bears c.index stage c)

variable {stage : Stage} {c : Claim}

theorem bears_live (found : s.live? c.index = some slot) : s.bears stage c = slot.bears c.index stage c := by
  simp [bears, found]

theorem bears_pos (borne : s.bears stage c ≠ 0) :
    ∃ slot, s.live? c.index = some slot ∧ slot.stage = stage ∧ slot.claim c.index = c := by
  cases found : s.live? c.index with
  | none => exact absurd (by simp [bears, found]) borne
  | some slot =>
    rw [bears_live found, Slot.bears] at borne
    split at borne
    · rename_i current
      exact ⟨slot, rfl, current⟩
    · exact absurd rfl borne

theorem bears_one (found : s.live? i = some slot) (same : slot.stage = stage) : s.bears stage (slot.claim i) = 1 := by
  have found : s.live? (slot.claim i).index = some slot := found
  rw [bears_live found]
  exact if_pos ⟨same, rfl⟩

theorem bears_le_one (s : Store) (stage : Stage) (c : Claim) : s.bears stage c ≤ 1 := by
  unfold bears
  cases s.live? c.index with
  | none => exact Nat.zero_le _
  | some slot =>
    simp only [Option.elim_some, Slot.bears]
    split <;> decide

theorem Slot.bears_in (same : slot.stage = stage) : slot.bears i stage c = if slot.claim i = c then 1 else 0 := by
  simp [Slot.bears, same]

theorem Slot.bears_none (different : slot.stage ≠ stage) : slot.bears i stage c = 0 :=
  if_neg fun current => different current.1

theorem Slot.bears_other (slot : Slot) (different : i ≠ c.index) : slot.bears i stage c = 0 := by
  refine if_neg fun current => different ?_
  rw [← current.2]
  rfl

/-- A slot that is rewritten gives up the claim it bore and bears its new one. -/
theorem bears_put (found : s.live? i = some slot) (kept : fresh.live = slot.live) :
    (s.put i fresh).bears stage c + slot.bears i stage c = s.bears stage c + fresh.bears i stage c := by
  rw [bears, live?_put found kept]
  split
  · rename_i here
    subst here
    rw [bears_live found]
    exact Nat.add_comm _ _
  · rename_i elsewhere
    rw [slot.bears_other elsewhere, fresh.bears_other elsewhere]
    rfl

/-- No more than stages and claims is seen by who bears what. -/
theorem bears_same (sees : s'.live? c.index = s.live? c.index) : s'.bears stage c = s.bears stage c := by
  simp [bears, sees]

/-- A slot but for its stage and its version. -/
def Slot.outline (slot : Slot) : Slot := { slot with stage := .unloaded, version := 0 }

/-- A store but for the stages and versions in it: all that operations on claims cannot change. -/
def outline (s : Store) : Store := { s with slots := s.slots.map Slot.outline }

theorem outline_put (found : s.live? i = some slot) (same : fresh.outline = slot.outline) :
    (s.put i fresh).outline = s.outline := by
  have stored := (live?_stored found).1
  have rows : (s.slots.setIfInBounds i fresh).map Slot.outline = s.slots.map Slot.outline := by
    apply Array.ext_getElem?
    intro j
    simp only [Array.getElem?_map, Array.getElem?_setIfInBounds]
    split
    · rename_i here
      subst j
      split <;> simp_all
    · rfl
  simp [outline, put, rows]

theorem outline_schedule (s : Store) (i : Nat) : (s.schedule i).1.outline = s.outline := by
  rcases schedule_cases s i with ⟨slot, found, _, step⟩ | step
  · rw [step]
    exact outline_put found rfl
  · rw [step]

theorem outline_abandon (s : Store) (i : Nat) (version : UInt32) :
    (s.abandon i version).1.outline = s.outline := by
  rcases abandon_cases s i version with ⟨slot, found, _, _, step⟩ | step
  · rw [step]
    exact outline_put found rfl
  · rw [step]

theorem slot?_outline (s : Store) (i : Nat) : s.outline.slot? i = (s.slot? i).map Slot.outline := by
  have same : s.outline.reaches i = s.reaches i := rfl
  have rows : s.outline.slots[i]? = s.slots[i]?.map Slot.outline := Array.getElem?_map
  rw [slot?, same, slot?, rows]
  cases s.reaches i with
  | false => rfl
  | true => cases s.slots[i]? <;> rfl

theorem live?_outline (s : Store) (i : Nat) : s.outline.live? i = (s.live? i).map Slot.outline := by
  rw [live?, slot?_outline, live?]
  cases s.slot? i with
  | none => rfl
  | some slot => by_cases alive : slot.live <;> simp [Option.filter, Slot.outline, alive]

theorem roomy_outline : s.outline.Roomy ↔ s.Roomy := by
  have size : s.outline.slots.size = s.slots.size := Array.size_map
  constructor
  · intro roomy
    exact roomy.same rfl rfl rfl (size ▸ roomy.used)
  · intro roomy
    exact roomy.same rfl rfl rfl (size ▸ roomy.used)

theorem sound_outline : s.outline.Sound ↔ s.Sound := by
  constructor
  · rintro ⟨roomy, mapped, spare, distinct, bare⟩
    refine ⟨roomy_outline.mp roomy, ?_, ?_, distinct, ?_⟩
    · intro key i
      rw [show s.index[key]? = s.outline.index[key]? from rfl, mapped, live?_outline]
      simp [Slot.outline]
    · intro i
      rw [show s.free = s.outline.free from rfl, spare]
      simp [outline, Slot.outline]
    · intro i slot stored vacant
      exact bare i slot.outline (by simp [outline, stored]) vacant
  · rintro ⟨roomy, mapped, spare, distinct, bare⟩
    refine ⟨roomy_outline.mpr roomy, ?_, ?_, distinct, ?_⟩
    · intro key i
      rw [show s.outline.index[key]? = s.index[key]? from rfl, mapped, live?_outline]
      simp [Slot.outline]
    · intro i
      rw [show s.outline.free = s.free from rfl, spare]
      simp [outline, Slot.outline]
    · intro i slot stored vacant
      simp only [outline, Array.getElem?_map, Option.map_eq_some_iff] at stored
      obtain ⟨actual, stored, rfl⟩ := stored
      exact bare i actual stored vacant

theorem refsOf_outline (s : Store) (key : Key) : s.outline.refsOf key = s.refsOf key := by
  have counts : s.outline.refs = s.refs := by
    funext i
    rw [refs, live?_outline, refs]
    cases s.live? i <;> rfl
  rw [refsOf, counts]
  rfl

theorem tenants_outline (s : Store) : s.outline.tenants = s.tenants.map Slot.outline := by
  have size : s.outline.slots.size = s.slots.size := Array.size_map
  rw [tenants, size, tenants, List.map_filterMap]
  exact List.filterMap_congr fun i _ => live?_outline s i

theorem total_outline (s : Store) : s.outline.total = s.total := by
  simp only [total, tenants_outline, List.map_map]
  rfl

theorem shapes_outline (s : Store) : s.outline.shapes = s.shapes := by
  simp only [shapes, tenants_outline, List.filterMap_map]
  rfl

theorem Sound.of_outline (sound : s.Sound) (same : s'.outline = s.outline) : s'.Sound := by
  rw [← sound_outline, same, sound_outline]
  exact sound

theorem outline_level (same : s'.outline = s.outline) :
    (∀ key, s'.refsOf key = s.refsOf key) ∧ s'.total = s.total ∧ s'.index = s.index := by
  have index : s'.outline.index = s.outline.index := congrArg Store.index same
  refine ⟨?_, ?_, index⟩
  · intro key
    rw [← refsOf_outline, same, refsOf_outline]
  · rw [← total_outline, same, total_outline]

end TerrainStream.Store
