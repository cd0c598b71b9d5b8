import TerrainStream.Proofs.Store.Builds
import TerrainStream.Proofs.Store.Deeds
import TerrainStream.Proofs.Store.Lookup

/-! Giving up a claim. While a claim is out its slot goes on showing the build that it showed before, and from that build
alone the slot finds the stage to go back to. An empty build that counts as coarse looks like no build at all. -/

namespace TerrainStream.Store

open Cell

variable {s : Store} {i : Nat} {slot now : Slot} {version next : UInt32} {stage : Stage} {left : Option Stage}
  {operation : Operation}

/-- A claim is out on the slot, and but for that it has the tenant and the build of an earlier slot. -/
structure Slot.Claimed (now slot : Slot) (version : UInt32) : Prop where
  key : now.key = slot.key
  shape : now.shape = slot.shape
  placeholder : now.placeholder = slot.placeholder
  version : now.version = version
  flying : now.stage.isInFlight = true

theorem schedule_claimed {claimed : Store} (sound : s.Sound) (living : s.live? i = some slot)
    (granted : s.schedule i = (claimed, some version)) :
    claimed.Sound ∧ slot.stage.acceptsClaim = true ∧ ∃ now, claimed.live? i = some now ∧ now.Claimed slot version := by
  rcases schedule_cases s i with ⟨tenant, found, accepts, step⟩ | step
  · rw [living] at found
    cases found
    rw [granted] at step
    cases step
    exact ⟨sound.put living rfl rfl, accepts, _, live?_put_self _ living rfl, rfl, rfl, rfl, rfl, rfl⟩
  · rw [granted] at step
    cases step

/-- A deed that does not end the claim that is out leaves it out. -/
private theorem Turn.unended {deed : Option Deed} (turn : Turn version (some stage) deed next left)
    (unended : ∀ d ∈ deed.toList, d.ends = false) : next = version ∧ left ≠ none := by
  cases turn with
  | quiet | begun => exact ⟨rfl, Option.some_ne_none _⟩
  | finished | abandoned | removed => cases unended _ (.head _)

/-- A build that is finished ends a claim. -/
private theorem deed_of_finished {shape : Option Handle} {placeholder : Bool}
    (news : s.news? i operation = some (.finished shape placeholder)) :
    ∃ claim, s.deed? i operation = some (.finished claim) := by
  cases operation with
  | finish j key claim shape placeholder =>
    refine ⟨claim, if_pos ?_⟩
    simp only [news?, Option.ite_none_right_eq_some] at news
    exact news.1
  | add | remove => simp [news?] at news
  | schedule | begin | abandon | tryRetire | retain | release | setActive => cases news

private theorem deed_of_left (news : s.news? i operation = some .left) : s.deed? i operation = some .removed := by
  cases operation with
  | remove key =>
    simp only [news?, Option.ite_none_right_eq_some] at news
    exact if_pos news.1
  | add | finish => simp [news?] at news
  | schedule | begin | abandon | tryRetire | retain | release | setActive => cases news

/-- Of a slot that has a tenant there is no news without a deed that ends the claim. -/
private theorem news_unended (sound : s.Sound) (living : s.live? i = some now)
    (unended : ∀ deed ∈ (s.deed? i operation).toList, deed.ends = false) : s.news? i operation = none := by
  have change := perform_change sound i operation
  rw [living] at change
  generalize (s.perform operation).live? i = later at change
  cases news : s.news? i operation with
  | none => rfl
  | some told =>
    rw [news] at change
    cases change with
    | finished =>
      obtain ⟨claim, deed⟩ := deed_of_finished news
      cases unended _ (by rw [deed]; exact .head _)
    | left => cases unended _ (by rw [deed_of_left news]; exact .head _)

theorem Slot.Claimed.perform (sound : s.Sound) (living : s.live? i = some now) (claimed : now.Claimed slot version)
    (unended : ∀ deed ∈ (s.deed? i operation).toList, deed.ends = false) :
    ∃ later, (s.perform operation).live? i = some later ∧ later.Claimed slot version := by
  have change := perform_change sound i operation
  rw [living, news_unended sound living unended] at change
  obtain ⟨later, present, key, shape, placeholder⟩ := change.quiet
  have turn := perform_turn sound i operation
  rw [version_live living, flight_live living, Option.filter_some_pos claimed.flying, version_live present,
    flight_live present] at turn
  obtain ⟨same, out⟩ := turn.unended unended
  refine ⟨later, present, key.trans claimed.key, shape.trans claimed.shape, placeholder.trans claimed.placeholder,
    same.trans claimed.version, ?_⟩
  by_contra idle
  exact out (Option.filter_some_neg (Bool.eq_false_iff.mpr idle))

/-- Nothing but a deed that ends the claim takes it from its slot. -/
theorem Slot.Claimed.after (sound : s.Sound) (living : s.live? i = some now) (claimed : now.Claimed slot version)
    (history : List Operation) (unended : ∀ deed ∈ s.deeds i history, deed.ends = false) :
    ∃ later, (s.after history).live? i = some later ∧ later.Claimed slot version := by
  induction history generalizing s now with
  | nil => exact ⟨now, living, claimed⟩
  | cons operation rest ih =>
    obtain ⟨later, present, still⟩ := claimed.perform sound living fun deed told =>
      unended deed (List.mem_append_left _ told)
    exact ih ((perform_outcome sound operation).sound sound) present still fun deed told =>
      unended deed (List.mem_append_right _ told)

theorem fallback_bare (shape : slot.shape = none) (placeholder : slot.placeholder = true) :
    slot.fallback = .unloaded := by
  simp [Slot.fallback, shape, placeholder]

theorem fallback_built (built : (slot.shape, slot.placeholder) ≠ (none, true)) : slot.fallback = .ready := by
  unfold Slot.fallback
  refine if_pos ?_
  cases shape : slot.shape with
  | some handle => rfl
  | none =>
    cases placeholder : slot.placeholder with
    | false => rfl
    | true => exact absurd (by rw [shape, placeholder]) built

/-- A slot that shows its builds goes back to the stage that it was claimed in, unless an empty coarse build is the
last. -/
theorem Slot.Showing.falls_back {done : List (Option Handle × Bool)} (showing : slot.Showing done)
    (idle : slot.stage.acceptsClaim = true) :
    (done.getLast? ≠ some (none, true) →
      slot.fallback = slot.stage ∧ slot.fallback = if done = [] then .unloaded else .ready) ∧
    (done.getLast? = some (none, true) → slot.fallback = .unloaded) := by
  have last := showing.last
  refine ⟨fun told => ?_, fun empty => ?_⟩
  · cases stage : slot.stage with
    | scheduled | generating | removing => rw [stage] at idle; cases idle
    | unloaded =>
      obtain ⟨shape, placeholder⟩ := showing.bare stage
      have none : done = [] := by
        cases shown : done.getLast? with
        | none => exact List.getLast?_eq_none_iff.mp shown
        | some build =>
          rw [shown, shape, placeholder] at last
          exact absurd (shown.trans (congrArg some last.symm)) told
      rw [fallback_bare shape placeholder, if_pos none]
      exact ⟨rfl, rfl⟩
    | ready =>
      have some := showing.built stage
      rw [List.getLast?_eq_some_getLast some] at last told
      rw [fallback_built (last ▸ fun empty => told (congrArg Option.some empty)), if_neg some]
      exact ⟨rfl, rfl⟩
  · rw [empty] at last
    exact fallback_bare (Prod.mk.inj last).1 (Prod.mk.inj last).2

/-- After every history of a store that started empty: a claim that is given up before any deed has ended it leaves its
slot with the tenant and the build that it had when the claim was issued, and with the claim's version. The slot is
back in the stage that it was claimed in, which is ready if a build was ever finished for the tenant and unloaded if
not, unless the last one was an empty coarse build: then it is unloaded. -/
theorem abandoned_claims_fall_back (initial most : Nat) (history later : List Operation) (i : Nat) (slot : Slot)
    (claimed : Store) (version : UInt32)
    (living : ((ofLimits initial most).after history).live? i = some slot)
    (granted : ((ofLimits initial most).after history).schedule i = (claimed, some version))
    (unended : ∀ deed ∈ claimed.deeds i later, deed.ends = false) :
    let done := (ofLimits initial most).builds i [] history
    ∃ s' fresh, (claimed.after later).abandon i version = (s', true) ∧ s'.live? i = some fresh ∧
      fresh.key = slot.key ∧ fresh.shape = slot.shape ∧ fresh.placeholder = slot.placeholder ∧
      fresh.version = version ∧
      (done.getLast? ≠ some (none, true) →
        fresh.stage = slot.stage ∧ fresh.stage = if done = [] then .unloaded else .ready) ∧
      (done.getLast? = some (none, true) → fresh.stage = .unloaded) := by
  intro done
  have origin : (ofLimits initial most).Sound := sound_ofLimits initial most
  have sound : ((ofLimits initial most).after history).Sound :=
    (after_keeps (fun _ => True) origin trivial (fun _ _ _ _ _ => trivial) history).1
  have showing : slot.Showing done :=
    after_showing origin (fun slot there => nomatch (live?_ofLimits initial most i).symm.trans there) history slot living
  obtain ⟨still, accepts, now, issued, out⟩ := schedule_claimed sound living granted
  obtain ⟨held, present, out⟩ := out.after still issued later unended
  have given := abandon_current present out.flying
  rw [out.version] at given
  have fallback : held.fallback = slot.fallback := by
    rw [Slot.fallback, out.shape, out.placeholder, Slot.fallback]
  refine ⟨_, _, given, live?_put_self _ present rfl, out.key, out.shape, out.placeholder, rfl, ?_⟩
  dsimp only
  rw [fallback]
  exact showing.falls_back accepts

/-- A cell is built coarsely. -/
private def covered : List Operation :=
  [.add ⟨5⟩, .schedule 0, .begin 0 1, .finish 0 ⟨5⟩ 1 (some ⟨4⟩) true]

/-- What goes on while its second claim is out: the claim is begun, another one and an old build are turned away, the
cell is referenced and switched on, and a second cell comes and is claimed. -/
private def bustle : List Operation :=
  [.begin 0 2, .schedule 0, .finish 0 ⟨5⟩ 1 (some ⟨6⟩) false, .retain 0, .setActive 0 true, .add ⟨7⟩, .schedule 1,
    .abandon 0 1, .tryRetire 0, .remove ⟨8⟩]

/-- The claim is given up, and the cell has its coarse build as before. -/
theorem abandoned_claims_fall_back_covered :
    let s := (ofLimits 0 0).after covered
    ∃ slot claimed s' fresh, s.live? 0 = some slot ∧ s.schedule 0 = (claimed, some 2) ∧
      (∀ deed ∈ claimed.deeds 0 bustle, deed.ends = false) ∧
      (claimed.after bustle).abandon 0 2 = (s', true) ∧ s'.live? 0 = some fresh ∧
      fresh.stage = .ready ∧ fresh.shape = some ⟨4⟩ ∧ fresh.placeholder = true := by
  have shown : (((ofLimits 0 0).after covered).live? 0).map (fun slot => (slot.stage, slot.shape, slot.placeholder)) =
      some (.ready, some ⟨4⟩, true) := by decide +kernel
  have issued : (((ofLimits 0 0).after covered).schedule 0).2 = some 2 := by decide +kernel
  have unended : ∀ deed ∈ (((ofLimits 0 0).after covered).schedule 0).1.deeds 0 bustle, deed.ends = false := by
    decide +kernel
  have done : ((ofLimits 0 0).builds 0 [] covered).getLast? ≠ some (none, true) := by decide +kernel
  obtain ⟨slot, living, same⟩ := Option.map_eq_some_iff.mp shown
  simp only [Prod.mk.injEq] at same
  obtain ⟨claimed, granted⟩ : ∃ claimed, ((ofLimits 0 0).after covered).schedule 0 = (claimed, some 2) :=
    ⟨_, Prod.ext rfl issued⟩
  rw [granted] at unended
  obtain ⟨s', fresh, given, present, _, shape, placeholder, _, back, _⟩ :=
    abandoned_claims_fall_back 0 0 covered bustle 0 slot claimed 2 living granted unended
  exact ⟨slot, claimed, s', fresh, living, granted, unended, given, present, (back done).1.trans same.1,
    shape.trans same.2.1, placeholder.trans same.2.2⟩

/-- A cell is built coarsely and turns out empty. -/
private def emptied : List Operation :=
  [.add ⟨5⟩, .schedule 0, .begin 0 1, .finish 0 ⟨5⟩ 1 none true]

/-- The cell is ready with a finished build; it is claimed again and the claim is given up, and it is unloaded. -/
theorem empty_covers_are_forgotten :
    let s := (ofLimits 0 0).after emptied
    (ofLimits 0 0).builds 0 [] emptied = [(none, true)] ∧ s.stage 0 = .ready ∧ (s.schedule 0).2 = some 2 ∧
      ((s.schedule 0).1.abandon 0 2).2 = true ∧ ((s.schedule 0).1.abandon 0 2).1.stage 0 = .unloaded := by
  decide +kernel

end TerrainStream.Store
