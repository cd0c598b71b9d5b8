import TerrainStream.Proofs.Store.History

/-! The builds of a tenant. A slot is news when a cell comes or leaves and when a build is finished there; between
news nothing changes the build that it shows. -/

namespace TerrainStream.Store

open Cell

/-- What an operation that is granted changes about the cell and the build in a slot. -/
inductive News
  | came
  | finished (shape : Option Handle) (placeholder : Bool)
  | left
deriving DecidableEq

/-- The news of one operation about one slot. -/
def news? (s : Store) (i : Nat) : Operation → Option News
  | .add key => if s.indexOf key = none ∧ (s.add key).2.toOption = some i then some .came else none
  | .remove key => if (s.remove key).2.any (·.index = i) then some .left else none
  | .finish j key version shape placeholder =>
    if j = i ∧ (s.finish j key version shape placeholder).2.isOk then some (.finished shape placeholder) else none
  | .schedule _ | .begin _ _ | .abandon _ _ | .tryRetire _ | .retain _ | .release _ | .setActive _ _ => none

/-- The builds that a tenant has had, the latest last; every tenant starts with none. -/
def News.record (done : List (Option Handle × Bool)) : News → List (Option Handle × Bool)
  | came | left => []
  | finished shape placeholder => done ++ [(shape, placeholder)]

/-- The builds that have been finished in a slot since its tenant came, after some that were finished before. -/
def builds (s : Store) (i : Nat) (done : List (Option Handle × Bool)) : List Operation → List (Option Handle × Bool)
  | [] => done
  | operation :: rest => (s.perform operation).builds i ((s.news? i operation).elim done (News.record done)) rest

/-- From one tenant of a slot to the next, by news or without any. -/
inductive Change : Option Slot → Option News → Option Slot → Prop
  | same (now : Option Slot) : Change now none now
  | kept {slot fresh : Slot} (key : fresh.key = slot.key) (shape : fresh.shape = slot.shape)
      (placeholder : fresh.placeholder = slot.placeholder)
      (stage : fresh.stage = slot.stage ∨ fresh.stage = slot.fallback ∨
        fresh.stage = .scheduled ∨ fresh.stage = .generating ∨ fresh.stage = .removing) :
      Change (some slot) none (some fresh)
  | came (key : Key) (version : UInt32) : Change none (some .came) (some (Slot.newcomer key version))
  | finished (slot : Slot) (shape : Option Handle) (placeholder : Bool) :
      Change (some slot) (some (.finished shape placeholder)) (some { slot with shape, placeholder, stage := .ready })
  | left (slot : Slot) : Change (some slot) (some .left) none

variable {s s' : Store} {i j : Nat} {slot fresh : Slot} {key : Key}

/-- A tenant that is rewritten is a change to its own slot and to no other. -/
private theorem Change.put {news : Option News} (found : s.live? j = some slot) (kept : fresh.live = slot.live)
    (here : j = i → Change (some slot) news (some fresh)) (elsewhere : j ≠ i → news = none) :
    Change (s.live? i) news ((s.put j fresh).live? i) := by
  rw [live?_put found kept]
  split
  · rename_i same
    rw [← same, found]
    exact here same
  · rename_i other
    rw [elsewhere other]
    exact .same _

private theorem add_change (sound : s.Sound) (i : Nat) (key : Key) :
    Change (s.live? i) (s.news? i (.add key)) ((s.add key).1.live? i) := by
  rcases add_cases sound key with ⟨j, found, step⟩ | ⟨s', j, step, admitted, _⟩ | ⟨fault, step⟩
  · have mapped : s.indexOf key = some j := found
    simp only [news?, mapped, reduceCtorEq, false_and, ↓reduceIte, step]
    exact .same _
  · have absent : s.indexOf key = none := admitted.absent
    simp only [news?, absent, step, Except.toOption, Option.some.injEq, true_and]
    rw [admitted.sees]
    split
    · rename_i here
      rw [← here, admitted.vacant]
      exact .came _ _
    · exact .same _
  · simp only [news?, step, Except.toOption, reduceCtorEq, and_false, ↓reduceIte]
    exact .same _

private theorem remove_change (sound : s.Sound) (i : Nat) (key : Key) :
    Change (s.live? i) (s.news? i (.remove key)) ((s.remove key).1.live? i) := by
  rcases remove_cases sound key with ⟨s', j, slot, step, _, departed, _⟩ | ⟨_, step⟩
  · simp only [news?, step, Option.any_some, decide_eq_true_eq]
    rw [departed.sees]
    split
    · rename_i here
      rw [← here, departed.found]
      exact .left _
    · exact .same _
  · simp only [news?, step, Option.any_none, Bool.false_eq_true, ↓reduceIte]
    exact .same _

private theorem finish_change (s : Store) (i j : Nat) (key : Key) (version : UInt32) (shape : Option Handle)
    (placeholder : Bool) : Change (s.live? i) (s.news? i (.finish j key version shape placeholder))
      ((s.finish j key version shape placeholder).1.live? i) := by
  rcases finish_cases s j key version shape placeholder with ⟨slot, found, _, _, _, step⟩ | ⟨reason, step⟩
  · simp only [news?, step, Except.isOk, Except.toBool, and_true]
    refine .put found rfl (fun here => ?_) fun elsewhere => if_neg elsewhere
    rw [if_pos here]
    exact .finished _ _ _
  · simp only [news?, step, Except.isOk, Except.toBool, Bool.false_eq_true, and_false, ↓reduceIte]
    exact .same _

/-- Every operation is one change to every slot. -/
theorem perform_change (sound : s.Sound) (i : Nat) (operation : Operation) :
    Change (s.live? i) (s.news? i operation) ((s.perform operation).live? i) := by
  cases operation with
  | add key => exact add_change sound i key
  | remove key => exact remove_change sound i key
  | finish j key version shape placeholder => exact finish_change s i j key version shape placeholder
  | schedule j =>
    rcases schedule_cases s j with ⟨slot, found, _, step⟩ | step
    · rw [perform, step]
      exact .put found rfl (fun _ => .kept rfl rfl rfl (.inr (.inr (.inl rfl)))) fun _ => rfl
    · rw [perform, step]
      exact .same _
  | begin j version =>
    rcases begin_cases s j version with ⟨slot, found, _, _, step⟩ | step
    · rw [perform, step]
      exact .put found rfl (fun _ => .kept rfl rfl rfl (.inr (.inr (.inr (.inl rfl))))) fun _ => rfl
    · rw [perform, step]
      exact .same _
  | abandon j version =>
    rcases abandon_cases s j version with ⟨slot, found, _, _, step⟩ | step
    · rw [perform, step]
      exact .put found rfl (fun _ => .kept rfl rfl rfl (.inr (.inl rfl))) fun _ => rfl
    · rw [perform, step]
      exact .same _
  | tryRetire j =>
    rcases step : s.tryRetire j with ⟨s', answer⟩
    cases answer with
    | false =>
      rw [perform, step, tryRetire_false step]
      exact .same _
    | true =>
      obtain ⟨slot, found, _, _, rfl⟩ := tryRetire_true step
      rw [perform, step]
      exact .put found rfl (fun _ => .kept rfl rfl rfl (.inr (.inr (.inr (.inr rfl))))) fun _ => rfl
  | retain j =>
    cases found : s.live? j with
    | none =>
      rw [perform, retain_vacant found]
      exact .same _
    | some slot =>
      rw [perform, retain_live found]
      exact .put found rfl (fun _ => .kept rfl rfl rfl (.inl rfl)) fun _ => rfl
  | release j =>
    cases found : s.live? j with
    | none =>
      rw [perform, release_vacant found]
      exact .same _
    | some slot =>
      rw [perform, release_live found]
      exact .put found rfl (fun _ => .kept rfl rfl rfl (.inl rfl)) fun _ => rfl
  | setActive j active =>
    cases found : s.live? j with
    | none =>
      rw [perform, setActive_vacant found]
      exact .same _
    | some slot =>
      rw [perform, setActive_live found]
      exact .put found rfl (fun _ => .kept rfl rfl rfl (.inl rfl)) fun _ => rfl

/-- Without news a tenant stays, and goes on showing the build that it shows. -/
theorem Change.quiet {later : Option Slot} (change : Change (some slot) none later) :
    ∃ fresh, later = some fresh ∧ fresh.key = slot.key ∧ fresh.shape = slot.shape ∧
      fresh.placeholder = slot.placeholder := by
  cases change with
  | same => exact ⟨slot, rfl, rfl, rfl, rfl⟩
  | kept key shape placeholder => exact ⟨_, rfl, key, shape, placeholder⟩

/-- A slot shows the last of its tenant's builds. Its stage knows whether there has been one: without a claim out, a
cell that shows nothing is unloaded, and a cell is ready after a build at the earliest. -/
structure Slot.Showing (slot : Slot) (done : List (Option Handle × Bool)) : Prop where
  last : (slot.shape, slot.placeholder) = done.getLast?.getD (none, true)
  bare : slot.stage = .unloaded → slot.shape = none ∧ slot.placeholder = true
  built : slot.stage = .ready → done ≠ []

variable {done : List (Option Handle × Bool)}

private theorem Slot.Showing.fallback (showing : slot.Showing done) :
    (slot.fallback = .unloaded → slot.shape = none ∧ slot.placeholder = true) ∧ (slot.fallback = .ready → done ≠ []) := by
  have last := showing.last
  unfold Slot.fallback
  split
  · rename_i shown
    refine ⟨fun impossible => (nomatch impossible), ?_⟩
    rintro - rfl
    obtain ⟨bare, coarse⟩ : slot.shape = none ∧ slot.placeholder = true := Prod.mk.inj last
    simp [bare, coarse] at shown
  · rename_i bare
    exact ⟨fun _ => by simpa using bare, fun impossible => (nomatch impossible)⟩

private theorem Slot.Showing.kept (showing : slot.Showing done) (shape : fresh.shape = slot.shape)
    (placeholder : fresh.placeholder = slot.placeholder)
    (stage : fresh.stage = slot.stage ∨ fresh.stage = slot.fallback ∨
      fresh.stage = .scheduled ∨ fresh.stage = .generating ∨ fresh.stage = .removing) : fresh.Showing done := by
  refine ⟨?_, ?_, ?_⟩
  · rw [shape, placeholder]
    exact showing.last
  · rw [shape, placeholder]
    rcases stage with same | back | named
    · rw [same]
      exact showing.bare
    · rw [back]
      exact showing.fallback.1
    · rcases named with named | named | named <;> simp [named]
  · rcases stage with same | back | named
    · rw [same]
      exact showing.built
    · rw [back]
      exact showing.fallback.2
    · rcases named with named | named | named <;> simp [named]

/-- Every change leaves a slot that shows the last build on record. -/
theorem Change.showing {now later : Option Slot} {news : Option News} (change : Change now news later)
    (showing : ∀ slot, now = some slot → slot.Showing done) :
    ∀ slot, later = some slot → slot.Showing (news.elim done (News.record done)) := by
  rintro slot rfl
  cases change with
  | same => exact showing slot rfl
  | kept key shape placeholder stage => exact (showing _ rfl).kept shape placeholder stage
  | came key version => exact ⟨rfl, fun _ => ⟨rfl, rfl⟩, fun impossible => (nomatch impossible)⟩
  | finished old shape placeholder =>
    refine ⟨?_, fun impossible => (nomatch impossible), fun _ => List.concat_ne_nil _ _⟩
    simp [News.record]

/-- So does every history. -/
theorem after_showing (sound : s.Sound) (showing : ∀ slot, s.live? i = some slot → slot.Showing done)
    (history : List Operation) :
    ∀ slot, (s.after history).live? i = some slot → slot.Showing (s.builds i done history) := by
  induction history generalizing s done with
  | nil => exact showing
  | cons operation rest ih =>
    exact ih ((perform_outcome sound operation).sound sound) ((perform_change sound i operation).showing showing)

/-- A section is ready if its cell is there to stay and shows a build that is not a coarse one. -/
theorem isSectionReady_iff (sound : s.Sound) : s.isSectionReady key = true ↔
    ∃ i slot, s.indexOf key = some i ∧ s.live? i = some slot ∧ slot.stage ≠ .removing ∧ slot.placeholder = false := by
  unfold isSectionReady
  cases found : s.indexOf key with
  | none => simp
  | some i =>
    obtain ⟨slot, living, owner⟩ := sound.lives found
    simp [living, owner]

/-- After every history of a store that started empty, each tenant shows the last build that was finished in its slot
since it came, or none: nothing but another finished build changes what it shows while it stays. So a cell is
unloaded only without a build to show and ready only with one, a build that is finished names the shape of the one
before, and a section is ready when its cell is there to stay and the last build of its cell is not a coarse one. -/
theorem tenants_show_last_builds (initial most : Nat) (history : List Operation) :
    let start := ofLimits initial most
    let s := start.after history
    let done (i : Nat) := start.builds i [] history
    (∀ i slot, s.live? i = some slot →
      (slot.shape, slot.placeholder) = (done i).getLast?.getD (none, true) ∧
      (slot.stage = .unloaded → slot.shape = none ∧ slot.placeholder = true) ∧
      (slot.stage = .ready → done i ≠ []) ∧
      (∀ key version shape placeholder s' previous, s.finish i key version shape placeholder = (s', .ok previous) →
        previous = (done i).getLast?.bind (·.1)) ∧
      (∀ operation, s.news? i operation = none →
        ∃ later, (s.perform operation).live? i = some later ∧ later.key = slot.key ∧ later.shape = slot.shape ∧
          later.placeholder = slot.placeholder)) ∧
    (∀ key, s.isSectionReady key = true ↔ ∃ i shape, s.indexOf key = some i ∧ s.stage i ≠ .removing ∧
      (done i).getLast? = some (shape, false)) := by
  intro start s done
  have origin : start.Sound := sound_ofLimits initial most
  have sound : s.Sound := (after_keeps (fun _ => True) origin trivial (fun _ _ _ _ _ => trivial) history).1
  have showing (i : Nat) (slot : Slot) (living : s.live? i = some slot) : slot.Showing (done i) :=
    after_showing origin (fun slot there => nomatch (live?_ofLimits initial most i).symm.trans there) history slot living
  refine ⟨fun i slot living => ?_, fun key => ?_⟩
  · obtain ⟨last, bare, built⟩ := showing i slot living
    refine ⟨last, bare, built, fun key version shape placeholder s' previous finished => ?_, fun operation quiet => ?_⟩
    · rcases finish_cases s i key version shape placeholder with ⟨old, found, _, _, _, step⟩ | ⟨reason, step⟩
      · rw [finished] at step
        cases step
        rw [living] at found
        cases found
        cases shown : (done i).getLast? with
        | none =>
          rw [shown] at last
          exact (Prod.mk.inj last).1
        | some build =>
          rw [shown] at last
          exact congrArg Prod.fst last
      · rw [finished] at step
        cases step
    · have change := perform_change sound i operation
      rw [living, quiet] at change
      exact change.quiet
  · rw [isSectionReady_iff sound]
    constructor
    · rintro ⟨i, slot, found, living, stays, full⟩
      have last := (showing i slot living).last
      refine ⟨i, slot.shape, found, (stage_live living).symm ▸ stays, ?_⟩
      cases shown : (done i).getLast? with
      | none =>
        rw [shown, full] at last
        exact absurd (Prod.mk.inj last).2 Bool.false_ne_true
      | some build =>
        rw [shown, full] at last
        rw [last, Option.getD_some]
    · rintro ⟨i, shape, found, stays, shown⟩
      obtain ⟨slot, living, _⟩ := sound.lives found
      have last := (showing i slot living).last
      rw [shown] at last
      exact ⟨i, slot, found, living, stage_live living ▸ stays, (Prod.mk.inj last).2⟩

/-- A cell is built and leaves; the next one in its slot is built coarsely, and its second claim is given up. -/
private def visits : List Operation :=
  [.add ⟨1⟩, .schedule 0, .begin 0 1, .finish 0 ⟨1⟩ 1 (some ⟨5⟩) false, .remove ⟨1⟩,
    .add ⟨2⟩, .schedule 0, .begin 0 3, .finish 0 ⟨2⟩ 3 (some ⟨6⟩) true, .schedule 0, .begin 0 4, .abandon 0 4]

/-- The first cell is ready as a section. The second shows its own coarse build, is not, and stays as it is when the
claim that was given up comes back as a finished build. -/
theorem tenants_show_last_builds_of_visits :
    let start := ofLimits 0 0
    let s := start.after visits
    (start.after (visits.take 4)).isSectionReady ⟨1⟩ = true ∧ s.isSectionReady ⟨2⟩ = false ∧
    ∃ slot later, s.live? 0 = some slot ∧ (slot.shape, slot.placeholder) = (some ⟨6⟩, true) ∧
      (s.perform (.finish 0 ⟨2⟩ 4 (some ⟨7⟩) false)).live? 0 = some later ∧ later.shape = some ⟨6⟩ := by
  intro start s
  have first : (start.builds 0 [] (visits.take 4)).getLast? = some (some ⟨5⟩, false) := by decide +kernel
  have second : start.builds 0 [] visits = [(some ⟨6⟩, true)] := by decide +kernel
  have stays : (start.after (visits.take 4)).indexOf ⟨1⟩ = some 0 ∧ (start.after (visits.take 4)).stage 0 ≠ .removing := by
    decide +kernel
  have refused : s.news? 0 (.finish 0 ⟨2⟩ 4 (some ⟨7⟩) false) = none := by decide +kernel
  have found : s.indexOf ⟨2⟩ = some 0 := by decide +kernel
  obtain ⟨slot, living⟩ : ∃ slot, s.live? 0 = some slot := Option.isSome_iff_exists.mp (by decide +kernel)
  obtain ⟨_, ready⟩ := tenants_show_last_builds 0 0 (visits.take 4)
  obtain ⟨shown, coarse⟩ := tenants_show_last_builds 0 0 visits
  obtain ⟨last, _, _, _, quiet⟩ := shown 0 slot living
  obtain ⟨later, there, _, shape, _⟩ := quiet _ refused
  have last : (slot.shape, slot.placeholder) = (start.builds 0 [] visits).getLast?.getD (none, true) := last
  rw [second] at last
  refine ⟨(ready ⟨1⟩).mpr ⟨0, _, stays.1, stays.2, first⟩, ?_, slot, later, living, last, there, ?_⟩
  · apply Bool.eq_false_iff.mpr
    intro claimed
    obtain ⟨i, shape, mapped, _, fine⟩ := (coarse ⟨2⟩).mp claimed
    have here : i = 0 := Option.some.inj (mapped.symm.trans found)
    have fine : (start.builds i [] visits).getLast? = some (shape, false) := fine
    rw [here, second] at fine
    cases fine
  · rw [shape]
    exact (Prod.mk.inj last).1

end TerrainStream.Store
