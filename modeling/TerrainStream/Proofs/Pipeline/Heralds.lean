import TerrainStream.Proofs.Pipeline.Carriers
import TerrainStream.Proofs.Residency.Lineage

/-! What is said of a build before it is there. A claim is made as a first one if its cell has no build, and as long as
it is out nothing is built in its cell, so what its carrier says of it stays true. -/

namespace TerrainStream

open Cell Store Shape Collision Build Residency Physics World

variable {σ ω : Type}

/-- A claim, and whether it was made as a first one. -/
structure Herald where
  claim : Claim
  initial : Bool

def Residency.Request.herald (r : Request) : Herald := ⟨r.claim, r.initial⟩

def Build.Job.herald (job : Job) : Herald := ⟨job.claim, job.initial⟩

def Collision.Command.herald? : Command → Option Herald
  | .install d => some ⟨d.claim, d.initial⟩
  | _ => none

namespace Residency.Desk

/-- The requests that wait at a desk and those that have left it. -/
def petitions (d : Desk) : List Request := d.planner.pending.toList ++ d.requests.letters.toList

end Residency.Desk

namespace Ledger

/-- What all carriers of claims say of them. -/
def heralds (l : Ledger σ) : List Herald :=
  (l.planner.pending.toList ++ l.waiting).map (·.herald) ++ l.jobs.map (·.herald) ++ l.commands.filterMap (·.herald?)

/-- Every carrier says of its claim whether the cell has no build. -/
structure Told (l : Ledger σ) : Prop where
  tracked : l.Tracked
  truly : ∀ h ∈ l.heralds, ∀ slot, l.store.live? h.claim.index = some slot → h.initial = slot.isBare

variable {l l' : Ledger σ}

theorem heralds_claims (l : Ledger σ) : l.heralds.map (·.claim) = l.waits ++ l.delivers := by
  have commands : (l.commands.filterMap (·.herald?)).map (·.claim) = l.delivers := by
    rw [delivers, List.map_filterMap]
    refine List.filterMap_congr fun c _ => ?_
    cases c <;> rfl
  simp only [heralds, waits, List.map_append, commands, List.map_map, Function.comp_def]
  rfl

/-- Whatever is said is said of a claim that is out. -/
theorem Tracked.herald (tracked : l.Tracked) {h : Herald} (said : h ∈ l.heralds) :
    ∃ slot, l.store.live? h.claim.index = some slot ∧ slot.stage.isInFlight = true ∧
      slot.claim h.claim.index = h.claim := by
  have member : h.claim ∈ l.waits ++ l.delivers := l.heralds_claims ▸ List.mem_map_of_mem said
  rcases List.mem_append.mp member with waits | builds
  · obtain ⟨slot, found, stage, current⟩ := tracked.carried.waits waits
    exact ⟨slot, found, by rw [stage]; rfl, current⟩
  · obtain ⟨slot, found, stage, current⟩ := tracked.carried.builds builds
    exact ⟨slot, found, by rw [stage]; rfl, current⟩

/-- What was said stays true while the cell keeps its build, and what is new has to be true. -/
theorem Told.step (told : l.Told) (tracked : l'.Tracked)
    (kept : ∀ h ∈ l'.heralds, ∀ slot, l'.store.live? h.claim.index = some slot →
      h ∈ l.heralds ∧ slot.Keeps l.store h.claim.index ∨ h.initial = slot.isBare) : l'.Told := by
  refine ⟨tracked, fun h said slot living => ?_⟩
  rcases kept h said slot living with ⟨before, keeps⟩ | true
  · obtain ⟨old, found, _⟩ := id keeps
    rw [keeps.isBare found]
    exact told.truly h before old found
  · exact true

theorem Told.inherits (told : l.Told) (tracked : l'.Tracked) (inherits : Inherits l.store l'.store)
    (fewer : ∀ h ∈ l'.heralds, h ∈ l.heralds) : l'.Told :=
  told.step tracked fun h said slot living => .inl ⟨fewer h said, inherits _ slot living⟩

section Acts

variable {d d' : Desk} {jobs : List Job} {sim : σ}

theorem mem_heralds_desk {h : Herald} : h ∈ (ofDesk d jobs sim).heralds ↔
    (∃ r ∈ d.petitions, r.herald = h) ∨ h ∈ jobs.map (·.herald) ∨
      h ∈ d.commands.letters.toList.filterMap (·.herald?) := by
  simp only [heralds, ofDesk, Desk.petitions, List.mem_append, List.mem_map, or_assoc]

/-- A planner that says nothing of builds under way says what it said, if it says the same of every request. -/
private theorem Told.petitions (told : (ofDesk d jobs sim).Told) (tracked : (ofDesk d' jobs sim).Tracked)
    (inherits : Inherits d.store d'.store)
    (commands : d'.commands.letters.toList.filterMap (·.herald?) = d.commands.letters.toList.filterMap (·.herald?))
    (kept : ∀ r ∈ d'.petitions, (∃ old ∈ d.petitions, old.herald = r.herald) ∨
      ∀ slot, d'.store.live? r.index = some slot → r.initial = slot.isBare) : (ofDesk d' jobs sim).Told := by
  refine told.step tracked fun h said slot living => ?_
  have keeps := inherits _ slot living
  rcases mem_heralds_desk.mp said with ⟨r, listed, rfl⟩ | rest
  · rcases kept r listed with old | true
    · exact .inl ⟨mem_heralds_desk.mpr (.inl old), keeps⟩
    · exact .inr (true slot living)
  · rw [commands] at rest
    exact .inl ⟨mem_heralds_desk.mpr (.inr rest), keeps⟩

private theorem petitions_abandoned (given : List Request) (d : Desk) :
    (given.foldl Desk.abandonOne d).petitions = d.petitions := by
  induction given generalizing d with
  | nil => rfl
  | cons r given ih => exact ih (d.abandonOne r)

private theorem petitions_dispatched (given : List Request) (d : Desk) :
    ∀ r ∈ (given.foldl Desk.dispatchOne d).petitions, r ∈ d.petitions ∨ r ∈ given := by
  induction given generalizing d with
  | nil => exact fun r listed => .inl listed
  | cons next given ih =>
    intro r listed
    rcases ih (d.dispatchOne next) r listed with before | later
    · have posted : r ∈ d.petitions ∨ r = next := by
        unfold Desk.dispatchOne at before
        split at before
        · rename_i ready
          simp only [Desk.petitions, Mailbox.post_letters ready] at before ⊢
          simpa [or_assoc] using before
        · exact .inl before
      rcases posted with old | rfl
      · exact .inl old
      · exact .inr List.mem_cons_self
    · exact .inr (List.mem_cons_of_mem _ later)

private theorem claim_petitions (tracked : (ofDesk d jobs sim).Tracked) {key : Key} {index : Nat} (priority : Priority)
    (found : d.store.indexOf key = some index) : ∀ r ∈ (d.claim key index priority).1.petitions, r ∈ d.petitions ∨
      ∀ slot, (d.claim key index priority).1.store.live? r.index = some slot → r.initial = slot.isBare := by
  unfold Desk.claim
  rcases schedule_cases d.store index with ⟨slot, living, accepts, step⟩ | step
  · obtain ⟨tenant, present, owner⟩ := tracked.carried.sound.lives found
    rw [show d.store.live? index = some tenant from present] at living
    cases living
    have idle : slot.stage ≠ .scheduled := fun same => by rw [same] at accepts; cases accepts
    have absent := tracked.unfiled present owner idle
    rw [step]
    intro r listed
    rcases List.mem_append.mp listed with pending | queued
    · rcases List.mem_cons.mp ((Backlog.record_new (by exact absent)).mem_iff.mp pending) with rfl | old
      · exact .inr fun slot living => isBare_live living
      · exact .inl (List.mem_append_left _ old)
    · exact .inl (List.mem_append_right _ queued)
  · rw [step]
    exact fun r listed => .inl listed

private theorem clerk_petitions (tracked : (ofDesk d jobs sim).Tracked) (act : Desk.Clerk d d') :
    ∀ r ∈ d'.petitions, (∃ old ∈ d.petitions, old.herald = r.herald) ∨
      ∀ slot, d'.store.live? r.index = some slot → r.initial = slot.isBare := by
  have same {d' : Desk} (fewer : ∀ r ∈ d'.petitions, r ∈ d.petitions) (r : Request) (listed : r ∈ d'.petitions) :
      (∃ old ∈ d.petitions, old.herald = r.herald) ∨
        ∀ slot, d'.store.live? r.index = some slot → r.initial = slot.isBare := .inl ⟨r, fewer r listed, rfl⟩
  cases act with
  | collect => exact same fun _ listed => listed
  | note noted =>
    refine same fun r listed => ?_
    rwa [Desk.petitions, noted.pending, noted.requests] at listed
  | raise key priority =>
    rcases Backlog.raise_cases d.planner.pending key priority with ⟨low, filed, step⟩ | step
    · rw [step]
      intro r listed
      have before := (Backlog.toList_erase filed).symm.subset
      rcases List.mem_append.mp listed with pending | queued
      · refine .inl ?_
        rcases List.mem_cons.mp ((Backlog.toList_insert _ _ _).mem_iff.mp pending) with rfl | old
        · exact ⟨low, List.mem_append_left _ (before List.mem_cons_self), rfl⟩
        · exact ⟨r, List.mem_append_left _ (before (List.mem_cons_of_mem _ old)), rfl⟩
      · exact .inl ⟨r, List.mem_append_right _ queued, rfl⟩
    · rw [step]
      exact same fun _ listed => listed
  | claim priority found =>
    intro r listed
    exact (claim_petitions tracked priority found r listed).imp_left fun old => ⟨r, old, rfl⟩
  | dropPending key =>
    refine same fun r listed => ?_
    unfold Desk.dropPending at listed
    split at listed
    · exact listed
    · rename_i pending dropped removed
      obtain ⟨rfl, filed⟩ := Prod.mk.inj removed
      refine (List.mem_append.mp listed).elim (fun left => List.mem_append_left _ ?_) (List.mem_append_right _)
      exact (Backlog.toList_erase filed).symm.subset (List.mem_cons_of_mem _ left)
  | dropUnneeded =>
    refine same fun r listed => ?_
    unfold Desk.dropUnneeded at listed
    dsimp only at listed
    rw [petitions_abandoned] at listed
    refine (List.mem_append.mp listed).elim (fun left => List.mem_append_left _ ?_) (List.mem_append_right _)
    exact (Backlog.extract_perm _ _).symm.subset (List.mem_append_right _ left)
  | dispatch =>
    refine same fun r listed => ?_
    obtain ⟨_, parts⟩ := Backlog.takeRanked_perm tracked.keyed (d.planner.pacing.snapshotsPerPass - d.requests.size)
    rcases petitions_dispatched _ _ r listed with stays | taken
    · refine (List.mem_append.mp stays).elim (fun left => List.mem_append_left _ ?_) (List.mem_append_right _)
      exact parts.symm.subset (List.mem_append_right _ left)
    · exact List.mem_append_left _ (parts.symm.subset (List.mem_append_left _ taken))

theorem Told.count (told : (ofDesk d jobs sim).Told) (act : Desk.Count d d') : (ofDesk d' jobs sim).Told := by
  have tracked := told.tracked.count act
  have sound : d.store.Sound := told.tracked.carried.sound
  cases act with
  | clerk act =>
    refine told.petitions tracked (inherits_outline act.framed.outline) ?_ (clerk_petitions told.tracked act)
    rw [act.framed.commands]
  | enroll => exact told.inherits tracked (.refl _) fun _ said => said
  | enter added =>
    rcases added_cases sound added with rfl | ⟨admitted, _⟩
    · exact told
    · refine told.step tracked fun h said slot living => .inl ⟨said, ?_⟩
      obtain ⟨old, found, _⟩ := told.tracked.herald said
      -- The newcomer's slot was vacant, so nothing was said of it.
      have elsewhere := admitted.sees h.claim.index
      split at elsewhere
      · rename_i here
        rw [← here, show (ofDesk d jobs sim).store.live? _ = none from admitted.vacant] at found
        cases found
      · exact ⟨slot, elsewhere.symm.trans living, rfl, rfl, rfl⟩
  | retain index => exact told.inherits tracked (inherits_retain _ index) fun _ said => said
  | release index => exact told.inherits tracked (inherits_release _ index) fun _ said => said

private theorem heralds_post {commands : Mailbox Command} (ready : commands.isOpen = true) {c : Command}
    (plain : c.herald? = none) :
    (commands.post c).letters.toList.filterMap (·.herald?) = commands.letters.toList.filterMap (·.herald?) := by
  rw [Mailbox.post_letters ready, List.filterMap_append, List.filterMap_cons_none plain]
  exact List.append_nil _

theorem Told.act (told : (ofDesk d jobs sim).Told) (act : Desk.Act d d') (ready : d.commands.isOpen = true) :
    (ofDesk d' jobs sim).Told := by
  have tracked := told.tracked.act act ready
  have sound : d.store.Sound := told.tracked.carried.sound
  have same {d' : Desk} (rs : d'.petitions = d.petitions) : ∀ r ∈ d'.petitions, (∃ old ∈ d.petitions, old.herald = r.herald) ∨
      ∀ slot, d'.store.live? r.index = some slot → r.initial = slot.isBare := fun r listed => .inl ⟨r, rs ▸ listed, rfl⟩
  cases act with
  | count act => exact told.count act
  | light => exact told.inherits tracked (.refl _) fun _ said => said
  | switch enabled key =>
    rcases Desk.switch_cases sound enabled key with ⟨i, slot, report, found, _, step, _⟩ | ⟨_, step⟩
    · rw [step] at tracked ⊢
      exact told.petitions tracked (inherits_put found rfl rfl rfl rfl) (heralds_post ready rfl) (same rfl)
    · rwa [step]
  | evict found unreferenced retired =>
    obtain ⟨s', slot, report, departed, _, _, _, step, _⟩ := Desk.evict_cases sound found retired
    rw [step] at tracked ⊢
    refine told.petitions tracked departed.inherits ?_ (same rfl)
    cases shape : slot.shape with
    | none => rfl
    | some shape => exact heralds_post ready rfl

end Acts

section Steps

private theorem mem_heralds {h : Herald} : h ∈ l.heralds ↔ (∃ r ∈ l.planner.pending.toList, r.herald = h) ∨
    (∃ r ∈ l.waiting, r.herald = h) ∨ (∃ job ∈ l.jobs, job.herald = h) ∨ ∃ c ∈ l.commands, c.herald? = some h := by
  simp only [heralds, List.mem_append, List.mem_map, List.mem_filterMap, or_and_right, exists_or, or_assoc]

/-- Less is said while requests, jobs and commands go. -/
private theorem heralds_fewer {waiting : List Request} {jobs : List Job} {commands : List Command} {store : Store}
    {sim : σ} (requests : waiting ⊆ l.waiting) (tasks : jobs ⊆ l.jobs) (orders : commands ⊆ l.commands) :
    ∀ h ∈ heralds { l with waiting, jobs, commands, store, sim }, h ∈ l.heralds := by
  intro h said
  rw [mem_heralds] at said ⊢
  rcases said with pending | ⟨r, listed, same⟩ | ⟨job, listed, same⟩ | ⟨c, listed, same⟩
  · exact .inl pending
  · exact .inr (.inl ⟨r, requests listed, same⟩)
  · exact .inr (.inr (.inl ⟨job, tasks listed, same⟩))
  · exact .inr (.inr (.inr ⟨c, orders listed, same⟩))

private theorem later {α : Type} {x : α} {xs ys : List α} (taken : ys = x :: xs) : xs ⊆ ys :=
  taken ▸ List.subset_cons_self x xs

/-- Nothing is said of the cell of a build that goes in, once the build is there. -/
theorem Told.install [Simulation σ] (told : l.Told) {d : Delivery} {commands : List Command} {slot : Slot}
    (taken : l.commands = .install d :: commands) (found : l.store.live? d.index = some slot)
    (stage : slot.stage = .generating) (current : slot.claim d.index = d.claim) :
    Told { l with
      commands
      store := l.store.put d.index
        { slot with shape := (place l.sim d slot.active).1, placeholder := d.placeholder, stage := .ready }
      sim := slot.shape.elim (place l.sim d slot.active).2
        (Simulation.removeShape (place l.sim d slot.active).2) } := by
  have tracked := told.tracked.work (.install taken found stage current)
  refine told.step tracked fun h said other living => .inl ⟨heralds_fewer (.refl _) (.refl _) (later taken) h said, ?_⟩
  -- What is said is said of a claim that is out, and the claim of this cell is not out any more.
  obtain ⟨busy, there, flying, _⟩ := tracked.herald said
  rw [living] at there
  cases there
  dsimp only at living
  rw [live?_put found (show ({ slot with
    shape := (place l.sim d slot.active).1, placeholder := d.placeholder, stage := .ready } : Slot).live = slot.live from
    rfl)] at living
  split at living
  · cases living
    cases flying
  · exact ⟨other, living, rfl, rfl, rfl⟩

theorem Told.work [Simulation σ] (told : l.Told) (work : Work l l') : l'.Told := by
  have tracked := told.tracked.work work
  cases work with
  | skip taken => exact told.inherits tracked (.refl _) (heralds_fewer (later taken) (.refl _) (.refl _))
  | giveUp taken =>
    refine told.inherits tracked (inherits_outline (outline_abandon _ _ _)) ?_
    exact heralds_fewer (later taken) (.refl _) (.refl _)
  | accept taken added =>
    refine told.inherits tracked (.refl _) fun h said => ?_
    rw [mem_heralds] at said ⊢
    rcases said with pending | ⟨r, listed, same⟩ | ⟨job, listed, same⟩ | commands
    · exact .inl pending
    · exact .inr (.inl ⟨r, later taken listed, same⟩)
    · rcases List.mem_cons.mp (added.mem_iff.mp listed) with rfl | old
      · exact .inr (.inl ⟨_, taken ▸ List.mem_cons_self, same⟩)
      · exact .inr (.inr (.inl ⟨job, old, same⟩))
    · exact .inr (.inr (.inr commands))
  | drop taken =>
    refine told.inherits tracked (.refl _) (heralds_fewer (.refl _) ?_ (.refl _))
    exact fun job listed => taken.mem_iff.mpr (List.mem_cons_of_mem _ listed)
  | build taken found stage current shape placeholder =>
    refine told.inherits tracked (inherits_put found rfl rfl rfl rfl) fun h said => ?_
    rw [mem_heralds] at said ⊢
    rcases said with pending | waiting | ⟨job, listed, same⟩ | ⟨c, listed, same⟩
    · exact .inl pending
    · exact .inr (.inl waiting)
    · exact .inr (.inr (.inl ⟨job, taken.mem_iff.mpr (List.mem_cons_of_mem _ listed), same⟩))
    · rcases List.mem_append.mp listed with old | fresh
      · exact .inr (.inr (.inr ⟨c, old, same⟩))
      · obtain rfl := List.mem_singleton.mp fresh
        exact .inr (.inr (.inl ⟨_, taken.mem_iff.mpr List.mem_cons_self, Option.some.inj same⟩))
  | refuse taken => exact told.inherits tracked (.refl _) (heralds_fewer (.refl _) (.refl _) (later taken))
  | install taken found stage current => exact told.install taken found stage current
  | remove taken => exact told.inherits tracked (.refl _) (heralds_fewer (.refl _) (.refl _) (later taken))
  | toggle taken => exact told.inherits tracked (.refl _) (heralds_fewer (.refl _) (.refl _) (later taken))
  | ignore taken => exact told.inherits tracked (.refl _) (heralds_fewer (.refl _) (.refl _) (later taken))

end Steps

end Ledger

end TerrainStream
