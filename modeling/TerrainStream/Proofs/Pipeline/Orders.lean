import Mathlib.Logic.Equiv.Basic
import TerrainStream.Proofs.Pipeline.Completion

/-! The order in which builds complete makes no difference, but for the names that the simulation gives to shapes. -/

namespace TerrainStream

open Cell Store Shape Collision Build Residency Physics World Accountable

variable {σ ω : Type}

/-- A store whose shapes go by other names. -/
def Store.renamed (s : Store) (rename : Handle → Handle) : Store :=
  { s with slots := s.slots.map fun slot => { slot with shape := slot.shape.map rename } }

/-- An entry for a shape that goes by another name. -/
def Collision.Holding.renamed (entry : Holding) (rename : Handle → Handle) : Holding :=
  { entry with handle := rename entry.handle }

theorem Store.shape_renamed (s : Store) (rename : Handle → Handle) (i : Nat) :
    (s.renamed rename).shape i = (s.shape i).map rename := by
  have reached : (s.renamed rename).reaches i = s.reaches i := rfl
  have rows : (s.renamed rename).slots[i]? =
      s.slots[i]?.map fun slot => { slot with shape := slot.shape.map rename } := Array.getElem?_map
  rw [Store.shape, live?, slot?, reached, rows, Store.shape, live?, slot?]
  cases s.reaches i with
  | false => rfl
  | true =>
    cases s.slots[i]? with
    | none => rfl
    | some slot => cases alive : slot.live <;> simp [Option.filter, alive]

theorem Store.renamed_symm (s : Store) (rename : Equiv.Perm Handle) : (s.renamed rename).renamed rename.symm = s := by
  have same (shape : Option Handle) : (shape.map rename).map rename.symm = shape := by cases shape <;> simp
  simp [Store.renamed, Function.comp_def, same]

theorem Collision.Holding.renamed_symm (entry : Holding) (rename : Equiv.Perm Handle) :
    (entry.renamed rename).renamed rename.symm = entry := by
  simp [renamed]

/-- One name can be traded for another one, with all names kept that have nothing to do with the two. -/
theorem exists_trade (rename : Equiv.Perm Handle) (a b : Handle) :
    ∃ traded : Equiv.Perm Handle, traded a = b ∧ ∀ c, c ≠ a → rename c ≠ b → traded c = rename c := by
  refine ⟨rename.trans (Equiv.swap (rename a) b), ?_, fun c first second => ?_⟩
  · rw [Equiv.trans_apply, Equiv.swap_apply_left]
  · rw [Equiv.trans_apply, Equiv.swap_apply_of_ne_of_ne (fun same => first (rename.injective same)) second]

/-- The new names that two runs give to the same things can be traded for one another, with all old names kept. -/
theorem exists_renaming {ι : Type} (old : Handle → Prop) (f g : ι → Option Handle) (xs : List ι)
    (both : ∀ x ∈ xs, (g x).isNone = (f x).isNone)
    (first : ∀ x ∈ xs, ∀ handle, f x = some handle → ¬ old handle ∧ ∀ y ∈ xs, f y = some handle → x = y)
    (second : ∀ x ∈ xs, ∀ handle, g x = some handle → ¬ old handle ∧ ∀ y ∈ xs, g y = some handle → x = y) :
    ∃ rename : Equiv.Perm Handle, (∀ x ∈ xs, g x = (f x).map rename) ∧
      ∀ handle, old handle → rename handle = handle := by
  induction xs with
  | nil => exact ⟨Equiv.refl _, by simp, fun _ _ => rfl⟩
  | cons x xs ih =>
    have later {y : ι} (listed : y ∈ xs) : y ∈ x :: xs := List.mem_cons_of_mem x listed
    obtain ⟨rename, traded, kept⟩ := ih (fun y listed => both y (later listed))
      (fun y listed handle named => (first y (later listed) handle named).imp_right
        fun alone z there => alone z (later there))
      (fun y listed handle named => (second y (later listed) handle named).imp_right
        fun alone z there => alone z (later there))
    have paired := both x List.mem_cons_self
    cases named : f x with
    | none =>
      rw [named] at paired
      refine ⟨rename, fun y listed => ?_, kept⟩
      rcases List.mem_cons.mp listed with rfl | listed
      · rw [named, Option.isNone_iff_eq_none.mp paired]
        rfl
      · exact traded y listed
    | some a =>
      rw [named] at paired
      obtain ⟨b, other⟩ : ∃ b, g x = some b := Option.isSome_iff_exists.mp (by simpa using paired)
      obtain ⟨new, alone⟩ := first x List.mem_cons_self a named
      obtain ⟨new', alone'⟩ := second x List.mem_cons_self b other
      obtain ⟨next, image, still⟩ := exists_trade rename a b
      have here : g x = (f x).map next := by rw [named, other, Option.map_some, image]
      refine ⟨next, fun y listed => ?_, fun handle known => ?_⟩
      · by_cases apart : x = y
        · exact apart ▸ here
        · have there : y ∈ xs := (List.mem_cons.mp listed).resolve_left fun same => apart same.symm
          have before := traded y there
          cases owns : f y with
          | none => rw [before, owns]; rfl
          | some c =>
            -- No two things share a name, so the trade leaves the name of `y` alone.
            rw [owns, Option.map_some] at before
            have fromFirst : c ≠ a := fun same => apart (alone y listed (same ▸ owns))
            have fromSecond : rename c ≠ b := fun same => apart (alone' y listed (same ▸ before))
            rw [before, Option.map_some, still c fromFirst fromSecond]
      · have fromFirst : handle ≠ a := fun same => new (same ▸ known)
        have fromSecond : rename handle ≠ b := fun same => new' (same ▸ (kept handle known).symm ▸ known)
        rw [still handle fromFirst fromSecond, kept handle known]

namespace Ledger.Midway

variable [Simulation σ] [Accountable σ] {builder : Builder} {origin l l' : Ledger (Archive σ)} {landed landed' : List Job}

/-- When all builds have landed, the names of their shapes are new, and each is the name of one. -/
theorem named (midway : Midway builder origin l landed []) {job : Job} (listed : job ∈ landed) {handle : Handle}
    (named : l.store.shape job.index = some handle) :
    ¬ issued origin.sim handle ∧ ∀ other ∈ landed, l.store.shape other.index = some handle → job = other := by
  obtain ⟨slot, shape, _, now, _, held⟩ := midway.done job listed
  rw [Store.shape, now] at named
  refine ⟨(held handle named).1, fun other there shared => ?_⟩
  obtain ⟨_, _, _, now', _, _⟩ := midway.done other there
  rw [Store.shape, now'] at shared
  have apart : (landed.map (·.index)).Nodup := by simpa using midway.apart
  exact List.inj_on_of_nodup_map apart listed there
    (shapes_apart (List.nodup_append.mp midway.owned.once).1 now now' named shared)

/-- What a cell keeps that no build has landed for keeps its name. -/
private theorem unnamed (owned : origin.Owned) {rename : Handle → Handle}
    (kept : ∀ handle, issued origin.sim handle → rename handle = handle) {i : Nat} {slot : Slot}
    (stored : origin.store.slots[i]? = some slot) : slot.shape.map rename = slot.shape := by
  cases owns : slot.shape with
  | none => rfl
  | some handle =>
    cases alive : slot.live with
    | false => rw [owned.sound.bare i slot stored alive] at owns; cases owns
    | true =>
      have living := owned.sound.roomy.live?_eq_some.mpr ⟨stored, alive⟩
      rw [Option.map_some, kept handle (handles_issued owned.proper (owned.has living owns))]

/-- When the same builds have landed, the stores differ in the names of new shapes. -/
theorem stores (owned : origin.Owned) (one : Midway builder origin l landed [])
    (two : Midway builder origin l' landed' []) (same : landed.Perm landed') :
    ∃ rename : Equiv.Perm Handle, (∀ handle, issued origin.sim handle → rename handle = handle) ∧
      l'.store = l.store.renamed rename := by
  obtain ⟨rename, traded, kept⟩ := exists_renaming (issued origin.sim) (fun job => l.store.shape job.index)
    (fun job => l'.store.shape job.index) landed
    (fun job listed => by
      obtain ⟨slot, shape, _, now, bare, _⟩ := one.done job listed
      obtain ⟨_, shape', _, now', bare', _⟩ := two.done job (same.mem_iff.mp listed)
      rw [Store.shape, now', Store.shape, now]
      exact bare'.trans bare.symm)
    (fun job listed handle => one.named listed)
    (fun job listed handle named => (two.named (same.mem_iff.mp listed) named).imp_right
      fun alone other there => alone other (same.mem_iff.mp there))
  refine ⟨rename, kept, ?_⟩
  have slots : l'.store.slots = (l.store.renamed rename).slots := by
    refine Array.ext_getElem? fun i => ?_
    rw [Store.renamed, Array.getElem?_map]
    by_cases here : ∃ job ∈ landed, job.index = i
    · obtain ⟨job, listed, rfl⟩ := here
      have traded := traded job listed
      obtain ⟨slot, shape, before, now, _, _⟩ := one.done job listed
      obtain ⟨_, shape', before', now', _, _⟩ := two.done job (same.mem_iff.mp listed)
      cases before.symm.trans before'
      rw [Store.shape, now', Store.shape, now] at traded
      have traded : shape' = shape.map rename := traded
      rw [(live?_stored now).1, (live?_stored now').1, Option.map_some, traded]
    · have elsewhere (job : Job) (listed : job ∈ landed ++ []) : job.index ≠ i := by
        rw [List.append_nil] at listed
        exact fun clash => here ⟨job, listed, clash⟩
      rw [one.untouched i elsewhere, two.untouched i fun job listed => elsewhere job ((same.append_right _).mem_iff.mpr listed)]
      cases stored : origin.store.slots[i]? with
      | none => rfl
      | some slot => rw [Option.map_some, unnamed owned kept stored]
  have rest : { l'.store with slots := #[] } = { l.store with slots := #[] } := two.rest.trans one.rest.symm
  calc l'.store
      = { l.store with slots := l'.store.slots } := congrArg (fun s : Store => { s with slots := l'.store.slots }) rest
    _ = l.store.renamed rename := by rw [slots]; rfl

/-- What the simulation holds for a cell after one run it holds for the cell after the other, under the new name. -/
private theorem holding (owned : origin.Owned) (one : Midway builder origin l landed [])
    (two : Midway builder origin l' landed' []) (same : landed.Perm landed') {rename : Equiv.Perm Handle}
    (kept : ∀ handle, issued origin.sim handle → rename handle = handle) (stores : l'.store = l.store.renamed rename)
    {entry : Holding} (member : entry ∈ holdings l.sim) :
    entry.renamed rename ∈ holdings l'.sim ∧ l'.sim.given (rename entry.handle) = l.sim.given entry.handle := by
  have owner := one.owned.held.mem_iff.mp (mem_handles.mpr ⟨entry, member, rfl⟩)
  rw [Ledger.shapes, one.queue, List.map_nil, List.filterMap_nil, List.append_nil] at owner
  obtain ⟨tenant, listed, owns⟩ := List.mem_filterMap.mp owner
  obtain ⟨i, living⟩ := mem_tenants.mp listed
  by_cases here : ∃ job ∈ landed, job.index = i
  · obtain ⟨job, listed, rfl⟩ := here
    obtain ⟨slot, shape, before, now, _, held⟩ := one.done job listed
    obtain ⟨_, shape', before', now', _, held'⟩ := two.done job (same.mem_iff.mp listed)
    cases before.symm.trans before'
    cases now.symm.trans living
    have owns : shape = some entry.handle := owns
    have traded := l.store.shape_renamed rename job.index
    rw [← stores, Store.shape, now', Store.shape, now] at traded
    have traded : shape' = shape.map rename := traded
    rw [owns] at traded
    obtain ⟨_, given, there⟩ := held entry.handle owns
    obtain ⟨_, given', there'⟩ := held' (rename entry.handle) traded
    have alone : entry = ⟨entry.handle, slot.key, slot.active⟩ :=
      List.inj_on_of_nodup_map one.owned.distinct member there rfl
    have renamed : entry.renamed rename = ⟨rename entry.handle, slot.key, slot.active⟩ :=
      congrArg (·.renamed rename) alone
    exact ⟨renamed ▸ there', given'.trans given.symm⟩
  · have elsewhere (job : Job) (listed : job ∈ landed) : job.index ≠ i := fun clash => here ⟨job, listed, clash⟩
    have before : origin.store.live? i = some tenant :=
      (one.live_untouched (fun job listed => elsewhere job (by simpa using listed))).symm.trans living
    obtain ⟨given, entries⟩ := one.old i tenant entry.handle elsewhere before owns
    obtain ⟨given', entries'⟩ := two.old i tenant entry.handle
      (fun job listed => elsewhere job (same.mem_iff.mpr listed)) before owns
    have still : rename entry.handle = entry.handle :=
      kept _ (handles_issued owned.proper (owned.has before owns))
    have renamed : entry.renamed rename = entry := by rw [Holding.renamed, still]
    rw [renamed, still]
    exact ⟨(entries' entry rfl).mpr ((entries entry rfl).mp member), given'.trans given.symm⟩

/-- When the same builds have landed, the simulations hold the same, but for the names of new shapes. -/
theorem simulations (owned : origin.Owned) (one : Midway builder origin l landed [])
    (two : Midway builder origin l' landed' []) (same : landed.Perm landed') {rename : Equiv.Perm Handle}
    (kept : ∀ handle, issued origin.sim handle → rename handle = handle) (stores : l'.store = l.store.renamed rename) :
    (holdings l'.sim).Perm ((holdings l.sim).map (·.renamed rename)) ∧
      ∀ handle ∈ handles l.sim, l'.sim.given (rename handle) = l.sim.given handle := by
  have back : l.store = l'.store.renamed rename.symm := by rw [stores, Store.renamed_symm]
  have keptBack (handle : Handle) (given : issued origin.sim handle) : rename.symm handle = handle :=
    rename.symm_apply_eq.mpr (kept handle given).symm
  have injective : Function.Injective fun entry : Holding => entry.renamed rename :=
    Function.LeftInverse.injective (g := (·.renamed rename.symm)) fun entry => entry.renamed_symm rename
  refine ⟨(List.perm_ext_iff_of_nodup (.of_map _ two.owned.distinct)
    ((List.Nodup.of_map _ one.owned.distinct).map injective)).mpr fun entry => ?_, ?_⟩
  · rw [List.mem_map]
    constructor
    · intro member
      exact ⟨_, (holding owned two one same.symm keptBack back member).1, entry.renamed_symm rename.symm⟩
    · rintro ⟨old, member, rfl⟩
      exact (holding owned one two same kept stores member).1
  · intro handle held
    obtain ⟨entry, member, rfl⟩ := mem_handles.mp held
    exact (holding owned one two same kept stores member).2

end Ledger.Midway

/-- What happens while jobs complete: one is submitted to the builder, or a part of the queue is drained. -/
inductive Chore
  | submit (job : Job)
  | drain (most : Nat)

/-- The jobs that are submitted in the course of some chores. -/
def Chore.jobs (chores : List Chore) : List Job :=
  chores.filterMap fun
    | .submit job => some job
    | .drain _ => none

namespace Pipeline

open Ledger

variable [Simulation σ]

def chore (p : Pipeline σ ω) : Chore → Pipeline σ ω
  | .submit job => p.runJob job
  | .drain most => (p.drain most).1

/-- The pipeline after some chores and a last drain of all that is queued. -/
def complete (p : Pipeline σ ω) (chores : List Chore) : Pipeline σ ω :=
  let p := chores.foldl chore p
  (p.drain p.commands.size).1

/-- What each job comes to that is submitted in the course of some chores. -/
def verdicts (p : Pipeline σ ω) : List Chore → List (Job × Outcome)
  | [] => []
  | .submit job :: rest => (job, p.verdict job) :: verdicts (p.runJob job) rest
  | .drain most :: rest => verdicts (p.drain most).1 rest

section Through

variable {τ : Type} [Simulation τ] {f : σ → τ} (mirrors : Mirrors f)

include mirrors

theorem chores_through (p : Pipeline σ ω) (chores : List Chore) :
    chores.foldl chore (p.through f) = (chores.foldl chore p).through f :=
  List.foldl_hom _ fun p task => by
    cases task with
    | submit job => rfl
    | drain most => exact congrArg Prod.fst (p.drain_through mirrors most)

theorem complete_through (p : Pipeline σ ω) (chores : List Chore) :
    (p.through f).complete chores = (p.complete chores).through f := by
  rw [complete, chores_through mirrors]
  exact congrArg Prod.fst ((chores.foldl chore p).drain_through mirrors _)

theorem verdicts_through (p : Pipeline σ ω) (chores : List Chore) :
    (p.through f).verdicts chores = p.verdicts chores := by
  induction chores generalizing p with
  | nil => rfl
  | cons task rest ih =>
    cases task with
    | submit job => exact congrArg ((job, p.verdict job) :: ·) (ih (p.runJob job))
    | drain most => rw [verdicts, drain_through mirrors, ih, verdicts]

end Through

variable [Accountable σ]

/-- A pipeline after some chores: which builds have landed and which are queued. -/
structure Underway (origin p : Pipeline (Archive σ) ω) (planner : Planner) (landed queued : List Job) : Prop where
  intact : p.Intact
  builder : p.builder = origin.builder
  midway : Midway origin.builder (origin.ledger planner [] []) (p.ledger planner [] []) landed queued
  drained : p.drained = origin.drained + (landed.map (·.credit origin.builder origin.store)).sum

variable {origin p : Pipeline (Archive σ) ω} {planner : Planner} {landed queued : List Job}

/-- A job that has not been run before comes to what the origin makes of it. If it was due then, its build is queued. -/
theorem Underway.runJob (underway : origin.Underway p planner landed queued) (pure : origin.builder.Pure) {job : Job}
    (new : ∀ other ∈ landed ++ queued, (other.index, other.version) ≠ (job.index, job.version)) :
    p.verdict job = job.fate origin.builder origin.store ∧
      origin.Underway (p.runJob job) planner landed (queued ++ [job].filter (·.isDue origin.store)) := by
  have ⟨intact, builder, midway, drained⟩ := underway
  have kept := runJob_intact intact job
  have made := job.made_pure pure p.scratch
  have due : job.isDue p.store = job.isDue origin.store := midway.isDue_eq new
  rcases runJob_cases p intact.interludes job with
    ⟨spent, outcomes, same⟩ | ⟨slot, shape, placeholder, scratch, outcomes, found, stage, current, built, same⟩
  · have idle : job.isDue origin.store = false := by rw [← due, Job.isDue, spent]; rfl
    rw [verdict_spent p spent, Job.fate, idle, List.filter_cons_of_neg (by simp [idle]), List.filter_nil,
      List.append_nil]
    rw [same] at kept ⊢
    exact ⟨rfl, kept, builder, midway, drained⟩
  · have borne : p.store.bears .scheduled job.claim ≠ 0 := by
      have one := bears_one found stage
      rw [current] at one
      simp [one]
    have waits : job.isDue origin.store = true := by rw [← due]; exact decide_eq_true borne
    rw [builder] at built
    rw [built] at made
    obtain rfl : shape = (job.made origin.builder).1 := congrArg Prod.fst made
    obtain rfl : placeholder = (job.made origin.builder).2 := congrArg Prod.snd made
    rw [verdict_current p intact.interludes borne, builder, built, Job.fate, waits,
      List.filter_cons_of_pos (by simp [waits]), List.filter_nil]
    rw [same] at kept ⊢
    refine ⟨rfl, kept, builder, ?_, drained⟩
    simp only [ledger, Mailbox.post_letters intact.commands]
    exact midway.build found stage current

/-- Draining lands builds in the order in which they are queued. -/
theorem Underway.drain (underway : origin.Underway p planner landed queued) (most : Nat) :
    ∃ landed' queued', origin.Underway (p.drain most).1 planner landed' queued' ∧
      landed' ++ queued' = landed ++ queued := by
  have ⟨intact, builder, midway, drained⟩ := underway
  obtain ⟨kept, _, tally, total, landed', queued', midway', listed, counted⟩ := drain_counts
    (K := fun _ tally l => ∃ landed' queued', Midway origin.builder (origin.ledger planner [] []) l landed' queued' ∧
      landed' ++ queued' = landed ++ queued ∧
      p.drained + tally = origin.drained + (landed'.map (·.credit origin.builder origin.store)).sum)
    (fun l c taken commands tally next ⟨landed', queued', midway, listed, counted⟩ => by
      obtain ⟨job, queued', rfl⟩ : ∃ job rest, queued' = job :: rest := by
        cases queued' with
        | nil => exact absurd (next.symm.trans midway.queue) (List.cons_ne_nil _ _)
        | cons job rest => exact ⟨job, rest, rfl⟩
      obtain rfl : c = .install (job.delivery origin.builder) := (List.cons.inj (next.symm.trans midway.queue)).1
      obtain ⟨sim, store, applied, after⟩ := midway.install next
      refine ⟨sim, store, _, applied, landed' ++ [job], queued', after, ?_, ?_⟩
      · rw [← listed, List.append_assoc, List.singleton_append]
      · rw [List.map_append, List.sum_append, List.map_singleton, List.sum_singleton, ← add_assoc, ← add_assoc, counted]
        rfl)
    intact planner most ⟨landed, queued, midway, rfl, (add_zero p.drained).trans drained⟩
  exact ⟨landed', queued', ⟨kept, builder, midway', total.trans counted⟩, listed⟩

/-- Once all that is queued has been drained, every build has landed. -/
theorem Underway.drain_all (underway : origin.Underway p planner landed queued) :
    origin.Underway (p.drain p.commands.size).1 planner (landed ++ queued) [] := by
  obtain ⟨landed', queued', next, listed⟩ := underway.drain p.commands.size
  have empty : (p.drain p.commands.size).1.commands.letters = #[] := p.commands.rest_all
  have queue : [] = queued'.map fun job => Command.install (job.delivery origin.builder) := by
    rw [← next.midway.queue, ledger, empty]
  obtain rfl : queued' = [] := List.map_eq_nil_iff.mp queue.symm
  rw [List.append_nil] at listed
  exact listed ▸ next

/-- After some chores the builds of the jobs that were due in the beginning have landed or are queued, in the order in
which the jobs were submitted. -/
theorem Underway.chores (pure : origin.builder.Pure) (earlier : List Job) (chores : List Chore)
    (once : ((earlier ++ Chore.jobs chores).map fun job => (job.index, job.version)).Nodup)
    (underway : origin.Underway p planner landed queued)
    (listed : landed ++ queued = earlier.filter (·.isDue origin.store)) :
    p.verdicts chores = (Chore.jobs chores).map (fun job => (job, job.fate origin.builder origin.store)) ∧
    ∃ landed' queued', origin.Underway (chores.foldl chore p) planner landed' queued' ∧
      landed' ++ queued' = (earlier ++ Chore.jobs chores).filter (·.isDue origin.store) := by
  induction chores generalizing p landed queued earlier with
  | nil =>
    refine ⟨rfl, landed, queued, underway, ?_⟩
    rw [listed, Chore.jobs, List.filterMap_nil, List.append_nil]
  | cons task rest ih =>
    cases task with
    | submit job =>
      have order : earlier ++ Chore.jobs (.submit job :: rest) = (earlier ++ [job]) ++ Chore.jobs rest :=
        List.append_cons earlier job (Chore.jobs rest)
      rw [order] at once
      have new (other : Job) (member : other ∈ landed ++ queued) :
          (other.index, other.version) ≠ (job.index, job.version) := by
        rw [listed] at member
        rw [List.map_append, List.map_append] at once
        have apart := (List.nodup_append.mp (List.nodup_append.mp once).1).2.2
        exact apart _ (List.mem_map_of_mem (List.mem_filter.mp member).1) _ (List.mem_singleton_self _)
      obtain ⟨verdict, next⟩ := underway.runJob pure new
      have still : landed ++ (queued ++ [job].filter (·.isDue origin.store)) =
          (earlier ++ [job]).filter (·.isDue origin.store) := by
        rw [← List.append_assoc, listed, List.filter_append]
      obtain ⟨verdicts, last⟩ := ih (earlier ++ [job]) once next still
      rw [order]
      refine ⟨?_, last⟩
      rw [Pipeline.verdicts, verdict, verdicts]
      rfl
    | drain most =>
      obtain ⟨landed', queued', next, same⟩ := underway.drain most
      exact ih earlier once next (same.trans listed)

/-- When chores are complete, the builds of exactly those jobs have landed that were due in the beginning. -/
theorem completed (intact : p.Intact) (owned : (p.ledger planner [] []).Owned) (pure : p.builder.Pure)
    (quiet : p.commands.letters = #[]) {chores : List Chore}
    (once : ((Chore.jobs chores).map fun job => (job.index, job.version)).Nodup) :
    p.verdicts chores = (Chore.jobs chores).map (fun job => (job, job.fate p.builder p.store)) ∧
      p.Underway (p.complete chores) planner ((Chore.jobs chores).filter (·.isDue p.store)) [] := by
  have empty : (p.ledger planner [] []).commands = [] := by rw [ledger, quiet]
  have start : p.Underway p planner [] [] := ⟨intact, rfl, .start owned empty, (add_zero p.drained).symm⟩
  obtain ⟨verdicts, landed, queued, next, listed⟩ := start.chores pure [] chores once rfl
  refine ⟨verdicts, ?_⟩
  rw [List.nil_append] at listed
  exact listed ▸ next.drain_all

variable [Supplier ω]

/-- After every run that leaves the queue empty, jobs come to the same in whatever order they complete and however
their builds are drained, as long as all of it is drained in the end and no two jobs are for one version of a slot. Some
may be late, for claims that were superseded or for cells that have gone. Each job has the same outcome, the tallies are
equal, and so are the stores and all that the simulation holds, but for the handles given out in the meantime. The
builder takes nothing over from the scratch memory, as is true of `merge`. -/
theorem completion_order_is_immaterial (grid : Grid) (initial most : Nat) (pacing : Pacing) (margins : Margins)
    (builder : Builder) (pure : builder.Pure) (world : ω) (sim : σ) (valid : proper sim) (bare : holdings sim = [])
    (moves : List (Move ω)) (first second : List Chore) :
    let p := (new grid (Store.ofLimits initial most) pacing margins builder world sim).run moves
    let q := (new grid (Store.ofLimits initial most) pacing margins builder world (Archive.mk sim fun _ => none)).run moves
    p.commands.letters = #[] → ((Chore.jobs first).map fun job => (job.index, job.version)).Nodup →
    (Chore.jobs first).Perm (Chore.jobs second) →
    (q.complete first).through Archive.sim = p.complete first ∧
    (q.complete second).through Archive.sim = p.complete second ∧
    (p.verdicts first).Perm (p.verdicts second) ∧
    (p.complete first).drained = (p.complete second).drained ∧
    (p.complete first).commands.letters = #[] ∧ (p.complete second).commands.letters = #[] ∧
    ∃ rename : Equiv.Perm Handle,
      (∀ handle, issued p.sim handle → rename handle = handle) ∧
      (p.complete second).store = (p.complete first).store.renamed rename ∧
      (holdings (p.complete second).sim).Perm ((holdings (p.complete first).sim).map (·.renamed rename)) ∧
      ∀ handle ∈ handles (p.complete first).sim,
        (q.complete second).sim.given (rename handle) = (q.complete first).sim.given handle := by
  intro p q quiet once same
  have seen : q.through Archive.sim = p := (run_through Archive.mirrors _ moves).symm
  have through (chores : List Chore) : (q.complete chores).through Archive.sim = p.complete chores := by
    rw [← seen, complete_through Archive.mirrors]
  have verdicts (chores : List Chore) : p.verdicts chores = q.verdicts chores := by
    rw [← seen, verdicts_through Archive.mirrors]
  have intact : q.Intact := run_intact (new_intact _ _ _ _ _ _ _) moves
  have kept : q.builder = builder := run_builder _ moves
  obtain ⟨planner, owned, _⟩ := run_owned grid initial most pacing margins builder world (Archive.mk sim fun _ => none)
    valid bare Ledger.lasting_proper valid moves
  have empty : q.commands.letters = #[] := by rw [← seen] at quiet; exact quiet
  obtain ⟨verdicts₁, one⟩ := completed intact owned (kept ▸ pure) empty once
  obtain ⟨verdicts₂, two⟩ := completed intact owned (kept ▸ pure) empty ((same.map _).nodup_iff.mp once)
  have landed := same.filter (·.isDue q.store)
  obtain ⟨rename, still, stores⟩ := one.midway.stores owned two.midway landed
  obtain ⟨held, given⟩ := one.midway.simulations owned two.midway landed still stores
  have emptied {chores : List Chore} : (q.complete chores).commands.letters = #[] :=
    (chores.foldl chore q).commands.rest_all
  simp only [← through]
  refine ⟨trivial, trivial, ?_, ?_, emptied, emptied, rename, ?_, stores, held, given⟩
  · rw [verdicts, verdicts, verdicts₁, verdicts₂]
    exact same.map _
  · have tallies := (landed.map (·.credit q.builder q.store)).sum_eq
    exact one.drained.trans ((congrArg _ tallies).trans two.drained.symm)
  · rw [← seen]
    exact still

/-- A cell is built anew while another is built for the first time, and a late job for the old claim comes in between.
The two new shapes swap names with the order. -/
theorem completion_order_is_immaterial_swapped :
    let p := (small Scene.empty).run [.send (.requested ⟨0⟩), .pass, .supply 1, .drain 1, .send (.requested ⟨1⟩), .pass,
      .send (.voxelEdited ⟨1, 0, 1⟩), .pass]
    let late : Job := ⟨⟨0⟩, 0, 1, true, .filled ⟨0, 0, 0⟩ 2 ⟨1⟩⟩
    let edited : Job := ⟨⟨0⟩, 0, 2, false, .filled ⟨0, 0, 0⟩ 2 ⟨1⟩⟩
    let fresh : Job := ⟨⟨1⟩, 1, 1, true, .filled ⟨1, 0, 0⟩ 2 ⟨2⟩⟩
    let first := [.submit edited, .submit fresh, .submit late, .drain 1]
    let second := [.submit late, .submit fresh, .drain 1, .submit edited]
    p.verdicts first = [(edited, .built), (fresh, .built), (late, .dropped)] ∧
    (p.verdicts first).Perm (p.verdicts second) ∧
    ∃ rename : Equiv.Perm Handle, rename ⟨2⟩ = ⟨3⟩ ∧ rename ⟨3⟩ = ⟨2⟩ ∧
      (p.complete second).store = (p.complete first).store.renamed rename ∧
      (holdings (p.complete second).sim).Perm ((holdings (p.complete first).sim).map (·.renamed rename)) := by
  intro p late edited fresh first second
  have quiet : p.commands.letters = #[] := by decide +kernel
  have apart : ((Chore.jobs first).map fun job => (job.index, job.version)).Nodup := by decide +kernel
  have same : (Chore.jobs first).Perm (Chore.jobs second) := by decide +kernel
  have verdicts : p.verdicts first = [(edited, .built), (fresh, .built), (late, .dropped)] := by decide +kernel
  have names : ((p.complete first).store.shape 0, (p.complete first).store.shape 1) = (some ⟨2⟩, some ⟨3⟩) := by
    decide +kernel
  have traded : ((p.complete second).store.shape 0, (p.complete second).store.shape 1) = (some ⟨3⟩, some ⟨2⟩) := by
    decide +kernel
  obtain ⟨_, _, alike, _, _, _, rename, _, stores, held, _⟩ := completion_order_is_immaterial (Grid.ofSize 2) 1 1
    Pacing.standard Margins.standard (merge (limitOf usualLimit)) (merge_pure _)
    (Ground.ofTerrain (.floor ⟨Grid.ofSize 2, 1, ∅⟩)) Scene.empty Scene.numbered_empty rfl _ first second quiet apart same
  have stores : (p.complete second).store = (p.complete first).store.renamed rename := stores
  have image (i : Nat) : (p.complete second).store.shape i = ((p.complete first).store.shape i).map rename := by
    rw [stores, shape_renamed]
  refine ⟨verdicts, alike, rename, Option.some.inj ?_, Option.some.inj ?_, stores, held⟩
  · have here := image 0
    rw [(Prod.mk.inj names).1, (Prod.mk.inj traded).1] at here
    exact here.symm
  · have here := image 1
    rw [(Prod.mk.inj names).2, (Prod.mk.inj traded).2] at here
    exact here.symm

end Pipeline

end TerrainStream
