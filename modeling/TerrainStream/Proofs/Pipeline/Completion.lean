import Mathlib.Algebra.BigOperators.Group.List.Basic
import TerrainStream.Proofs.Collision.Portions
import TerrainStream.Proofs.Pipeline.Album
import TerrainStream.Proofs.Shape.Partition

/-! Jobs that complete while nothing else happens. Between the builder and the simulation stands the queue: of the jobs
that had their claims when it all began, the builds of some have landed, and those of the others wait in line. -/

namespace TerrainStream

open Cell Store Shape Collision Build Residency Physics World Accountable

variable {σ ω : Type}

namespace Build.Job

/-- The shape that a builder makes for a job, and whether it is a coarse one. -/
def made (builder : Builder) (job : Job) : Shape × Bool := (buildOrCover builder job.snapshot Scratch.empty).2

/-- The build of a job on its way into the simulation. -/
def delivery (builder : Builder) (job : Job) : Delivery :=
  ⟨job.key, job.index, job.version, (job.made builder).1, (job.made builder).2, job.initial⟩

/-- Whether the claim of a job is out and has not begun. -/
def isDue (s : Store) (job : Job) : Bool := s.bears .scheduled job.claim ≠ 0

/-- What a job comes to if it is run on a store. -/
def fate (builder : Builder) (s : Store) (job : Job) : Outcome :=
  if job.isDue s then if (job.made builder).2 then .placeholder else .built else .dropped

/-- What the build of a job counts for when it takes the place of what its cell shows in a store. -/
def credit (builder : Builder) (s : Store) (job : Job) : Tally :=
  { Tally.zero with
    installed := 1
    firstInstalls := job.initial.toNat
    placeholders := (job.made builder).2.toNat
    replaced := (s.shape job.index).isSome.toNat }

/-- Whatever is left in the scratch memory, a pure builder makes the same of a job. -/
theorem made_pure {builder : Builder} (pure : builder.Pure) (job : Job) (scratch : Scratch) :
    (buildOrCover builder job.snapshot scratch).2 = job.made builder := by
  have same := pure job.snapshot scratch Scratch.empty
  rw [made, buildOrCover, buildOrCover]
  generalize builder job.snapshot scratch = first at same ⊢
  generalize builder job.snapshot Scratch.empty = second at same ⊢
  obtain ⟨_, first⟩ := first
  obtain ⟨_, second⟩ := second
  obtain rfl : first = second := same
  cases first <;> rfl

end Build.Job

namespace Ledger

variable [Simulation σ]

/-- The simulation once a build has taken the place of what its cell showed. -/
def swap (sim : σ) (d : Delivery) (slot : Slot) : σ :=
  slot.shape.elim (place sim d slot.active).2 (Simulation.removeShape (place sim d slot.active).2)

theorem place_isNone (sim : σ) (d : Delivery) (enabled : Bool) :
    (place sim d enabled).1.isNone = d.shape.isEmpty := by
  unfold place
  split
  · rename_i empty
    exact empty.symm
  · rename_i full
    exact (Bool.eq_false_iff.mpr full).symm

variable [Accountable σ] {l : Ledger (Archive σ)} {i : Nat} {slot : Slot} {handle : Handle}

/-- What is held after a swap: what was held before or has just been handed over, but for the old shape. -/
theorem Owned.mem_swap (owned : l.Owned) (found : l.store.live? i = some slot) (d : Delivery) {entry : Holding} :
    entry ∈ holdings (swap l.sim d slot) ↔
      entry ∈ holdings (place l.sim d slot.active).2 ∧ slot.shape ≠ some entry.handle := by
  unfold swap
  cases owns : slot.shape with
  | none => simp
  | some old =>
    obtain ⟨valid, held⟩ := owned.placed found owns d slot.active
    rw [Option.elim_some, mem_holdings_remove valid held, ne_eq, ne_eq, Option.some.injEq, eq_comm]

/-- A shape that another cell owns stays as it is. -/
theorem Owned.swap_other (owned : l.Owned) (found : l.store.live? i = some slot) (d : Delivery) {j : Nat} {other : Slot}
    (there : l.store.live? j = some other) (owns : other.shape = some handle) (apart : i ≠ j) :
    (swap l.sim d slot).given handle = l.sim.given handle ∧
      ∀ entry, entry.handle = handle → (entry ∈ holdings (swap l.sim d slot) ↔ entry ∈ holdings l.sim) := by
  have held := owned.has there owns
  have alone : slot.shape ≠ some handle := fun shared =>
    apart (shapes_apart (List.nodup_append.mp owned.once).1 found there shared owns)
  refine ⟨?_, ?_⟩
  · rw [swap, Archive.given_discard, place_given owned.proper held]
  · rintro entry rfl
    rw [owned.mem_swap found, mem_place owned.proper, and_iff_left alone]
    refine or_iff_left ?_
    rintro ⟨handle, placed, rfl⟩
    exact place_fresh owned.proper placed (handles_issued owned.proper held)

/-- The shape of the build, if there is one, is held under a handle of its own. -/
theorem Owned.swap_new (owned : l.Owned) (found : l.store.live? i = some slot) {d : Delivery}
    (placed : (place l.sim d slot.active).1 = some handle) :
    ¬ issued l.sim handle ∧ (swap l.sim d slot).given handle = some d.shape ∧
      ⟨handle, d.key, slot.active⟩ ∈ holdings (swap l.sim d slot) := by
  have strange := place_fresh owned.proper placed
  refine ⟨strange, ?_, ?_⟩
  · rw [swap, Archive.given_discard]
    exact place_gives placed
  · rw [owned.mem_swap found, mem_place owned.proper]
    refine ⟨.inr ⟨handle, placed, rfl⟩, fun owns => strange ?_⟩
    exact handles_issued owned.proper (owned.has found owns)

/-- No handle is given out anew. -/
theorem Owned.issued_swap (owned : l.Owned) (found : l.store.live? i = some slot) (d : Delivery)
    (given : issued l.sim handle) : issued (swap l.sim d slot) handle := by
  have placed : issued (place l.sim d slot.active).2 handle := by
    unfold place
    split
    · exact given
    · exact (issued_added l.sim d.key d.shape slot.active handle owned.proper).mpr (.inl given)
  unfold swap
  cases owns : slot.shape with
  | none => exact placed
  | some old =>
    obtain ⟨valid, held⟩ := owned.placed found owns d slot.active
    obtain ⟨entry, member, rfl⟩ := mem_handles.mp held
    exact (issued_removed _ valid entry member handle).mpr placed

/-- The build of a job has landed: its cell shows it, and the simulation has been given its shape under a handle of its
own, unless the shape is empty. -/
structure Landed (builder : Builder) (origin l : Ledger (Archive σ)) (job : Job) (slot : Slot) (shape : Option Handle) :
    Prop where
  before : origin.store.live? job.index = some slot
  now : l.store.live? job.index = some { slot with shape, placeholder := (job.made builder).2, stage := .ready }
  bare : shape.isNone = (job.made builder).1.isEmpty
  held : ∀ handle, shape = some handle → ¬ issued origin.sim handle ∧
    l.sim.given handle = some (job.made builder).1 ∧ ⟨handle, slot.key, slot.active⟩ ∈ holdings l.sim

/-- Some jobs have completed since the origin, and nothing else has happened. Each of them was due then; the builds of
some have landed in the meantime, and those of the others are queued. All other cells are as they were, in the store
and in the simulation. -/
structure Midway (builder : Builder) (origin l : Ledger (Archive σ)) (landed queued : List Job) : Prop where
  owned : l.Owned
  queue : l.commands = queued.map fun job => .install (job.delivery builder)
  rest : { l.store with slots := #[] } = { origin.store with slots := #[] }
  due : ∀ job ∈ landed ++ queued, job.isDue origin.store = true
  apart : ((landed ++ queued).map (·.index)).Nodup
  untouched : ∀ i, (∀ job ∈ landed ++ queued, job.index ≠ i) → l.store.slots[i]? = origin.store.slots[i]?
  begun : ∀ job ∈ queued, ∃ slot, origin.store.live? job.index = some slot ∧ slot.claim job.index = job.claim ∧
    l.store.live? job.index = some { slot with stage := .generating }
  done : ∀ job ∈ landed, ∃ slot shape, Landed builder origin l job slot shape
  old : ∀ i slot handle, (∀ job ∈ landed, job.index ≠ i) → origin.store.live? i = some slot → slot.shape = some handle →
    l.sim.given handle = origin.sim.given handle ∧
      ∀ entry, entry.handle = handle → (entry ∈ holdings l.sim ↔ entry ∈ holdings origin.sim)
  known : ∀ handle, issued origin.sim handle → issued l.sim handle

namespace Midway

variable {builder : Builder} {origin : Ledger (Archive σ)} {landed queued : List Job} {job : Job}

theorem start (owned : origin.Owned) (quiet : origin.commands = []) : Midway builder origin origin [] [] where
  owned := owned
  queue := quiet
  rest := rfl
  due := by simp
  apart := List.nodup_nil
  untouched _ _ := rfl
  begun := by simp
  done := by simp
  old _ _ _ _ _ _ := ⟨rfl, fun _ _ => Iff.rfl⟩
  known _ given := given

theorem live_untouched (midway : Midway builder origin l landed queued) {i : Nat}
    (elsewhere : ∀ job ∈ landed ++ queued, job.index ≠ i) : l.store.live? i = origin.store.live? i := by
  have reached : l.store.reaches i = origin.store.reaches i := congrArg (·.reaches i) midway.rest
  rw [live?, slot?, reached, midway.untouched i elsewhere, live?, slot?]

/-- A cell whose build has not landed owns the shape that it owned in the beginning. -/
theorem shape_kept (midway : Midway builder origin l landed queued) {i : Nat} {slot : Slot}
    (before : origin.store.live? i = some slot) (aloft : ∀ job ∈ landed, job.index ≠ i) :
    ∃ now, l.store.live? i = some now ∧ now.shape = slot.shape := by
  by_cases waits : ∃ job ∈ queued, job.index = i
  · obtain ⟨job, listed, rfl⟩ := waits
    obtain ⟨other, found, _, now⟩ := midway.begun job listed
    rw [before] at found
    cases found
    exact ⟨_, now, rfl⟩
  · have elsewhere (job : Job) (listed : job ∈ landed ++ queued) : job.index ≠ i := by
      rcases List.mem_append.mp listed with landed | queued
      · exact aloft job landed
      · exact fun same => waits ⟨job, queued, same⟩
    exact ⟨slot, (midway.live_untouched elsewhere).trans before, rfl⟩

/-- A cell for which a job has been run was due for that job then, and no job is due for it now. -/
theorem taken (midway : Midway builder origin l landed queued) (listed : job ∈ landed ++ queued) :
    ∃ slot now, origin.store.live? job.index = some slot ∧ slot.version = job.version ∧
      l.store.live? job.index = some now ∧ now.stage ≠ .scheduled := by
  have borne : origin.store.bears .scheduled job.claim ≠ 0 := of_decide_eq_true (midway.due job listed)
  obtain ⟨slot, before, _, current⟩ := bears_pos borne
  have before : origin.store.live? job.index = some slot := before
  refine ⟨slot, ?_⟩
  rcases List.mem_append.mp listed with landed | queued
  · obtain ⟨other, shape, found, now, _, _⟩ := midway.done job landed
    exact ⟨_, before, congrArg Claim.version current, now, by simp⟩
  · obtain ⟨other, found, _, now⟩ := midway.begun job queued
    exact ⟨_, before, congrArg Claim.version current, now, by simp⟩

/-- Unless a job has been run already, it is due if it was due in the beginning. -/
theorem isDue_eq (midway : Midway builder origin l landed queued)
    (new : ∀ other ∈ landed ++ queued, (other.index, other.version) ≠ (job.index, job.version)) :
    job.isDue l.store = job.isDue origin.store := by
  rw [Job.isDue, Job.isDue]
  by_cases here : ∃ other ∈ landed ++ queued, other.index = job.index
  · obtain ⟨other, listed, same⟩ := here
    obtain ⟨slot, now, before, version, after, idle⟩ := midway.taken listed
    rw [same] at before after
    have first : origin.store.bears .scheduled job.claim = 0 := by
      refine (bears_live (c := job.claim) before).trans (if_neg fun current => new other listed ?_)
      rw [same, ← version]
      exact congrArg (Prod.mk job.index) (congrArg Claim.version current.2)
    have second : l.store.bears .scheduled job.claim = 0 :=
      (bears_live (c := job.claim) after).trans (Slot.bears_none idle)
    rw [first, second]
  · have elsewhere (other : Job) (listed : other ∈ landed ++ queued) : other.index ≠ job.index :=
      fun same => here ⟨other, listed, same⟩
    rw [bears_same (midway.live_untouched elsewhere)]

/-- A job that is due is begun, and its build is queued. -/
theorem build (midway : Midway builder origin l landed queued) {slot : Slot}
    (found : l.store.live? job.index = some slot) (stage : slot.stage = .scheduled)
    (current : slot.claim job.index = job.claim) :
    Midway builder origin { l with
        store := l.store.put job.index { slot with stage := .generating }
        commands := l.commands ++ [.install (job.delivery builder)] }
      landed (queued ++ [job]) := by
  have kept : ({ slot with stage := .generating } : Slot).live = slot.live := rfl
  have fresh (other : Job) (listed : other ∈ landed ++ queued) : other.index ≠ job.index := by
    intro same
    obtain ⟨_, now, _, _, after, idle⟩ := midway.taken listed
    rw [same, found] at after
    cases after
    exact idle stage
  have before : origin.store.live? job.index = some slot := midway.live_untouched fresh ▸ found
  have sees (i : Nat) (elsewhere : i ≠ job.index) :
      (l.store.put job.index { slot with stage := .generating }).live? i = l.store.live? i := by
    rw [live?_put found kept, if_neg elsewhere.symm]
  have work := Work.build (l := { l with jobs := job :: l.jobs }) (.refl _) found stage current (job.made builder).1
    (job.made builder).2
  constructor
  case owned =>
    have owned : Owned { l with jobs := job :: l.jobs } :=
      ⟨midway.owned.sound, midway.owned.proper, midway.owned.held, midway.owned.once⟩
    exact owned.after work
  case queue =>
    rw [List.map_append, ← midway.queue]
    rfl
  case rest => exact midway.rest
  case due =>
    rw [← List.append_assoc]
    intro other listed
    rcases List.mem_append.mp listed with earlier | last
    · exact midway.due other earlier
    · rw [List.mem_singleton.mp last, Job.isDue, ← current]
      have one := bears_one before stage
      simp [one]
  case apart =>
    rw [← List.append_assoc, List.map_append]
    refine List.nodup_append.mpr ⟨midway.apart, List.nodup_singleton _, fun i earlier j last same => ?_⟩
    obtain ⟨other, listed, rfl⟩ := List.mem_map.mp earlier
    exact fresh other listed (same.trans (List.mem_singleton.mp last))
  case untouched =>
    rw [← List.append_assoc]
    intro i elsewhere
    have apart : job.index ≠ i := elsewhere job (List.mem_append_right _ (List.mem_singleton_self job))
    rw [put_slots, Array.getElem?_setIfInBounds_ne apart]
    exact midway.untouched i fun other listed => elsewhere other (List.mem_append_left _ listed)
  case begun =>
    intro other listed
    rcases List.mem_append.mp listed with earlier | last
    · obtain ⟨old, found', named, now⟩ := midway.begun other earlier
      exact ⟨old, found', named, (sees _ (fresh other (List.mem_append_right _ earlier))).trans now⟩
    · rw [List.mem_singleton.mp last]
      exact ⟨slot, before, current, (live?_put found kept).trans (if_pos rfl)⟩
  case done =>
    intro other listed
    obtain ⟨old, shape, found', now, bare, held⟩ := midway.done other listed
    exact ⟨old, shape, found', (sees _ (fresh other (List.mem_append_left _ listed))).trans now, bare, held⟩
  case old => exact midway.old
  case known => exact midway.known

theorem apart_next (midway : Midway builder origin l landed (job :: queued)) :
    ∀ other ∈ landed ++ queued, other.index ≠ job.index := by
  have apart := midway.apart
  rw [List.map_append, List.map_cons, List.nodup_middle, ← List.map_append] at apart
  intro other listed same
  exact (List.nodup_cons.mp apart).1 (same ▸ List.mem_map_of_mem listed)

/-- The build that is next in line lands. -/
theorem install (midway : Midway builder origin l landed (job :: queued)) {commands : List Command}
    (taken : l.commands = .install (job.delivery builder) :: commands) :
    ∃ sim store, Site.install ⟨l.sim, l.store, []⟩ (job.delivery builder) =
        (⟨sim, store, []⟩, job.credit builder origin.store) ∧
      Midway builder origin { l with commands, sim, store } (landed ++ [job]) queued := by
  obtain ⟨slot, before, current, found⟩ := midway.begun job List.mem_cons_self
  have installed := Pipeline.install_current l.sim (d := job.delivery builder) found rfl current
  have owned := midway.owned.after (.install (d := job.delivery builder) taken found rfl current)
  have credit : job.credit builder origin.store = { Tally.zero with
      installed := 1
      firstInstalls := job.initial.toNat
      placeholders := (job.made builder).2.toNat
      replaced := slot.shape.isSome.toNat } := by
    rw [Job.credit, Store.shape, before]
    rfl
  have sees (i : Nat) : (l.store.put job.index { slot with
        shape := (place l.sim (job.delivery builder) slot.active).1
        placeholder := (job.made builder).2
        stage := .ready }).live? i =
      if job.index = i then some { slot with
        shape := (place l.sim (job.delivery builder) slot.active).1
        placeholder := (job.made builder).2
        stage := .ready } else l.store.live? i := live?_put found rfl
  have others (i : Nat) (apart : i ≠ job.index) {other : Slot} (there : l.store.live? i = some other) {handle : Handle}
      (owns : other.shape = some handle) := midway.owned.swap_other found (job.delivery builder) there owns apart.symm
  have next := midway.apart_next
  have reordered : (landed ++ [job]) ++ queued = landed ++ job :: queued := by simp
  refine ⟨_, _, installed.trans (congrArg (Prod.mk _) credit.symm), ?_⟩
  constructor
  case owned => exact owned
  case queue =>
    have queue := midway.queue
    rw [taken] at queue
    exact (List.cons.inj queue).2
  case rest => exact midway.rest
  case due => exact reordered ▸ midway.due
  case apart => exact reordered ▸ midway.apart
  case untouched =>
    rw [reordered]
    intro i elsewhere
    have apart : job.index ≠ i := elsewhere job (by simp)
    exact (Array.getElem?_setIfInBounds_ne apart).trans (midway.untouched i elsewhere)
  case begun =>
    intro other listed
    have apart := next other (List.mem_append_right _ listed)
    obtain ⟨old, found', named, now⟩ := midway.begun other (List.mem_cons_of_mem _ listed)
    exact ⟨old, found', named, (sees _).trans ((if_neg apart.symm).trans now)⟩
  case done =>
    intro other listed
    rcases List.mem_append.mp listed with earlier | last
    · have apart := next other (List.mem_append_left _ earlier)
      obtain ⟨old, shape, found', now, bare, held⟩ := midway.done other earlier
      refine ⟨old, shape, found', (sees _).trans ((if_neg apart.symm).trans now), bare, fun handle owns => ?_⟩
      obtain ⟨strange, given, member⟩ := held handle owns
      obtain ⟨same, entries⟩ := others other.index apart now owns
      exact ⟨strange, same.trans given, (entries _ rfl).mpr member⟩
    · rw [List.mem_singleton.mp last]
      refine ⟨slot, _, before, (sees _).trans (if_pos rfl), place_isNone _ _ _, fun handle owns => ?_⟩
      obtain ⟨strange, given, member⟩ := midway.owned.swap_new found owns
      have owner : slot.key = job.key := congrArg Claim.key current
      rw [owner]
      exact ⟨fun issued => strange (midway.known handle issued), given, member⟩
  case old =>
    intro i old handle aloft before' owns
    have apart : i ≠ job.index := (aloft job (List.mem_append_right _ (List.mem_singleton_self job))).symm
    have earlier (other : Job) (listed : other ∈ landed) : other.index ≠ i := aloft other (List.mem_append_left _ listed)
    obtain ⟨now, there, shape⟩ := midway.shape_kept before' earlier
    obtain ⟨given, entries⟩ := midway.old i old handle earlier before' owns
    obtain ⟨same, still⟩ := others i apart there (shape.trans owns)
    exact ⟨same.trans given, fun entry named => (still entry named).trans (entries entry named)⟩
  case known =>
    intro handle given
    exact midway.owned.issued_swap found _ (midway.known handle given)

end Midway

end Ledger

end TerrainStream
