import TerrainStream.Proofs.Pipeline.Provision
import TerrainStream.Proofs.Pipeline.Watch

/-! What becomes of an edit. While its cell stays referenced no edit is lost. Where the references may go for a
while, an edit outlasts them unless the claim that stands for it is given up in favour of an old build. -/

namespace TerrainStream

open Cell Store Shape Collision Build Residency Physics World Chronicle

variable {σ ω : Type}

/-- The place of an edit. -/
def Residency.Event.edit? : Event → Option Position
  | .voxelEdited place => some place
  | _ => none

theorem Residency.Event.edit?_eq_some {e : Event} {place : Position} :
    e.edit? = some place ↔ e = .voxelEdited place := by
  cases e <;> simp [edit?]

/-- What comes before an edit in a batch, and what comes after it. -/
theorem Residency.Event.split_edit {batch : List Event} {n : Nat} {place : Position}
    (listed : batch[n]?.bind edit? = some place) :
    batch = batch.take n ++ .voxelEdited place :: batch.drop (n + 1) := by
  obtain ⟨e, split, edits⟩ := split listed
  rwa [edit?_eq_some.mp edits] at split

/-- The cell that an event lets go of. -/
def Residency.Event.unloads? : Event → Option Key
  | .cellUnloaded key => some key
  | _ => none

theorem Residency.Event.unloads?_eq_some {e : Event} {key : Key} : e.unloads? = some key ↔ e = .cellUnloaded key := by
  cases e <;> simp [unloads?]

instance (e : Event) (key : Key) : Decidable (e = .cellUnloaded key) :=
  decidable_of_iff _ Event.unloads?_eq_some

/-- Whether the last build of a cell comes from a snapshot that was taken later. -/
def Chronicle.shows (c : Chronicle) (since : Nat) (key : Key) : Bool := newer since (c.built key)

namespace Pipeline

open Journal

/-- Whether a snapshot of a cell is still to be taken: a request is under way, or an edit is kept for later. -/
def owes (p : Pipeline σ ω) (key : Key) : Prop :=
  ∃ planner ∈ p.planner, planner.pending.contains key = true ∨ planner.deferred.contains key = true ∨
    ∃ r ∈ p.requests.letters.toList, r.key = key

/-- The claims of the jobs and builds that are under way. -/
def works (p : Pipeline σ ω) : List Claim := p.jobs.map (·.claim) ++ p.deliveries

/-- Whether a later snapshot of a cell is on its way to it under the claim that is out. -/
def carries (p : Pipeline σ ω) (c : Chronicle) (since : Nat) (key : Key) : Prop :=
  ∃ i slot, p.store.live? i = some slot ∧ slot.key = key ∧ slot.claim i ∈ p.works ∧
    newer since (c.taken (slot.claim i)) = true

/-- Nothing is pending, deferred, queued or waiting anywhere. -/
structure Idle (p : Pipeline σ ω) : Prop where
  planner : ∀ planner ∈ p.planner, planner.pending.isEmpty = true ∧ planner.deferred.isEmpty = true
  requests : p.requests.letters.isEmpty = true
  jobs : p.jobs.isEmpty = true
  commands : p.commands.letters.isEmpty = true

instance (p : Pipeline σ ω) : Decidable p.Idle :=
  decidable_of_iff ((∀ planner ∈ p.planner, planner.pending.isEmpty = true ∧ planner.deferred.isEmpty = true) ∧
    p.requests.letters.isEmpty = true ∧ p.jobs.isEmpty = true ∧ p.commands.letters.isEmpty = true)
    ⟨fun ⟨planner, requests, jobs, commands⟩ => ⟨planner, requests, jobs, commands⟩,
      fun idle => ⟨idle.planner, idle.requests, idle.jobs, idle.commands⟩⟩

theorem Idle.owes_nothing {p : Pipeline σ ω} (idle : p.Idle) (key : Key) : ¬ p.owes key := by
  rintro ⟨planner, present, pending | deferred | ⟨r, queued, _⟩⟩
  · have none := (idle.planner planner present).1
    simp_all [Backlog.isEmpty, Backlog.contains]
  · have none := (idle.planner planner present).2
    simp_all
  · have none := idle.requests
    simp_all

theorem Idle.no_works {p : Pipeline σ ω} (idle : p.Idle) : p.works = [] := by
  simp [works, deliveries, List.isEmpty_iff.mp idle.jobs, Array.isEmpty_iff.mp idle.commands]

variable {p start : Pipeline σ ω} {planner : Planner} {key : Key} {since : Nat} {c : Chronicle}

private theorem owes_of_owing (running : p.Running planner)
    (owing : ((p.ledger planner [] []).standing key).Owing) : p.owes key := by
  refine ⟨planner, running.present, ?_⟩
  rcases owing with waiting | deferred | queued
  · exact .inl (Std.ExtTreeMap.contains_eq_isSome_getElem?.trans waiting)
  · exact .inr (.inl (Std.ExtTreeMap.contains_eq_isSome_getElem?.trans deferred))
  · obtain ⟨r, listed, owner⟩ := List.any_eq_true.mp queued
    exact .inr (.inr ⟨r, listed, of_decide_eq_true owner⟩)

/-- What is watched is owed, or seen on its way, or seen in the build, unless the cell is blank. -/
private theorem watched_cases (running : p.Running planner)
    (watched : (p.journal planner [] [] c).Watched since key) :
    p.owes key ∨ p.carries c since key ∨ c.shows since key = true ∨
    ∃ slot, p.store.tenant? key = some slot ∧ slot.refs = 0 ∧ slot.stage = .unloaded := by
  rcases watched with owing | ⟨slot, there, free, bare⟩ | seen
  · exact .inl (owes_of_owing running owing)
  · obtain ⟨tenant, held, rfl⟩ := Option.map_eq_some_iff.mp there
    exact .inr (.inr (.inr ⟨tenant, held, free, bare⟩))
  · rcases seen with ⟨claim, listed, rfl, dates⟩ | ⟨dates, _⟩
    · obtain ⟨slot, found, _, current⟩ := running.tracked.working listed
      refine .inr (.inl ⟨claim.index, slot, found, congrArg Claim.key current, ?_⟩)
      rw [current]
      exact ⟨listed, dates⟩
    · exact .inr (.inr (.inl dates))

variable [Simulation σ] [Supplier ω] {before after : List (Move ω)} {earlier later : List Event} {place : Position}

/-- An edit that a run applies to a cell has the cell watched from then on. -/
private theorem edit_watched (running : start.Running planner)
    (provided : (start.journal planner [] [] .blank).Provided (Candid ω))
    (unfailing : start.Unfailing (before ++ .pass :: after)) (supplied : start.Supplied (before ++ .pass :: after))
    (loaded : ∀ e ∈ start.applied (before ++ .pass :: after), e ≠ .cellUnloaded key)
    (batch : (start.run before).batch = earlier ++ .voxelEdited place :: later)
    (edited : ∃ d ∈ (start.run before).midway earlier,
      d.store.contains key = true ∧ key ∈ (d.planner.grid.affected place).map Coord.key)
    (kept : (start.run before).Throughout
      (fun p m => (p.move m).store.contains key = true ∧ p.forsakes m key = false) (.pass :: after)) :
    let p := start.run (before ++ .pass :: after)
    ∃ planner, p.Running planner ∧ (p.journal planner [] []
      (start.chronicle .blank (before ++ .pass :: after))).Watched before.length key := by
  intro p
  rw [unfailing_append, unfailing_cons] at unfailing
  obtain ⟨past, passes, unfailing⟩ := unfailing
  obtain ⟨_, answered, supplied⟩ := throughout_append.mp supplied
  obtain ⟨planner, running, provided⟩ := running.provided provided past
  obtain ⟨⟨there, held⟩, kept⟩ := kept
  have unhurt : .cellUnloaded key ∉ (start.run before).batch ++ ((start.run before).move .pass).applied after := by
    intro listed
    refine loaded _ ?_ rfl
    rw [applied_append]
    exact List.mem_append_right _ listed
  rw [List.mem_append, not_or] at unhurt
  obtain ⟨middle, reached, here, affected⟩ := edited
  simp only [p, run_append, chronicle_append]
  rcases running.move_cases passes with ⟨d, _, passed, ends, next⟩ | ⟨other, _⟩
  · have late : before.length < (start.chronicle .blank before).now + 1 := by
      simp [chronicle_now, Chronicle.blank]
    generalize start.chronicle .blank before = c at late
    have watched : (((start.run before).afterPass d).journal d.planner [] []
        { (start.run before).note c .pass with now := c.now + 1 }).Watched before.length key :=
      pass_edits running provided passed batch (running.midway reached) here affected unhurt.1
        (by rwa [ends] at there) (unforsaken ends held)
    rw [← ends] at watched next
    exact next.watched watched late unfailing supplied unhurt.2 kept
  · exact absurd rfl other

/-- While its cell stays referenced no edit is lost, if the world supplies whatever it is asked for and does not
let go of the cell. In every state after the pass that applied it, a snapshot is still to be taken, or one that
was taken later is on its way under the claim that is out, or the last build comes from one that was. So when
nothing is left to do anywhere, the build shows the edit. -/
theorem no_edit_is_lost (grid : Grid) (initial most : Nat) (pacing : Pacing) (margins : Margins) (builder : Builder)
    (world : ω) (sim : σ) (before after : List (Move ω)) (earlier later : List Event) (place : Position) (key : Key) :
    let start := new grid (Store.ofLimits initial most) pacing margins builder world sim
    let moves := before ++ .pass :: after
    let p := start.run moves
    let c := start.chronicle .blank moves
    start.Unfailing moves → start.Supplied moves → (∀ e ∈ start.applied moves, e ≠ .cellUnloaded key) →
    (start.run before).batch = earlier ++ .voxelEdited place :: later →
    (∃ d ∈ (start.run before).midway earlier,
      0 < d.store.refsOf key ∧ key ∈ (d.planner.grid.affected place).map Coord.key) →
    (start.run before).Throughout (fun p m => 0 < (p.move m).store.refsOf key) (.pass :: after) →
    (p.owes key ∨ p.carries c before.length key ∨ c.shows before.length key = true) ∧
    (p.Idle → c.shows before.length key = true) := by
  intro start moves p c unfailing supplied loaded batch edited held
  obtain ⟨middle, reached, here, affected⟩ := edited
  obtain ⟨i, found⟩ := indexed_of_refs here
  have present : middle.store.contains key = true :=
    Std.ExtTreeMap.contains_eq_isSome_getElem?.trans (congrArg Option.isSome found)
  obtain ⟨planner, running, watched⟩ := edit_watched
    (new_running grid initial most pacing margins builder world sim)
    (new_provided grid initial most pacing margins builder world sim Chronicle.blank) unfailing supplied loaded batch
    ⟨middle, reached, present, affected⟩ (held.imp unforsaken_of_referenced)
  have referenced : 0 < p.store.refsOf key := by
    simp only [p, moves, run_append]
    exact held.last (J := fun p => 0 < p.store.refsOf key)
  have situation : p.owes key ∨ p.carries c before.length key ∨ c.shows before.length key = true := by
    refine (watched_cases running watched).imp_right (.imp_right (Or.resolve_right · ?_))
    rintro ⟨slot, there, free, _⟩
    rw [refsOf_tenant, there] at referenced
    exact absurd free (Nat.ne_of_gt referenced)
  refine ⟨situation, fun idle => ?_⟩
  rcases situation with owed | ⟨i, slot, _, _, listed, _⟩ | shown
  · exact absurd owed (idle.owes_nothing key)
  · rw [idle.no_works] at listed
    cases listed
  · exact shown

/-- An edit that finds its cell in the middle of being built is in the build that follows. -/
theorem no_edit_is_lost_midbuild :
    let start := small Scene.empty
    let before := [.send (.requested ⟨0⟩), .pass, .supply 1, .world (start.world.set ⟨1, 1, 1⟩ ⟨0⟩),
      .send (.voxelEdited ⟨1, 1, 1⟩)]
    let after := [.drain 1, .pass, .supply 1, .drain 1]
    let moves := before ++ .pass :: after
    let batch := (start.run before).batch
    let p := start.run moves
    start.Unfailing moves ∧ start.Supplied moves ∧ (∀ e ∈ start.applied moves, e ≠ .cellUnloaded ⟨0⟩) ∧
      batch = batch.take 0 ++ .voxelEdited ⟨1, 1, 1⟩ :: batch.drop 1 ∧
      (∃ d ∈ (start.run before).midway (batch.take 0), 0 < d.store.refsOf ⟨0⟩ ∧
        ⟨0⟩ ∈ (d.planner.grid.affected ⟨1, 1, 1⟩).map Coord.key) ∧
      (start.run before).Throughout (fun p m => 0 < (p.move m).store.refsOf ⟨0⟩) (.pass :: after) ∧
      p.Idle ∧ (start.chronicle .blank moves).shows before.length ⟨0⟩ = true := by
  intro start before after moves batch p
  have unfailing : start.Unfailing moves := by decide +kernel
  have supplied : start.Supplied moves := by decide +kernel
  have loaded : ∀ e ∈ start.applied moves, e ≠ .cellUnloaded ⟨0⟩ := by decide +kernel
  have split := Event.split_edit (show batch[0]?.bind (·.edit?) = some ⟨1, 1, 1⟩ by decide +kernel)
  have edited : ∃ d ∈ (start.run before).midway (batch.take 0), 0 < d.store.refsOf ⟨0⟩ ∧
      ⟨0⟩ ∈ (d.planner.grid.affected ⟨1, 1, 1⟩).map Coord.key := by decide +kernel
  have held : (start.run before).Throughout (fun p m => 0 < (p.move m).store.refsOf ⟨0⟩) (.pass :: after) := by
    decide +kernel
  have idle : p.Idle := by decide +kernel
  obtain ⟨_, settled⟩ := no_edit_is_lost _ _ _ _ _ _ _ _ before after _ _ ⟨1, 1, 1⟩ ⟨0⟩ unfailing supplied loaded
    split edited held
  exact ⟨unfailing, supplied, loaded, split, edited, held, idle, settled idle⟩

/-- Whether the planner has a request or an edit of a cell in hand. -/
def noted (p : Pipeline σ ω) (key : Key) : Bool :=
  p.planner.any fun planner => planner.pending.contains key || planner.deferred.contains key

/-- An edit outlasts the references of its cell, if the cell stays and no claim of it is given up in favour of a
build that it has: whenever the cell is referenced again a claim is out, or the edit is kept for later, or the
last build comes from a snapshot that was taken later. -/
theorem edits_outlast_references (grid : Grid) (initial most : Nat) (pacing : Pacing) (margins : Margins)
    (builder : Builder) (world : ω) (sim : σ) (before after : List (Move ω)) (earlier later : List Event)
    (place : Position) (key : Key) :
    let start := new grid (Store.ofLimits initial most) pacing margins builder world sim
    let moves := before ++ .pass :: after
    let p := start.run moves
    start.Unfailing moves → start.Supplied moves → (∀ e ∈ start.applied moves, e ≠ .cellUnloaded key) →
    (start.run before).batch = earlier ++ .voxelEdited place :: later →
    (∃ d ∈ (start.run before).midway earlier,
      d.store.contains key = true ∧ key ∈ (d.planner.grid.affected place).map Coord.key) →
    (start.run before).Throughout
      (fun p m => (p.move m).store.contains key = true ∧ p.forsakes m key = false) (.pass :: after) →
    0 < p.store.refsOf key →
    p.claimed key = true ∨ p.noted key = true ∨ (start.chronicle .blank moves).shows before.length key = true := by
  intro start moves p unfailing supplied loaded batch edited kept referenced
  obtain ⟨planner, running, watched⟩ := edit_watched
    (new_running grid initial most pacing margins builder world sim)
    (new_provided grid initial most pacing margins builder world sim Chronicle.blank) unfailing supplied loaded batch
    edited kept
  have flies {i : Nat} {slot : Slot} (found : p.store.live? i = some slot) (busy : slot.stage.isInFlight = true) :
      p.claimed slot.key = true := by
    rw [claimed, tenant?_live running.sound found]
    exact busy
  rcases watched_cases running watched with
    ⟨_, present, owed⟩ | ⟨i, slot, _, owner, listed, _⟩ | shown | ⟨slot, there, free, _⟩
  · have present : p.planner = some _ := present
    rcases owed with pending | deferred | ⟨r, queued, rfl⟩
    · exact .inr (.inl (by simp [noted, present, pending]))
    · exact .inr (.inl (by simp [noted, present, deferred]))
    · have waits : r.claim ∈ (p.ledger planner [] []).waits :=
        List.mem_append_left _ (List.mem_map_of_mem (List.mem_append_right _ queued))
      obtain ⟨slot, found, stage, current⟩ := running.tracked.carried.waits waits
      have owner : slot.key = r.key := congrArg Claim.key current
      exact .inl (owner ▸ flies found (by rw [stage]; rfl))
  · obtain ⟨tenant, found, busy, current⟩ := running.tracked.working listed
    have same : tenant.key = key := (congrArg Claim.key current).trans owner
    exact .inl (same ▸ flies found busy)
  · exact .inr (.inr shown)
  · rw [refsOf_tenant, there] at referenced
    exact absurd free (Nat.ne_of_gt referenced)

/-- An edit that comes while nobody needs its cell is kept until somebody does. -/
theorem edits_outlast_references_deferred :
    let start := small Scene.empty
    let before := [.send (.requested ⟨0⟩), .pass, .supply 1, .drain 1, .world (start.world.set ⟨1, 1, 1⟩ ⟨0⟩),
      .send (.released ⟨0⟩), .send (.voxelEdited ⟨1, 1, 1⟩)]
    let after := [.send (.requested ⟨0⟩), .pass]
    let moves := before ++ .pass :: after
    let batch := (start.run before).batch
    let p := start.run moves
    start.Unfailing moves ∧ start.Supplied moves ∧ (∀ e ∈ start.applied moves, e ≠ .cellUnloaded ⟨0⟩) ∧
      batch = batch.take 1 ++ .voxelEdited ⟨1, 1, 1⟩ :: batch.drop 2 ∧
      (∃ d ∈ (start.run before).midway (batch.take 1), d.store.contains ⟨0⟩ = true ∧
        ⟨0⟩ ∈ (d.planner.grid.affected ⟨1, 1, 1⟩).map Coord.key) ∧
      (start.run before).Throughout
        (fun p m => (p.move m).store.contains ⟨0⟩ = true ∧ p.forsakes m ⟨0⟩ = false) (.pass :: after) ∧
      0 < p.store.refsOf ⟨0⟩ ∧
      (p.claimed ⟨0⟩ = true ∨ p.noted ⟨0⟩ = true ∨
        (start.chronicle .blank moves).shows before.length ⟨0⟩ = true) := by
  intro start before after moves batch p
  have unfailing : start.Unfailing moves := by decide +kernel
  have supplied : start.Supplied moves := by decide +kernel
  have loaded : ∀ e ∈ start.applied moves, e ≠ .cellUnloaded ⟨0⟩ := by decide +kernel
  have split := Event.split_edit (show batch[1]?.bind (·.edit?) = some ⟨1, 1, 1⟩ by decide +kernel)
  have edited : ∃ d ∈ (start.run before).midway (batch.take 1), d.store.contains ⟨0⟩ = true ∧
      ⟨0⟩ ∈ (d.planner.grid.affected ⟨1, 1, 1⟩).map Coord.key := by decide +kernel
  have kept : (start.run before).Throughout
      (fun p m => (p.move m).store.contains ⟨0⟩ = true ∧ p.forsakes m ⟨0⟩ = false) (.pass :: after) := by
    decide +kernel
  have held : 0 < p.store.refsOf ⟨0⟩ := by decide +kernel
  exact ⟨unfailing, supplied, loaded, split, edited, kept, held,
    edits_outlast_references _ _ _ _ _ _ _ _ before after _ _ ⟨1, 1, 1⟩ ⟨0⟩ unfailing supplied loaded split edited
      kept held⟩

/-- An edit is lost with the references of its cell, if it has led to a claim by then: the claim is given up
for the build that is there, and nothing recalls the edit when the cell is needed again. -/
theorem edit_lost_with_references :
    let start := small Scene.empty
    let before := [.send (.requested ⟨0⟩), .pass, .supply 1, .drain 1, .world (start.world.set ⟨1, 1, 1⟩ ⟨0⟩),
      .send (.voxelEdited ⟨1, 1, 1⟩), .send (.released ⟨0⟩)]
    let after := [.send (.requested ⟨0⟩), .pass, .supply 1, .drain 1]
    let moves := before ++ .pass :: after
    let p := start.run moves
    start.Unfailing moves ∧ start.Supplied moves ∧ (∀ e ∈ start.applied moves, e ≠ .cellUnloaded ⟨0⟩) ∧
      (start.run before).batch[0]?.bind (·.edit?) = some ⟨1, 1, 1⟩ ∧
      (∃ d ∈ (start.run before).midway [], d.store.contains ⟨0⟩ = true ∧
        ⟨0⟩ ∈ (d.planner.grid.affected ⟨1, 1, 1⟩).map Coord.key) ∧
      (start.run before).Throughout (fun p m => (p.move m).store.contains ⟨0⟩ = true) (.pass :: after) ∧
      0 < p.store.refsOf ⟨0⟩ ∧ p.batch.isEmpty = true ∧ p.Idle ∧
      ¬ (p.claimed ⟨0⟩ = true ∨ p.noted ⟨0⟩ = true ∨
        (start.chronicle .blank moves).shows before.length ⟨0⟩ = true) := by
  decide +kernel

end Pipeline

end TerrainStream
