import TerrainStream.Proofs.Pipeline.Run
import TerrainStream.Proofs.Residency.Acts

/-! What is under way in a pipeline, as lists, and the small steps that every move is made of. Whatever
each small step keeps, every run keeps. -/

namespace TerrainStream

open Cell Store Shape Collision Build Residency Physics World

variable {σ ω : Type}

/-- The claim that a request waits for. -/
def Residency.Request.claim (r : Request) : Claim := ⟨r.key, r.index, r.version⟩

/-- The claim that a job builds for. -/
def Build.Job.claim (job : Job) : Claim := ⟨job.key, job.index, job.version⟩

/-- The claim that a delivery is to be installed for. -/
def Collision.Delivery.claim (d : Delivery) : Claim := ⟨d.key, d.index, d.version⟩

/-- What is under way between a planner, a world, builders and a simulation. -/
structure Ledger (σ : Type) where
  planner : Planner
  store : Store
  /-- Requests on their way to the world, the oldest first. -/
  waiting : List Request
  jobs : List Job
  commands : List Command
  sim : σ

namespace Ledger

/-- The ledger of a desk, beside jobs and a simulation that the planner does not touch. -/
def ofDesk (d : Desk) (jobs : List Job) (sim : σ) : Ledger σ :=
  ⟨d.planner, d.store, d.requests.letters.toList, jobs, d.commands.letters.toList, sim⟩

variable [Simulation σ]

/-- The simulation once it has been handed a shape that is not empty, and the handle given for it. -/
def place (sim : σ) (d : Delivery) (enabled : Bool) : Option Handle × σ :=
  if d.shape.isEmpty then (none, sim)
  else (some (Simulation.addShape sim d.key d.shape enabled).1, (Simulation.addShape sim d.key d.shape enabled).2)

/-- What is done with one request, one job or one command. -/
inductive Work : Ledger σ → Ledger σ → Prop
  | skip {l : Ledger σ} {r : Request} {waiting : List Request} (taken : l.waiting = r :: waiting)
      (spent : l.store.bears .scheduled r.claim = 0) : Work l { l with waiting }
  | giveUp {l : Ledger σ} {r : Request} {waiting : List Request} (taken : l.waiting = r :: waiting) :
      Work l { l with waiting, store := (l.store.abandon r.index r.version).1 }
  | accept {l : Ledger σ} {r : Request} {waiting : List Request} {jobs : List Job} {snapshot : Snapshot}
      (taken : l.waiting = r :: waiting)
      (added : jobs.Perm (⟨r.key, r.index, r.version, r.initial, snapshot⟩ :: l.jobs)) :
      Work l { l with waiting, jobs }
  | drop {l : Ledger σ} {job : Job} {jobs : List Job} (taken : l.jobs.Perm (job :: jobs))
      (spent : l.store.bears .scheduled job.claim = 0) : Work l { l with jobs }
  | build {l : Ledger σ} {job : Job} {jobs : List Job} {slot : Slot} (taken : l.jobs.Perm (job :: jobs))
      (found : l.store.live? job.index = some slot) (stage : slot.stage = .scheduled)
      (current : slot.claim job.index = job.claim) (shape : Shape) (placeholder : Bool) :
      Work l { l with
        jobs
        store := l.store.put job.index { slot with stage := .generating }
        commands := l.commands ++ [.install ⟨job.key, job.index, job.version, shape, placeholder, job.initial⟩] }
  | refuse {l : Ledger σ} {d : Delivery} {commands : List Command} (taken : l.commands = .install d :: commands)
      (spent : l.store.bears .generating d.claim = 0) : Work l { l with commands }
  | install {l : Ledger σ} {d : Delivery} {commands : List Command} {slot : Slot}
      (taken : l.commands = .install d :: commands) (found : l.store.live? d.index = some slot)
      (stage : slot.stage = .generating) (current : slot.claim d.index = d.claim) :
      Work l { l with
        commands
        store := l.store.put d.index
          { slot with shape := (place l.sim d slot.active).1, placeholder := d.placeholder, stage := .ready }
        sim := slot.shape.elim (place l.sim d slot.active).2
          (Simulation.removeShape (place l.sim d slot.active).2) }
  | remove {l : Ledger σ} {key : Key} {shape : Handle} {commands : List Command}
      (taken : l.commands = .remove key shape :: commands) :
      Work l { l with commands, sim := Simulation.removeShape l.sim shape }
  | toggle {l : Ledger σ} {i : Nat} {enabled : Bool} {commands : List Command} {slot : Slot} {shape : Handle}
      (taken : l.commands = .toggle slot.key i enabled :: commands) (found : l.store.live? i = some slot)
      (owned : slot.shape = some shape) :
      Work l { l with commands, sim := Simulation.setEnabled l.sim shape enabled }
  | ignore {l : Ledger σ} {key : Key} {i : Nat} {enabled : Bool} {commands : List Command}
      (taken : l.commands = .toggle key i enabled :: commands)
      (bare : ∀ slot, l.store.live? i = some slot → slot.key = key → slot.shape = none) :
      Work l { l with commands }

abbrev Works : Ledger σ → Ledger σ → Prop := Relation.ReflTransGen Work

end Ledger

namespace Pipeline

open Ledger

/-- The jobs that wait at the gate. -/
def jobs (p : Pipeline σ ω) : List Job := (p.parked.getD #[]).toList.map (·.1)

/-- The ledger of a pipeline, with requests and jobs that have been taken from their queues and not yet
been dealt with. -/
def ledger (p : Pipeline σ ω) (planner : Planner) (taken : List Request) (begun : List Job) : Ledger σ :=
  ⟨planner, p.store, taken ++ p.requests.letters.toList, begun ++ p.jobs, p.commands.letters.toList, p.sim⟩

/-! ### Jobs -/

private theorem claim_of {slot : Slot} {i : Nat} {key : Key} {version : UInt32}
    (current : slot.claim i = ⟨key, i, version⟩) : slot.key = key ∧ slot.version = version := by
  simp only [Slot.claim, Claim.mk.injEq] at current
  exact ⟨current.1, current.2.2⟩

private theorem claim_spent (b : Bench) {job : Job} (spent : b.store.bears .scheduled job.claim = 0) :
    b.claim job = (b, false) := by
  rw [Bench.claim]
  split
  · rename_i owner
    rcases begin_cases b.store job.index job.version with ⟨slot, found, version, stage, _⟩ | refused
    · have key : slot.key = job.key := by simpa [keyAt, found] using owner
      have current : slot.claim job.index = job.claim := by simp [Slot.claim, Job.claim, key, version]
      have one := bears_one found stage
      rw [current, spent] at one
      cases one
    · rw [refused]
  · rfl

private theorem claim_current (b : Bench) {job : Job} {slot : Slot} (found : b.store.live? job.index = some slot)
    (stage : slot.stage = .scheduled) (current : slot.claim job.index = job.claim) :
    b.claim job = ({ b with store := b.store.put job.index { slot with stage := .generating } }, true) := by
  obtain ⟨key, version⟩ := claim_of current
  have owner : b.store.keyAt job.index = some job.key := by simp [keyAt, found, key]
  rw [Bench.claim, if_pos owner, ← version, begin_current found stage]

/-- A job whose claim is current begins it, builds, and posts what it built. -/
private theorem run_current (b : Bench) (builder : Builder) {job : Job} {slot : Slot}
    (found : b.store.live? job.index = some slot) (stage : slot.stage = .scheduled)
    (current : slot.claim job.index = job.claim) (alone : b.interludes = []) :
    ∃ scratch shape placeholder,
      buildOrCover builder job.snapshot b.scratch = (scratch, shape, placeholder) ∧ b.run builder job =
        ({ b with
          store := b.store.put job.index { slot with stage := .generating }
          scratch
          commands := b.commands.post
            (.install ⟨job.key, job.index, job.version, shape, placeholder, job.initial⟩) },
          if placeholder then .placeholder else .built) := by
  have began : (b.store.put job.index { slot with stage := .generating }).live? job.index =
      some { slot with stage := .generating } := by
    rw [live?_put found (show ({ slot with stage := .generating } : Slot).live = slot.live from rfl), if_pos rfl]
  have fresh : (b.store.put job.index { slot with stage := .generating }).isStale job.index job.version = false := by
    rw [isStale, slot?_live began]
    simp [(claim_of current).2]
  generalize built : buildOrCover builder job.snapshot b.scratch = made
  obtain ⟨scratch, shape, placeholder⟩ := made
  refine ⟨scratch, shape, placeholder, rfl, ?_⟩
  rw [Bench.run, claim_current b found stage current]
  simp [alone, Bench.shape, runInterlude, built, fresh]

/-- A job whose claim is over leaves nothing but a note of it; any other job begins its claim and
posts its build. -/
theorem runJob_cases (p : Pipeline σ ω) (quiet : p.interludes = Interludes.quiet) (job : Job) :
    (p.store.bears .scheduled job.claim = 0 ∧ ∃ outcomes, p.runJob job = { p with outcomes }) ∨
    (∃ slot shape placeholder scratch outcomes, p.store.live? job.index = some slot ∧ slot.stage = .scheduled ∧
      slot.claim job.index = job.claim ∧ buildOrCover p.builder job.snapshot p.scratch = (scratch, shape, placeholder) ∧
      p.runJob job = { p with
        store := p.store.put job.index { slot with stage := .generating }
        scratch
        commands := p.commands.post
          (.install ⟨job.key, job.index, job.version, shape, placeholder, job.initial⟩)
        outcomes }) := by
  by_cases borne : p.store.bears .scheduled job.claim = 0
  · refine .inl ⟨borne, ?_⟩
    have turned := claim_spent ⟨p.store, p.scratch, p.commands, p.interludes.building⟩ borne
    simp only [runJob, Bench.run, turned]
    exact ⟨_, rfl⟩
  · refine .inr ?_
    obtain ⟨slot, found, stage, current⟩ := bears_pos borne
    have alone : p.interludes.building = [] := by rw [quiet]; rfl
    obtain ⟨scratch, shape, placeholder, built, run⟩ :=
      run_current ⟨p.store, p.scratch, p.commands, p.interludes.building⟩ p.builder found stage current alone
    refine ⟨slot, shape, placeholder, scratch, p.outcomes.push (job.key, if placeholder then .placeholder else .built),
      found, stage, current, built, ?_⟩
    simp only [runJob, run]

/-- What a job comes to if it is run now. -/
def verdict (p : Pipeline σ ω) (job : Job) : Outcome :=
  (Bench.run ⟨p.store, p.scratch, p.commands, p.interludes.building⟩ p.builder job).2

theorem verdict_spent (p : Pipeline σ ω) {job : Job} (spent : p.store.bears .scheduled job.claim = 0) :
    p.verdict job = .dropped := by
  rw [verdict, Bench.run, claim_spent ⟨p.store, p.scratch, p.commands, p.interludes.building⟩ spent]

theorem verdict_current (p : Pipeline σ ω) (quiet : p.interludes = Interludes.quiet) {job : Job}
    (borne : p.store.bears .scheduled job.claim ≠ 0) :
    p.verdict job = if (buildOrCover p.builder job.snapshot p.scratch).2.2 then .placeholder else .built := by
  obtain ⟨slot, found, stage, current⟩ := bears_pos borne
  have alone : p.interludes.building = [] := by rw [quiet]; rfl
  obtain ⟨scratch, shape, placeholder, built, run⟩ :=
    run_current ⟨p.store, p.scratch, p.commands, p.interludes.building⟩ p.builder found stage current alone
  rw [verdict, run, built]

variable {p : Pipeline σ ω}

theorem runJob_intact (intact : p.Intact) (job : Job) : (p.runJob job).Intact := by
  obtain ⟨there, events, requests, commands, quiet⟩ := intact
  rcases runJob_cases p quiet job with
    ⟨_, outcomes, same⟩ | ⟨slot, shape, placeholder, scratch, outcomes, _, _, _, _, same⟩
  · rw [same]
    exact ⟨there, events, requests, commands, quiet⟩
  · rw [same]
    exact ⟨there, events, requests, (Mailbox.post_isOpen _ _).trans commands, quiet⟩

theorem runJob_planner (intact : p.Intact) (job : Job) : (p.runJob job).planner = p.planner := by
  rcases runJob_cases p intact.interludes job with ⟨_, outcomes, same⟩ | ⟨_, _, _, _, _, _, _, _, _, same⟩ <;> rw [same]

theorem runJob_work [Simulation σ] (intact : p.Intact) (planner : Planner) (taken : List Request)
    (begun : List Job) {job : Job} {jobs : List Job} (listed : jobs.Perm (job :: (begun ++ p.jobs))) :
    Work { p.ledger planner taken begun with jobs } ((p.runJob job).ledger planner taken begun) := by
  rcases runJob_cases p intact.interludes job with
    ⟨spent, outcomes, same⟩ | ⟨slot, shape, placeholder, scratch, outcomes, found, stage, current, _, same⟩
  · rw [same]
    exact Work.drop (l := { p.ledger planner taken begun with jobs }) listed spent
  · rw [same]
    have built := Work.build (l := { p.ledger planner taken begun with jobs }) listed found stage current
      shape placeholder
    simp only [ledger, Mailbox.post_letters intact.commands]
    exact built

/-- What running a job keeps, opening the gate keeps. The jobs that are still to be run may have a part in it. -/
theorem openGate_keeps {K : List Job → Pipeline σ ω → Prop}
    (step : ∀ p job begun, K (job :: begun) p → K begun (p.runJob job)) (start : K p.jobs { p with parked := none }) :
    K [] p.openGate := by
  have ran (waited : List (Job × Lane)) (p : Pipeline σ ω) (start : K (waited.map (·.1)) p) :
      K [] (waited.foldl (fun p job => p.runJob job.1) p) := by
    induction waited generalizing p with
    | nil => exact start
    | cons job waited ih => exact ih (p.runJob job.1) (step p job.1 _ start)
  rw [openGate, ← Array.foldl_toList]
  exact ran _ _ start

/-- Once the gate is open, the jobs that waited at it have yet to be run. -/
theorem ledger_opened (p : Pipeline σ ω) (planner : Planner) :
    p.ledger planner [] [] = ({ p with parked := none } : Pipeline σ ω).ledger planner [] p.jobs := by
  simp [ledger, jobs]

theorem openGate_works [Simulation σ] (intact : p.Intact) (planner : Planner) :
    p.openGate.Intact ∧ p.openGate.planner = p.planner ∧
    Works (p.ledger planner [] []) (p.openGate.ledger planner [] []) := by
  have ⟨there, events, requests, commands, quiet⟩ := intact
  have opened : ({ p with parked := none } : Pipeline σ ω).Intact := ⟨there, events, requests, commands, quiet⟩
  refine openGate_keeps (K := fun begun p' => p'.Intact ∧ p'.planner = p.planner ∧
    Works (p.ledger planner [] []) (p'.ledger planner [] begun)) ?_ ⟨opened, rfl, p.ledger_opened planner ▸ .refl⟩
  rintro p' job begun ⟨intact, same, works⟩
  exact ⟨runJob_intact intact job, (runJob_planner intact job).trans same,
    works.tail (runJob_work intact planner [] begun (.refl _))⟩

/-- A job that is built out of turn leaves those that wait beside it. -/
theorem build_cases (p : Pipeline σ ω) (place : Nat) :
    p.build place = p ∨ ∃ job parked, p.build place = ({ p with parked := some parked } : Pipeline σ ω).runJob job ∧
      p.jobs.Perm (job :: ({ p with parked := some parked } : Pipeline σ ω).jobs) := by
  simp only [build]
  split
  · exact .inl rfl
  · rename_i job found
    refine .inr ⟨job.1, _, rfl, ?_⟩
    have listed : (p.parked.getD #[]).toList.Perm (job :: (p.parked.getD #[]).toList.eraseIdx place) := by
      obtain ⟨inside, rfl⟩ := List.getElem?_eq_some_iff.mp (Array.getElem?_toList ▸ found)
      exact (List.getElem_cons_eraseIdx_perm inside).symm
    simpa [jobs] using listed.map (·.1)

theorem build_works [Simulation σ] (intact : p.Intact) (planner : Planner) (place : Nat) :
    (p.build place).Intact ∧ (p.build place).planner = p.planner ∧
    Works (p.ledger planner [] []) ((p.build place).ledger planner [] []) := by
  have ⟨there, events, requests, commands, quiet⟩ := intact
  rcases p.build_cases place with same | ⟨job, parked, same, taken⟩
  · rw [same]
    exact ⟨intact, rfl, .refl⟩
  · have kept : ({ p with parked := some parked } : Pipeline σ ω).Intact := ⟨there, events, requests, commands, quiet⟩
    rw [same]
    exact ⟨runJob_intact kept job, runJob_planner kept job, .single (runJob_work kept planner [] [] taken)⟩

/-! ### Requests -/

theorem isCurrent_false {s : Store} {r : Request} (spent : isCurrent s r = false) : s.bears .scheduled r.claim = 0 := by
  by_contra borne
  obtain ⟨slot, found, stage, current⟩ := bears_pos borne
  obtain ⟨key, version⟩ := claim_of current
  have found : s.live? r.index = some slot := found
  simp [isCurrent, keyAt, found, version_live found, stage_live found, key, version, stage] at spent

theorem excuse_same (p : Pipeline σ ω) (r : Request) :
    ∃ events, p.excuse r = { p with store := (p.store.abandon r.index r.version).1, events } ∧
      events.isOpen = p.events.isOpen := by
  unfold excuse
  split <;> rename_i store gaveUp <;> rw [gaveUp]
  · exact ⟨_, rfl, Mailbox.post_isOpen _ _⟩
  · exact ⟨_, rfl, rfl⟩

/-- Nobody works on the store while the world is asked. -/
theorem ask_quiet [Supplier ω] (quiet : p.interludes = Interludes.quiet) (key : Key) : p.ask key =
    ({ p with world := (Supplier.snapshot p.world key).1 }, (Supplier.snapshot p.world key).2) := by
  have still : { p.interludes with snapshot := [] } = p.interludes := by rw [quiet]; rfl
  have none : p.interludes.snapshot = [] := by rw [quiet]; rfl
  simp only [ask, none, runInterlude, still]

/-- A request that got its snapshot turns into a job, which runs at once if the gate is open. -/
theorem accept_works [Simulation σ] (intact : p.Intact) (planner : Planner) (taken : List Request) (r : Request)
    (snapshot : Snapshot) (lane : Lane) {job : Job} (same : job = ⟨r.key, r.index, r.version, r.initial, snapshot⟩) :
    (p.submit job lane).Intact ∧ (p.submit job lane).planner = p.planner ∧
    Works (p.ledger planner (r :: taken) []) ((p.submit job lane).ledger planner taken []) := by
  have ⟨there, events, requests, commands, quiet⟩ := intact
  unfold submit
  dsimp only
  split
  · rename_i waiting parked
    have added : ((waiting.push (job, lane)).toList.map (·.1)).Perm (job :: p.jobs) := by
      simp [jobs, parked]
    subst same
    exact ⟨⟨there, events, requests, commands, quiet⟩, rfl, .single (.accept rfl added)⟩
  · have logged : ({ p with lanes := p.lanes.push (job.key, lane) } : Pipeline σ ω).Intact :=
      ⟨there, events, requests, commands, quiet⟩
    refine ⟨runJob_intact logged job, runJob_planner logged job, ?_⟩
    have accepted : Work (p.ledger planner (r :: taken) [])
        { p.ledger planner taken [] with jobs := job :: p.jobs } := by
      subst same
      exact .accept rfl (.refl _)
    exact (Relation.ReflTransGen.single accepted).tail (runJob_work logged planner taken [] (.refl _))

/-- Serving a request is one step with it, and one more if a build follows at once. -/
theorem serve_works [Simulation σ] [Supplier ω] (intact : p.Intact) (planner : Planner) (taken : List Request)
    (r : Request) :
    (p.serve r).1.Intact ∧ (p.serve r).1.planner = p.planner ∧
    Works (p.ledger planner (r :: taken) []) ((p.serve r).1.ledger planner taken []) := by
  have ⟨there, events, requests, commands, quiet⟩ := intact
  unfold serve
  split
  · rename_i spent
    have spent := isCurrent_false (by simpa using spent)
    exact ⟨intact, rfl, .single (.skip rfl spent)⟩
  · split
    · obtain ⟨letters, same, ready⟩ := excuse_same p r
      rw [same]
      exact ⟨⟨there, ready.trans events, requests, commands, quiet⟩, rfl, .single (.giveUp rfl)⟩
    · have asked := ask_quiet intact.interludes r.key
      split
      · rename_i next snapshot answer
        obtain ⟨rfl, _⟩ := Prod.mk.inj (asked.symm.trans answer)
        have kept : ({ p with world := (Supplier.snapshot p.world r.key).1 } : Pipeline σ ω).Intact :=
          ⟨there, events, requests, commands, quiet⟩
        exact accept_works kept planner taken r snapshot _ rfl
      · rename_i next e answer
        obtain ⟨rfl, _⟩ := Prod.mk.inj (asked.symm.trans answer)
        exact ⟨⟨there, (Mailbox.post_isOpen _ _).trans events, requests, commands, quiet⟩, rfl, .single (.giveUp rfl)⟩

/-- Serving requests in turn. -/
def serveAll [Supplier ω] (p : Pipeline σ ω) (tally : SupplyTally) (taken : List Request) :
    Pipeline σ ω × SupplyTally :=
  taken.foldl (fun (p, tally) r => let (p, t) := p.serve r; (p, tally + t)) (p, tally)

theorem serveAll_cons [Supplier ω] (p : Pipeline σ ω) (tally : SupplyTally) (r : Request) (taken : List Request) :
    serveAll p tally (r :: taken) = serveAll (p.serve r).1 (tally + (p.serve r).2) taken := rfl

/-- What serving a request keeps, serving any number of them keeps. The requests that are still to be served may have
a part in it. -/
theorem supply_keeps [Supplier ω] {K : List Request → Pipeline σ ω → Prop}
    (step : ∀ p r taken, K (r :: taken) p → K taken (p.serve r).1) (most : Nat)
    (start : K (p.requests.firsts most) { p with requests := p.requests.rest most }) : K [] (p.supply most).1 := by
  have served (taken : List Request) (p : Pipeline σ ω) (tally : SupplyTally) (start : K taken p) :
      K [] (serveAll p tally taken).1 := by
    induction taken generalizing p tally with
    | nil => exact start
    | cons r taken ih => exact ih (p.serve r).1 (tally + (p.serve r).2) (step p r taken start)
  exact served _ _ SupplyTally.zero start

/-- Requests that have been taken from their queue have yet to be served. -/
theorem ledger_taken (p : Pipeline σ ω) (planner : Planner) (most : Nat) : p.ledger planner [] [] =
    ({ p with requests := p.requests.rest most } : Pipeline σ ω).ledger planner (p.requests.firsts most) [] := by
  simp only [ledger, Mailbox.firsts_rest]
  rfl

theorem supply_works [Simulation σ] [Supplier ω] (intact : p.Intact) (planner : Planner) (most : Nat) :
    (p.supply most).1.Intact ∧ (p.supply most).1.planner = p.planner ∧
    Works (p.ledger planner [] []) ((p.supply most).1.ledger planner [] []) := by
  have ⟨there, events, requests, commands, quiet⟩ := intact
  have kept : ({ p with requests := p.requests.rest most } : Pipeline σ ω).Intact :=
    ⟨there, events, requests, commands, quiet⟩
  refine supply_keeps (K := fun taken p' => p'.Intact ∧ p'.planner = p.planner ∧
    Works (p.ledger planner [] []) (p'.ledger planner taken [])) ?_ most
    ⟨kept, rfl, p.ledger_taken planner most ▸ .refl⟩
  rintro p' r taken ⟨intact, same, works⟩
  obtain ⟨kept, still, more⟩ := serve_works intact planner taken r
  exact ⟨kept, still.trans same, works.trans more⟩

/-! ### Commands -/

/-- A build whose claim is under way goes in, and that is counted. -/
theorem install_current [Simulation σ] (sim : σ) {s : Store} {d : Delivery} {slot : Slot}
    (found : s.live? d.index = some slot) (stage : slot.stage = .generating) (current : slot.claim d.index = d.claim) :
    Site.install ⟨sim, s, []⟩ d =
      (⟨slot.shape.elim (place sim d slot.active).2 (Simulation.removeShape (place sim d slot.active).2),
        s.put d.index { slot with shape := (place sim d slot.active).1, placeholder := d.placeholder, stage := .ready },
        []⟩,
      { Tally.zero with
        installed := 1
        firstInstalls := d.initial.toNat
        placeholders := d.placeholder.toNat
        replaced := slot.shape.isSome.toNat }) := by
  obtain ⟨key, version⟩ := claim_of current
  have fits : s.checkInstall d.index d.key d.version = .ok () := by
    simp [checkInstall, found, Slot.accepts, key, version, stage]
  have finished (shape : Option Handle) : s.finish d.index d.key d.version shape d.placeholder =
      (s.put d.index { slot with shape, placeholder := d.placeholder, stage := .ready }, .ok slot.shape) := by
    rw [← key, ← version]
    exact finish_current found stage shape d.placeholder
  have active : s.isActive d.index = slot.active := by simp [isActive, found]
  simp only [Site.install, fits, place]
  split
  · simp only [Site.commit, finished]
  · simp only [Site.present, runInterlude, Site.commit, finished, active]

private theorem install_work [Simulation σ] (l : Ledger σ) {d : Delivery} {commands : List Command}
    (taken : l.commands = .install d :: commands) :
    ∃ sim store, (Site.install ⟨l.sim, l.store, []⟩ d).1 = ⟨sim, store, []⟩ ∧
      Work l { l with commands, sim, store } := by
  by_cases borne : l.store.bears .generating d.claim = 0
  · obtain ⟨reason, refused⟩ : ∃ reason, l.store.checkInstall d.index d.key d.version = .error reason := by
      rcases checkInstall_cases l.store d.index d.key d.version with
        ⟨slot, found, key, version, stage, _⟩ | refused
      · have current : slot.claim d.index = d.claim := by simp [Slot.claim, Delivery.claim, key, version]
        have one := bears_one found stage
        rw [current, borne] at one
        cases one
      · exact refused
    refine ⟨l.sim, l.store, ?_, .refuse taken borne⟩
    simp only [Site.install, refused]
  · obtain ⟨slot, found, stage, current⟩ := bears_pos borne
    exact ⟨_, _, congrArg Prod.fst (install_current l.sim found stage current), .install taken found stage current⟩

private theorem toggle_work [Simulation σ] (l : Ledger σ) {key : Key} {i : Nat} {enabled : Bool}
    {commands : List Command} (taken : l.commands = .toggle key i enabled :: commands) :
    ∃ sim store, (Site.toggle ⟨l.sim, l.store, []⟩ key i enabled).1 = ⟨sim, store, []⟩ ∧
      Work l { l with commands, sim, store } := by
  by_cases owned : ∃ slot shape, l.store.live? i = some slot ∧ slot.key = key ∧ slot.shape = some shape
  · obtain ⟨slot, shape, found, rfl, owned⟩ := owned
    refine ⟨_, _, ?_, .toggle taken found owned⟩
    simp [Site.toggle, keyAt, Store.shape, found, owned]
  · refine ⟨_, _, ?_, .ignore taken ?_⟩
    · unfold Site.toggle
      split
      · rename_i owner
        split
        · rename_i shape there
          obtain ⟨slot, found, owner⟩ : ∃ slot, l.store.live? i = some slot ∧ slot.key = key := by
            simpa [keyAt] using owner
          exact absurd ⟨slot, shape, found, owner, by simpa [Store.shape, found] using there⟩ owned
        · rfl
      · rfl
    · intro slot found owner
      by_contra there
      obtain ⟨shape, there⟩ := Option.ne_none_iff_exists'.mp there
      exact owned ⟨slot, shape, found, owner, there⟩

/-- Applying a command is one step, as nobody else works on the store meanwhile. -/
theorem apply_work [Simulation σ] (l : Ledger σ) {command : Command} {commands : List Command}
    (taken : l.commands = command :: commands) :
    ∃ sim store, (Site.apply ⟨l.sim, l.store, []⟩ command).1 = ⟨sim, store, []⟩ ∧
      Work l { l with commands, sim, store } := by
  cases command with
  | install d => exact install_work l taken
  | remove key shape => exact ⟨_, _, rfl, .remove taken⟩
  | toggle key i enabled => exact toggle_work l taken

/-- Applying commands in turn. -/
def applyEach [Simulation σ] (site : Site σ) (tally : Tally) (taken : List Command) : Site σ × Tally :=
  taken.foldl (fun (site, tally) c => let (site, t) := site.apply c; (site, tally + t)) (site, tally)

theorem applyEach_cons [Simulation σ] (site : Site σ) (tally : Tally) (c : Command) (taken : List Command) :
    applyEach site tally (c :: taken) = applyEach (site.apply c).1 (tally + (site.apply c).2) taken := rfl

/-- What applying a command keeps, draining any number of them keeps. The commands that are still to be applied and what
those before them came to may have a part in it. -/
theorem drain_counts [Simulation σ] {K : List Command → Tally → Ledger σ → Prop}
    (step : ∀ l c taken commands tally, l.commands = c :: commands → K (c :: taken) tally l →
      ∃ sim store t, Site.apply ⟨l.sim, l.store, []⟩ c = (⟨sim, store, []⟩, t) ∧
        K taken (tally + t) { l with commands, sim, store })
    (intact : p.Intact) (planner : Planner) (most : Nat)
    (start : K (p.commands.firsts most) Tally.zero (p.ledger planner [] [])) :
    (p.drain most).1.Intact ∧ (p.drain most).1.planner = p.planner ∧
    ∃ tally, (p.drain most).1.drained = p.drained + tally ∧ K [] tally ((p.drain most).1.ledger planner [] []) := by
  have ⟨there, events, requests, commands, quiet⟩ := intact
  have still : { p.interludes with addition := [] } = p.interludes := by rw [quiet]; rfl
  have none : p.interludes.addition = [] := by rw [quiet]; rfl
  have drained (taken commands : List Command) (l : Ledger σ) (tally : Tally) (listed : l.commands = taken ++ commands)
      (start : K taken tally l) : ∃ sim store tally', applyEach ⟨l.sim, l.store, []⟩ tally taken =
        (⟨sim, store, []⟩, tally') ∧ K [] tally' { l with commands, sim, store } := by
    induction taken generalizing l tally with
    | nil =>
      obtain ⟨planner, store, waiting, jobs, queued, sim⟩ := l
      obtain rfl : queued = commands := listed
      exact ⟨sim, store, tally, rfl, start⟩
    | cons c taken ih =>
      obtain ⟨sim, store, t, applied, next⟩ := step l c taken _ tally listed start
      rw [applyEach_cons, applied]
      exact ih { l with commands := taken ++ commands, sim, store } _ rfl next
  obtain ⟨sim, store, tally, applied, last⟩ := drained (p.commands.firsts most) (p.commands.rest most).letters.toList
    (p.ledger planner [] []) Tally.zero (Mailbox.firsts_rest p.commands most).symm start
  have ended : p.drain most = ({ p with
      sim
      store
      commands := p.commands.rest most
      drained := p.drained + tally }, tally) := by
    have applied : Site.applyAll ⟨p.sim, p.store, []⟩ (p.commands.firsts most) = (⟨sim, store, []⟩, tally) := applied
    simp only [drain, Site.drain, none, applied, still]
  rw [ended]
  exact ⟨⟨there, events, requests, commands, quiet⟩, rfl, tally, rfl, last⟩

theorem drain_keeps [Simulation σ] {K : List Command → Ledger σ → Prop}
    (step : ∀ l c taken commands, l.commands = c :: commands → K (c :: taken) l →
      ∃ sim store, (Site.apply ⟨l.sim, l.store, []⟩ c).1 = ⟨sim, store, []⟩ ∧ K taken { l with commands, sim, store })
    (intact : p.Intact) (planner : Planner) (most : Nat)
    (start : K (p.commands.firsts most) (p.ledger planner [] [])) :
    (p.drain most).1.Intact ∧ (p.drain most).1.planner = p.planner ∧ K [] ((p.drain most).1.ledger planner [] []) := by
  obtain ⟨kept, same, _, _, last⟩ := drain_counts (K := fun taken _ l => K taken l)
    (fun l c taken commands _ listed start => by
      obtain ⟨sim, store, applied, next⟩ := step l c taken commands listed start
      exact ⟨sim, store, _, Prod.ext applied rfl, next⟩)
    intact planner most start
  exact ⟨kept, same, last⟩

theorem drain_works [Simulation σ] (intact : p.Intact) (planner : Planner) (most : Nat) :
    (p.drain most).1.Intact ∧ (p.drain most).1.planner = p.planner ∧
    Works (p.ledger planner [] []) ((p.drain most).1.ledger planner [] []) := by
  refine drain_keeps (K := fun _ l => Works (p.ledger planner [] []) l) ?_ intact planner most .refl
  intro l c taken commands listed works
  obtain ⟨sim, store, applied, work⟩ := apply_work l listed
  exact ⟨sim, store, applied, works.tail work⟩

/-! ### Moves and runs -/

/-- A move that is not a pass leaves the planner alone and is made of small steps. -/
theorem move_works [Simulation σ] [Supplier ω] (intact : p.Intact) (planner : Planner) {m : Move ω}
    (other : m ≠ .pass) :
    (p.move m).Intact ∧ (p.move m).planner = p.planner ∧
    Works (p.ledger planner [] []) ((p.move m).ledger planner [] []) := by
  have ⟨there, events, requests, commands, quiet⟩ := intact
  cases m with
  | pass => exact absurd rfl other
  | send event => exact ⟨⟨there, (Mailbox.post_isOpen _ _).trans events, requests, commands, quiet⟩, rfl, .refl⟩
  | supply most => exact supply_works intact planner most
  | closeGate => exact ⟨⟨there, events, requests, commands, quiet⟩, rfl, .refl⟩
  | openGate => exact openGate_works intact planner
  | build place => exact build_works intact planner place
  | drain most => exact drain_works intact planner most
  | world world => exact ⟨⟨there, events, requests, commands, quiet⟩, rfl, .refl⟩
  | poses poses => exact ⟨⟨there, events, requests, commands, quiet⟩, rfl, .refl⟩

theorem pass_left {planner : Planner} (present : p.planner = some planner) :
    p.pass.1 = p.afterPass (Desk.left ((p.desk planner).pass p.events.letters.toList p.poses.sample)) := by
  simp only [pass, present, passWith]
  split <;> rename_i passed <;> rw [passed] <;> rfl

theorem pass_answer {planner : Planner} {report : Report} (present : p.planner = some planner)
    (answer : p.pass.2 = some (.ok report)) :
    ∃ d, (p.desk planner).pass p.events.letters.toList p.poses.sample = .ok d ∧ d.report = report := by
  simp only [pass, present, passWith] at answer
  split at answer
  · rename_i d passed
    exact ⟨d, passed, by simpa using answer⟩
  · simp at answer

/-- Opening a pass is a matter of letters and notes. -/
theorem desk_acts (p : Pipeline σ ω) (planner : Planner) :
    Desk.Acts (p.desk planner) (Desk.left ((p.desk planner).pass p.events.letters.toList p.poses.sample)) := by
  have opening : Desk.Noted
      { p.desk planner with planner := { (p.desk planner).planner with inbox := [] } }
      ((p.desk planner).opened ((p.desk planner).planner.inbox ++ p.events.letters.toList).length) := by
    constructor <;> rfl
  have collected := Relation.ReflTransGen.single (Desk.Clerk.collect (p.desk planner))
  exact (Desk.Counted.acts (Desk.Clerical.counted (collected.tail (.note opening)))).trans (Desk.pass_acts _ _ _)

theorem afterPass_intact (intact : p.Intact) {planner : Planner} {d : Desk} (acts : Desk.Acts (p.desk planner) d) :
    (p.afterPass d).Intact := by
  obtain ⟨commands, requests⟩ := acts.stillOpen
  exact ⟨rfl, intact.events, requests.trans intact.requests, commands.trans intact.commands, intact.interludes⟩

theorem run_intact [Simulation σ] [Supplier ω] (intact : p.Intact) (moves : List (Move ω)) : (p.run moves).Intact := by
  induction moves generalizing p with
  | nil => exact intact
  | cons m moves ih =>
    refine ih (p := p.move m) ?_
    by_cases passing : m = .pass
    · obtain ⟨planner, present⟩ := Option.isSome_iff_exists.mp intact.planner
      rw [passing, move, pass_left present]
      exact afterPass_intact intact (desk_acts p planner)
    · obtain ⟨planner, _⟩ := Option.isSome_iff_exists.mp intact.planner
      exact (move_works intact planner passing).1

private theorem submit_fixed (p : Pipeline σ ω) (job : Job) (lane : Lane) :
    (p.submit job lane).builder = p.builder ∧ (p.submit job lane).drained = p.drained := by
  unfold submit
  dsimp only
  split <;> exact ⟨rfl, rfl⟩

private theorem serve_fixed [Supplier ω] (p : Pipeline σ ω) (r : Request) :
    (p.serve r).1.builder = p.builder ∧ (p.serve r).1.drained = p.drained := by
  have kept : (p.ask r.key).1.builder = p.builder ∧ (p.ask r.key).1.drained = p.drained := ⟨rfl, rfl⟩
  unfold serve excuse
  split
  · exact ⟨rfl, rfl⟩
  · split
    · split <;> exact ⟨rfl, rfl⟩
    · split <;> rename_i asked <;> rw [asked] at kept
      · exact ⟨(submit_fixed _ _ _).1.trans kept.1, (submit_fixed _ _ _).2.trans kept.2⟩
      · exact kept

/-- Nobody changes the builder, and nothing but drains is counted. -/
private theorem move_fixed [Simulation σ] [Supplier ω] (p : Pipeline σ ω) (m : Move ω) :
    (p.move m).builder = p.builder ∧ ((∀ most, m ≠ .drain most) → (p.move m).drained = p.drained) := by
  cases m with
  | drain most => exact ⟨rfl, fun other => absurd rfl (other most)⟩
  | send | closeGate | world | poses => exact ⟨rfl, fun _ => rfl⟩
  | pass =>
    rw [move, Pipeline.pass]
    split
    · exact ⟨rfl, fun _ => rfl⟩
    · simp only [passWith]
      split <;> exact ⟨rfl, fun _ => rfl⟩
  | supply most =>
    have ⟨builder, drained⟩ := supply_keeps (K := fun _ p' => p'.builder = p.builder ∧ p'.drained = p.drained)
      (fun p' r _ same => ⟨(serve_fixed p' r).1.trans same.1, (serve_fixed p' r).2.trans same.2⟩) most ⟨rfl, rfl⟩
    exact ⟨builder, fun _ => drained⟩
  | openGate =>
    have ⟨builder, drained⟩ := openGate_keeps (K := fun _ p' => p'.builder = p.builder ∧ p'.drained = p.drained)
      (fun _ _ _ same => same) ⟨rfl, rfl⟩
    exact ⟨builder, fun _ => drained⟩
  | build place =>
    rcases p.build_cases place with same | ⟨job, parked, same, _⟩ <;> rw [move, same] <;> exact ⟨rfl, fun _ => rfl⟩

/-- Only drains are counted. -/
theorem move_drained [Simulation σ] [Supplier ω] (p : Pipeline σ ω) {m : Move ω} (other : ∀ most, m ≠ .drain most) :
    (p.move m).drained = p.drained := (p.move_fixed m).2 other

/-- Nobody changes the builder. -/
theorem run_builder [Simulation σ] [Supplier ω] (p : Pipeline σ ω) (moves : List (Move ω)) :
    (p.run moves).builder = p.builder := by
  induction moves generalizing p with
  | nil => rfl
  | cons m moves ih => exact (ih (p.move m)).trans (p.move_fixed m).1

/-- What every act of a planner keeps, a chain of acts keeps. -/
theorem acts_keep {J : Ledger σ → Prop} {jobs : List Job} {sim : σ} {d d' : Desk}
    (act : ∀ d d', Desk.Act d d' → d.commands.isOpen = true → J (ofDesk d jobs sim) → J (ofDesk d' jobs sim))
    (acts : Desk.Acts d d') (ready : d.commands.isOpen = true) (start : J (ofDesk d jobs sim)) :
    J (ofDesk d' jobs sim) := by
  induction acts with
  | refl => exact start
  | tail before last ih => exact act _ _ last (Desk.Acts.stillOpen before |>.1.trans ready) ih

private theorem works_keep [Simulation σ] {J : Ledger σ → Prop} (work : ∀ l l', Work l l' → J l → J l')
    {l l' : Ledger σ} (works : Works l l') (start : J l) : J l' := by
  induction works with
  | refl => exact start
  | tail _ last ih => exact work _ _ last ih

/-- What every act of a planner and every small step keeps, every run keeps. -/
theorem run_keeps [Simulation σ] [Supplier ω] {J : Ledger σ → Prop}
    (act : ∀ d d' jobs sim, Desk.Act d d' → d.commands.isOpen = true → J (ofDesk d jobs sim) → J (ofDesk d' jobs sim))
    (work : ∀ l l', Work l l' → J l → J l') (intact : p.Intact) {planner : Planner}
    (present : p.planner = some planner) (start : J (p.ledger planner [] [])) (moves : List (Move ω)) :
    ∃ planner, (p.run moves).planner = some planner ∧ J ((p.run moves).ledger planner [] []) := by
  induction moves generalizing p planner with
  | nil => exact ⟨planner, present, start⟩
  | cons m moves ih =>
    by_cases passing : m = .pass
    · subst m
      have acts := desk_acts p planner
      have ends := pass_left present
      generalize Desk.left ((p.desk planner).pass p.events.letters.toList p.poses.sample) = d at acts ends
      have kept : J ((p.afterPass d).ledger d.planner [] []) :=
        acts_keep (fun d d' => act d d' p.jobs p.sim) acts intact.commands start
      have next := ih (afterPass_intact intact acts) rfl kept
      rwa [← ends] at next
    · obtain ⟨kept, same, works⟩ := move_works intact planner passing
      exact ih kept (same.trans present) (works_keep work works start)

theorem applied_other [Simulation σ] [Supplier ω] {m : Move ω} (other : m ≠ .pass) (moves : List (Move ω)) :
    p.applied (m :: moves) = (p.move m).applied moves := by
  cases m <;> first | rfl | exact absurd rfl other

private theorem unfailing_other [Simulation σ] [Supplier ω] {m : Move ω} (other : m ≠ .pass)
    {moves : List (Move ω)} (unfailing : p.Unfailing (m :: moves)) : (p.move m).Unfailing moves := by
  cases m <;> first | exact unfailing | exact absurd rfl other

/-- What every successful pass and every small step keeps, every run keeps in which no pass fails. The
events applied so far may have a part in it. -/
theorem run_remembers [Simulation σ] [Supplier ω] {J : List Event → Ledger σ → Prop}
    (pass : ∀ past (p : Pipeline σ ω) planner d, p.Intact → p.planner = some planner →
      (p.desk planner).pass p.events.letters.toList p.poses.sample = .ok d → J past (p.ledger planner [] []) →
      J (past ++ p.batch) ((p.afterPass d).ledger d.planner [] []))
    (work : ∀ past l l', Work l l' → J past l → J past l') (intact : p.Intact) {planner : Planner}
    (present : p.planner = some planner) (past : List Event) (start : J past (p.ledger planner [] []))
    {moves : List (Move ω)} (unfailing : p.Unfailing moves) :
    ∃ planner, (p.run moves).planner = some planner ∧ (p.run moves).Intact ∧
      J (past ++ p.applied moves) ((p.run moves).ledger planner [] []) := by
  induction moves generalizing p planner past with
  | nil =>
    refine ⟨planner, present, intact, ?_⟩
    rw [applied, List.append_nil]
    exact start
  | cons m moves ih =>
    by_cases passing : m = .pass
    · subst m
      obtain ⟨⟨report, answer⟩, later⟩ := unfailing
      obtain ⟨d, passed, _⟩ := pass_answer present answer
      have acts := desk_acts p planner
      have ends := pass_left present
      rw [passed] at acts ends
      have next := ih (p := p.pass.1) (ends ▸ afterPass_intact intact acts) (by rw [ends]; rfl) (past ++ p.batch)
        (by rw [ends]; exact pass past p planner d intact present passed start) later
      rw [List.append_assoc] at next
      exact next
    · obtain ⟨kept, same, works⟩ := move_works intact planner passing
      rw [applied_other passing]
      exact ih kept (same.trans present) past (works_keep (work past) works start) (unfailing_other passing unfailing)

end Pipeline

end TerrainStream
