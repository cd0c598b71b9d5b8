import TerrainStream.Proofs.Pipeline.Carriers
import TerrainStream.Proofs.Pipeline.Chronicle

/-! The small steps between passes, with the letters that they send to the planner and the dates that they
leave. While every claim has its carrier nothing is skipped, dropped or turned away, and a claim is given
up for one of two reasons only, either of which the planner is told. -/

namespace TerrainStream

open Cell Store Shape Collision Build Residency Physics World

variable {σ ω : Type}

/-- A ledger with the letters that wait for the planner, and with what has been dated. -/
structure Journal (σ : Type) where
  ledger : Ledger σ
  mail : List Event
  chronicle : Chronicle

namespace Journal

open Ledger

/-- What comes of requests, jobs and events. The world may lack one cell when it is asked for another. -/
inductive Errand (lacks : Key → Key → Prop) : Journal σ → Journal σ → Prop
  | hear (j : Journal σ) (e : Event) : Errand lacks j { j with mail := j.mail ++ [e] }
  | excuse {j : Journal σ} {r : Request} {waiting : List Request} (taken : j.ledger.waiting = r :: waiting)
      (needless : j.ledger.store.refs r.index = 0) :
      Errand lacks j { j with
        ledger := { j.ledger with waiting, store := (j.ledger.store.abandon r.index r.version).1 }
        mail := j.mail ++ [.claimAbandoned r.key] }
  | refuse {j : Journal σ} {r : Request} {waiting : List Request} {key : Key}
      (taken : j.ledger.waiting = r :: waiting) (needed : j.ledger.store.refs r.index ≠ 0) (lacking : lacks r.key key) :
      Errand lacks j { j with
        ledger := { j.ledger with waiting, store := (j.ledger.store.abandon r.index r.version).1 }
        mail := j.mail ++ [.snapshotUnavailable key] }
  | accept {j : Journal σ} {r : Request} {waiting : List Request} {jobs : List Job} {snapshot : Snapshot}
      (taken : j.ledger.waiting = r :: waiting)
      (added : jobs.Perm (⟨r.key, r.index, r.version, r.initial, snapshot⟩ :: j.ledger.jobs)) :
      Errand lacks j { j with ledger := { j.ledger with waiting, jobs }, chronicle := j.chronicle.snap r.claim }
  | build {j : Journal σ} {job : Job} {jobs : List Job} {slot : Slot} (taken : j.ledger.jobs.Perm (job :: jobs))
      (found : j.ledger.store.live? job.index = some slot) (stage : slot.stage = .scheduled)
      (current : slot.claim job.index = job.claim) (shape : Shape) (placeholder : Bool) :
      Errand lacks j { j with ledger := { j.ledger with
        jobs
        store := j.ledger.store.put job.index { slot with stage := .generating }
        commands := j.ledger.commands ++
          [.install ⟨job.key, job.index, job.version, shape, placeholder, job.initial⟩] } }

variable [Simulation σ]

/-- What comes of commands. -/
inductive Landing : Journal σ → Journal σ → Prop
  | install {j : Journal σ} {d : Delivery} {commands : List Command} {slot : Slot}
      (taken : j.ledger.commands = .install d :: commands) (found : j.ledger.store.live? d.index = some slot)
      (stage : slot.stage = .generating) (current : slot.claim d.index = d.claim) :
      Landing j { j with
        ledger := { j.ledger with
          commands
          store := j.ledger.store.put d.index
            { slot with shape := (place j.ledger.sim d slot.active).1, placeholder := d.placeholder, stage := .ready }
          sim := slot.shape.elim (place j.ledger.sim d slot.active).2
            (Simulation.removeShape (place j.ledger.sim d slot.active).2) }
        chronicle := j.chronicle.install d.claim }
  | other {j : Journal σ} {c : Command} {commands : List Command} {sim : σ} (taken : j.ledger.commands = c :: commands)
      (plain : c.claim? = none) (work : Work j.ledger { j.ledger with commands, sim }) :
      Landing j { j with ledger := { j.ledger with commands, sim } }

abbrev Errands (lacks : Key → Key → Prop) : Journal σ → Journal σ → Prop := Relation.ReflTransGen (Errand lacks)

abbrev Landings : Journal σ → Journal σ → Prop := Relation.ReflTransGen Landing

variable {j j' : Journal σ} {lacks : Key → Key → Prop}

theorem Errand.tracked (errand : Errand lacks j j') (tracked : j.ledger.Tracked) : j'.ledger.Tracked := by
  cases errand with
  | hear => exact tracked
  | excuse taken => exact tracked.work (.giveUp taken)
  | refuse taken => exact tracked.work (.giveUp taken)
  | accept taken added => exact tracked.work (.accept taken added)
  | build taken found stage current shape placeholder =>
    exact tracked.work (.build taken found stage current shape placeholder)

theorem Landing.tracked (landing : Landing j j') (tracked : j.ledger.Tracked) : j'.ledger.Tracked := by
  cases landing with
  | install taken found stage current => exact tracked.work (.install taken found stage current)
  | other _ _ work => exact tracked.work work

theorem Errands.tracked (errands : Errands lacks j j') (tracked : j.ledger.Tracked) : j'.ledger.Tracked := by
  induction errands with
  | refl => exact tracked
  | tail _ errand ih => exact errand.tracked ih

theorem Landings.tracked (landings : Landings j j') (tracked : j.ledger.Tracked) : j'.ledger.Tracked := by
  induction landings with
  | refl => exact tracked
  | tail _ landing ih => exact landing.tracked ih

/-- What every errand keeps while every claim has its carrier, any number of them keep. -/
theorem Errands.keep {K : Journal σ → Prop}
    (step : ∀ j j', Errand lacks j j' → j.ledger.Tracked → K j → K j') (errands : Errands lacks j j')
    (tracked : j.ledger.Tracked) (start : K j) : K j' := by
  induction errands with
  | refl => exact start
  | tail before last ih => exact step _ _ last (Errands.tracked before tracked) ih

theorem Landings.keep {K : Journal σ → Prop} (step : ∀ j j', Landing j j' → j.ledger.Tracked → K j → K j')
    (landings : Landings j j') (tracked : j.ledger.Tracked) (start : K j) : K j' := by
  induction landings with
  | refl => exact start
  | tail before last ih => exact step _ _ last (Landings.tracked before tracked) ih

end Journal

namespace Pipeline

open Ledger Journal

/-- The journal of a pipeline, with requests and jobs that have been taken from their queues and not yet been
dealt with. -/
def journal (p : Pipeline σ ω) (planner : Planner) (taken : List Request) (begun : List Job) (c : Chronicle) :
    Journal σ := ⟨p.ledger planner taken begun, p.events.letters.toList, c⟩

variable {p : Pipeline σ ω} {lacks : Key → Key → Prop} {c : Chronicle}

/-- A job whose claim is out is built. -/
theorem runJob_errand (lacks : Key → Key → Prop) (intact : p.Intact) (planner : Planner) (taken : List Request)
    (begun : List Job) {job : Job} {jobs : List Job} (listed : jobs.Perm (job :: (begun ++ p.jobs)))
    (tracked : ({ p.ledger planner taken begun with jobs } : Ledger σ).Tracked) :
    Errand lacks ⟨{ p.ledger planner taken begun with jobs }, p.events.letters.toList, c⟩
      ((p.runJob job).journal planner taken begun c) := by
  rcases runJob_cases p intact.interludes job with
    ⟨spent, outcomes, same⟩ | ⟨slot, shape, placeholder, scratch, outcomes, found, stage, current, _, same⟩
  · have member : job.claim ∈ ({ p.ledger planner taken begun with jobs } : Ledger σ).waits := by
      simp only [waits, List.mem_append, List.mem_map]
      exact .inr ⟨job, listed.mem_iff.mpr List.mem_cons_self, rfl⟩
    exact absurd spent (tracked.carried.borne_waiting member)
  · have built : Errand lacks ⟨{ p.ledger planner taken begun with jobs }, p.events.letters.toList, c⟩ _ :=
      .build listed found stage current shape placeholder
    rw [same]
    simp only [journal, ledger, Mailbox.post_letters intact.commands]
    exact built

theorem openGate_errands [Simulation σ] (intact : p.Intact) (planner : Planner)
    (tracked : (p.ledger planner [] []).Tracked) :
    Errands lacks (p.journal planner [] [] c) (p.openGate.journal planner [] [] c) := by
  have ⟨there, events, requests, commands, quiet⟩ := intact
  have opened : ({ p with parked := none } : Pipeline σ ω).Intact := ⟨there, events, requests, commands, quiet⟩
  refine (openGate_keeps (K := fun begun p' => p'.Intact ∧
    Errands lacks (p.journal planner [] [] c) (p'.journal planner [] begun c)) ?_ ⟨opened, ?_⟩).2
  · rintro p' job begun ⟨intact, errands⟩
    exact ⟨runJob_intact intact job,
      errands.tail (runJob_errand lacks intact planner [] begun (.refl _) (Errands.tracked errands tracked))⟩
  · rw [journal, ledger_opened]
    exact .refl

theorem build_errands (intact : p.Intact) (planner : Planner) (place : Nat)
    (tracked : (p.ledger planner [] []).Tracked) :
    Errands lacks (p.journal planner [] [] c) ((p.build place).journal planner [] [] c) := by
  have ⟨there, events, requests, commands, quiet⟩ := intact
  rcases p.build_cases place with same | ⟨job, parked, same, taken⟩
  · rw [same]
  · have kept : ({ p with parked := some parked } : Pipeline σ ω).Intact := ⟨there, events, requests, commands, quiet⟩
    rw [same]
    exact .single (runJob_errand lacks kept planner [] [] taken tracked)

section Requests

variable {planner : Planner} {taken : List Request} {r : Request}

/-- While every claim has its carrier, a request is for a claim that is out. -/
private theorem current_request (tracked : (p.ledger planner (r :: taken) []).Tracked) :
    ∃ slot, p.store.live? r.index = some slot ∧ slot.stage = .scheduled ∧ slot.version = r.version ∧
      isCurrent p.store r = true := by
  have member : r.claim ∈ (p.ledger planner (r :: taken) []).waits := mem_waits_next rfl
  obtain ⟨slot, found, stage, current⟩ := tracked.carried.waits member
  refine ⟨slot, found, stage, congrArg Claim.version current, ?_⟩
  by_contra spent
  exact tracked.carried.borne_waiting member (isCurrent_false (Bool.eq_false_iff.mpr spent))

/-- A request that got its snapshot turns into a job, which is built at once if the gate is open. -/
private theorem accept_errands [Simulation σ] (intact : p.Intact) (snapshot : Snapshot) (lane : Lane) {job : Job}
    (same : job = ⟨r.key, r.index, r.version, r.initial, snapshot⟩)
    (tracked : (p.ledger planner (r :: taken) []).Tracked) :
    Errands lacks (p.journal planner (r :: taken) [] c)
      ((p.submit job lane).journal planner taken [] (c.snap r.claim)) := by
  have ⟨there, events, requests, commands, quiet⟩ := intact
  unfold submit
  dsimp only
  split
  · rename_i waiting parked
    have added : ((waiting.push (job, lane)).toList.map (·.1)).Perm (job :: p.jobs) := by
      simp [jobs, parked]
    subst same
    exact .single (.accept rfl added)
  · have logged : ({ p with lanes := p.lanes.push (job.key, lane) } : Pipeline σ ω).Intact :=
      ⟨there, events, requests, commands, quiet⟩
    have accepted : Errand lacks (p.journal planner (r :: taken) [] c)
        ⟨{ p.ledger planner taken [] with jobs := job :: p.jobs }, p.events.letters.toList, c.snap r.claim⟩ := by
      subst same
      exact .accept (j := p.journal planner (r :: taken) [] c) rfl (.refl _)
    exact (Relation.ReflTransGen.single accepted).tail
      (runJob_errand lacks logged planner taken [] (.refl _) (accepted.tracked tracked))

private theorem sent_journal (intact : p.Intact) (store : Store) (e : Event) :
    (({ p with store } : Pipeline σ ω).send e).journal planner taken [] c =
      ⟨{ p.ledger planner taken [] with store }, p.events.letters.toList ++ [e], c⟩ := by
  simp only [journal, send, Mailbox.post_letters intact.events]
  rfl

/-- A request is excused if nobody needs its cell; otherwise the world is asked, and it has a snapshot or none. -/
theorem serve_cases [Supplier ω] (intact : p.Intact) (tracked : (p.ledger planner (r :: taken) []).Tracked) :
    (p.store.refs r.index = 0 ∧ p.serve r =
      (({ p with store := (p.store.abandon r.index r.version).1 } : Pipeline σ ω).send (.claimAbandoned r.key),
        { SupplyTally.zero with skipped := 1 })) ∨
    (p.store.refs r.index ≠ 0 ∧ ∃ world snapshot, Supplier.snapshot p.world r.key = (world, .ok snapshot) ∧ p.serve r =
      (({ p with world } : Pipeline σ ω).submit ⟨r.key, r.index, r.version, r.initial, snapshot⟩ (laneOf r),
        { SupplyTally.zero with taken := 1 })) ∨
    (p.store.refs r.index ≠ 0 ∧ ∃ world e, Supplier.snapshot p.world r.key = (world, .error e) ∧ p.serve r =
      (({ p with world, store := (p.store.abandon r.index r.version).1 } : Pipeline σ ω).send
        (.snapshotUnavailable e.key), { SupplyTally.zero with unavailable := 1 })) := by
  obtain ⟨slot, found, stage, version, current⟩ := current_request tracked
  by_cases free : p.store.refs r.index = 0
  · have excused : p.excuse r =
        ({ p with store := (p.store.abandon r.index r.version).1 } : Pipeline σ ω).send (.claimAbandoned r.key) := by
      simp only [excuse, ← version, abandon_current found (show slot.stage.isInFlight = true by rw [stage]; rfl)]
    exact .inl ⟨free, by simp [serve, current, free, excused]⟩
  · have asked := ask_quiet intact.interludes r.key
    cases answer : Supplier.snapshot p.world r.key with
    | mk world result =>
      rw [answer] at asked
      cases result with
      | ok snapshot => exact .inr (.inl ⟨free, world, snapshot, rfl, by simp [serve, current, free, asked]⟩)
      | error e => exact .inr (.inr ⟨free, world, e, rfl, by simp [serve, current, free, asked]⟩)

/-- Serving a request is an errand, and one more if a build follows at once. -/
theorem serve_errands [Simulation σ] [Supplier ω] (intact : p.Intact)
    (tracked : (p.ledger planner (r :: taken) []).Tracked)
    (lacking : (∀ (world : ω) e, (Supplier.snapshot world r.key).2 = .error e → lacks r.key e.key) ∨
      (p.serve r).2.unavailable = 0) :
    Errands lacks (p.journal planner (r :: taken) [] c) ((p.serve r).1.journal planner taken [] (p.noteServe c r)) := by
  have ⟨there, events, requests, commands, quiet⟩ := intact
  unfold noteServe
  rcases serve_cases intact tracked with
    ⟨free, served⟩ | ⟨needed, world, snapshot, _, served⟩ | ⟨needed, world, e, answer, served⟩
  · rw [served, sent_journal intact]
    exact .single (.excuse (j := p.journal planner (r :: taken) [] c) rfl free)
  · have kept : ({ p with world } : Pipeline σ ω).Intact := ⟨there, events, requests, commands, quiet⟩
    rw [served, if_pos rfl]
    exact accept_errands kept snapshot _ rfl tracked
  · have kept : ({ p with world } : Pipeline σ ω).Intact := ⟨there, events, requests, commands, quiet⟩
    have lacking : lacks r.key e.key := by
      rcases lacking with lacking | none
      · exact lacking p.world e (congrArg Prod.snd answer)
      · rw [served] at none
        cases none
    rw [served, sent_journal kept]
    exact .single (.refuse (j := p.journal planner (r :: taken) [] c) rfl needed lacking)

theorem unavailable_le [Supplier ω] (p : Pipeline σ ω) (tally : SupplyTally) (taken : List Request) :
    tally.unavailable ≤ (serveAll p tally taken).2.unavailable := by
  induction taken generalizing p tally with
  | nil => exact Nat.le_refl _
  | cons r taken ih =>
    have more : tally.unavailable ≤ (tally + (p.serve r).2).unavailable := Nat.le_add_right _ _
    exact Nat.le_trans more (ih (p.serve r).1 (tally + (p.serve r).2))

private theorem serveAll_errands [Simulation σ] [Supplier ω] (intact : p.Intact) (tally : SupplyTally)
    (tracked : (p.ledger planner taken []).Tracked)
    (lacking : (∀ (world : ω) key e, (Supplier.snapshot world key).2 = .error e → lacks key e.key) ∨
      (serveAll p tally taken).2.unavailable = 0) :
    Errands lacks (p.journal planner taken [] c)
      ((serveAll p tally taken).1.journal planner [] [] (p.noteSupply c taken)) := by
  induction taken generalizing p tally c with
  | nil => exact .refl
  | cons r taken ih =>
    rw [serveAll_cons] at lacking ⊢
    obtain ⟨kept, _, _⟩ := serve_works intact planner taken r
    have first := serve_errands (c := c) intact tracked (lacking.imp (fun lacking world e => lacking world r.key e)
      fun none => by
        have most := unavailable_le (p.serve r).1 (tally + (p.serve r).2) taken
        have sum : (tally + (p.serve r).2).unavailable = tally.unavailable + (p.serve r).2.unavailable := rfl
        omega)
    exact first.trans (ih kept _ (first.tracked tracked) lacking)

/-- Supplying the world's snapshots is errands alone. -/
theorem supply_errands [Simulation σ] [Supplier ω] (intact : p.Intact) (tracked : (p.ledger planner [] []).Tracked)
    (most : Nat)
    (lacking : (∀ (world : ω) key e, (Supplier.snapshot world key).2 = .error e → lacks key e.key) ∨
      (p.supply most).2.unavailable = 0) :
    Errands lacks (p.journal planner [] [] c) ((p.supply most).1.journal planner [] [] (p.note c (.supply most))) := by
  have ⟨there, events, requests, commands, quiet⟩ := intact
  have kept : ({ p with requests := p.requests.rest most } : Pipeline σ ω).Intact :=
    ⟨there, events, requests, commands, quiet⟩
  have listed := p.ledger_taken planner most
  rw [journal, listed]
  exact serveAll_errands kept SupplyTally.zero (listed ▸ tracked) lacking

end Requests

/-- A command that is not an install leaves the store to itself. -/
private theorem plain_landing [Simulation σ] {j : Journal σ} {command : Command} {commands : List Command}
    (taken : j.ledger.commands = command :: commands) (plain : command.claim? = none)
    (same : (Site.apply ⟨j.ledger.sim, j.ledger.store, []⟩ command).1.store = j.ledger.store) :
    ∃ sim store, (Site.apply ⟨j.ledger.sim, j.ledger.store, []⟩ command).1 = ⟨sim, store, []⟩ ∧
      Landing j ⟨{ j.ledger with commands, sim, store }, j.mail, j.chronicle⟩ := by
  obtain ⟨sim, store, applied, work⟩ := apply_work j.ledger taken
  rw [applied] at same
  obtain rfl : store = j.ledger.store := same
  exact ⟨sim, _, applied, .other taken plain work⟩

/-- Applying a command is a landing. -/
private theorem apply_landing [Simulation σ] {j : Journal σ} (tracked : j.ledger.Tracked) {command : Command}
    {commands : List Command} (taken : j.ledger.commands = command :: commands) :
    ∃ sim store, (Site.apply ⟨j.ledger.sim, j.ledger.store, []⟩ command).1 = ⟨sim, store, []⟩ ∧
      Landing j ⟨{ j.ledger with commands, sim, store }, j.mail,
        noteApply ⟨j.ledger.sim, j.ledger.store, []⟩ j.chronicle command⟩ := by
  cases command with
  | install d =>
    obtain ⟨slot, found, stage, current⟩ := tracked.delivered taken
    have applied : Site.apply ⟨j.ledger.sim, j.ledger.store, []⟩ (.install d) = _ :=
      install_current j.ledger.sim found stage current
    refine ⟨_, _, congrArg Prod.fst applied, ?_⟩
    rw [noteApply, applied, if_pos rfl]
    exact .install taken found stage current
  | remove key shape => exact plain_landing taken rfl rfl
  | toggle key i enabled =>
    refine plain_landing taken rfl ?_
    simp only [Site.apply, Site.toggle]
    split
    · split <;> rfl
    · rfl

/-- Draining commands is landings alone. -/
theorem drain_landings [Simulation σ] [Supplier ω] (intact : p.Intact) {planner : Planner}
    (tracked : (p.ledger planner [] []).Tracked) (most : Nat) :
    Landings (p.journal planner [] [] c) ((p.drain most).1.journal planner [] [] (p.note c (.drain most))) := by
  have none : p.interludes.addition = [] := by rw [intact.interludes]; rfl
  have start : noteDrain ⟨p.sim, p.store, []⟩ c (p.commands.firsts most) = p.note c (.drain most) := by
    rw [note, none]
  obtain ⟨_, _, c', landings, ended⟩ := drain_keeps (K := fun taken l => ∃ c',
    Landings (p.journal planner [] [] c) ⟨l, p.events.letters.toList, c'⟩ ∧
      noteDrain ⟨l.sim, l.store, []⟩ c' taken = p.note c (.drain most)) (fun l command taken commands listed kept => by
        obtain ⟨c', landings, noted⟩ := kept
        obtain ⟨sim, store, applied, landing⟩ := apply_landing (Landings.tracked landings tracked) listed
        rw [noteDrain, applied] at noted
        exact ⟨sim, store, applied, _, landings.tail landing, noted⟩)
    intact planner most ⟨c, .refl, start⟩
  exact ended ▸ landings

/-- A move that is not a pass is landings alone, if it is a drain, and errands alone otherwise. -/
theorem move_deeds [Simulation σ] [Supplier ω] (lacks : Key → Key → Prop) (intact : p.Intact) {planner : Planner}
    (tracked : (p.ledger planner [] []).Tracked) {m : Move ω} (other : m ≠ .pass)
    (lacking : (∀ (world : ω) key e, (Supplier.snapshot world key).2 = .error e → lacks key e.key) ∨
      p.unanswered m = 0) :
    (∃ most, m = .drain most) ∧ Landings (p.journal planner [] [] c) ((p.move m).journal planner [] [] (p.note c m)) ∨
    (∀ most, m ≠ .drain most) ∧
      Errands lacks (p.journal planner [] [] c) ((p.move m).journal planner [] [] (p.note c m)) := by
  cases m with
  | pass => exact absurd rfl other
  | drain most => exact .inl ⟨⟨most, rfl⟩, drain_landings intact tracked most⟩
  | _ => ?_
  all_goals refine .inr ⟨fun _ drains => (nomatch drains), ?_⟩
  case send event =>
    have sent : (p.move (.send event)).journal planner [] [] c = _ := sent_journal intact p.store event
    have undated : p.note c (.send event) = c := rfl
    rw [undated, sent]
    exact .single (.hear (p.journal planner [] [] c) event)
  case supply most => exact supply_errands intact tracked most lacking
  case openGate => exact openGate_errands intact planner tracked
  case build place => exact build_errands intact planner place tracked
  all_goals exact .refl

end Pipeline

end TerrainStream
