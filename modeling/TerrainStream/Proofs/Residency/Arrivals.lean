import TerrainStream.Proofs.Residency.Admission
import TerrainStream.Proofs.Residency.Steady
import TerrainStream.Residency.Run

/-! The planner's loop applies what it is sent, each event once and in the order of sending, up to the first shutdown.
Without a shutdown it ends when every sender has gone, and what came after its last pass had begun stays in its inbox. -/

namespace TerrainStream.Residency

open Physics Store Collision

/-- Whether an event asks the planner to stop. -/
def Event.isShutdown : Event → Bool
  | .shutdown => true
  | _ => false

/-- The events sent around one pass. -/
def Round.sent (round : Round) : List Event := round.before ++ round.during

/-- The events that come before the first shutdown. -/
def beforeShutdown (events : List Event) : List Event := events.takeWhile (!·.isShutdown)

variable {batch : List Event}

theorem beforeShutdown_append (quiet : batch.any Event.isShutdown = false) (events : List Event) :
    beforeShutdown (batch ++ events) = batch ++ beforeShutdown events := by
  refine List.takeWhile_append_of_pos fun e listed => ?_
  simpa using List.any_eq_false.mp quiet e listed

theorem beforeShutdown_within (stops : batch.any Event.isShutdown = true) (events : List Event) :
    beforeShutdown (batch ++ events) <+: batch := by
  induction batch with
  | nil => cases stops
  | cons e batch ih =>
    unfold beforeShutdown at *
    rw [List.cons_append, List.takeWhile_cons]
    split
    · rename_i further
      have goes : e.isShutdown = false := by simpa using further
      have later : batch.any Event.isShutdown = true := by simpa [goes] using stops
      exact List.cons_prefix_cons.mpr ⟨rfl, ih later⟩
    · exact List.nil_prefix

theorem receive_whole (ending : Ending) (events : List Event) :
    (Wait.receive ending events).received ++ (Wait.receive ending events).left = events := by
  induction events with
  | nil => rfl
  | cons e events ih =>
    cases e with
    | shutdown => rfl
    | _ => exact congrArg _ ih

/-- Only the loss of every sender stops the loop in a wait; all that came has been received by then. -/
theorem receive_stopped {ending : Ending} {events : List Event}
    (stopped : (Wait.receive ending events).running = false) :
    ending = .deserted ∧ (Wait.receive ending events).received = events ∧ events.any Event.isShutdown = false := by
  induction events with
  | nil =>
    cases ending with
    | due => cases stopped
    | deserted => exact ⟨rfl, rfl, rfl⟩
  | cons e events ih =>
    cases e with
    | shutdown => cases stopped
    | _ =>
      obtain ⟨alone, received, quiet⟩ := ih stopped
      exact ⟨alone, congrArg _ received, quiet⟩

namespace Desk

variable {d d' d'' : Desk} {left queued : List Event} {probe : BodyId → Option Pose}
  {rounds : List (Round × (Shared → Shared))}

private theorem running_of_allotment (same : d'.allotment = d.allotment) : d'.planner.running = d.planner.running :=
  congrArg Allotment.running same

private theorem applyEvents_running (applying : d.applyEvents batch = .ok d') :
    d'.planner.running = (d.planner.running && !batch.any Event.isShutdown) := by
  induction batch generalizing d with
  | nil =>
    cases applying
    simp
  | cons e batch ih =>
    obtain ⟨next, first, rest⟩ := foldlM_cons_ok.mp applying
    have heard := congrArg Allotment.running (applyEvent_allotment d e)
    rw [first] at heard
    have now : next.planner.running = (d.planner.running && !e.isShutdown) := by
      refine heard.trans ?_
      cases e <;> simp [Allotment.hear, Event.isShutdown, allotment]
    rw [ih rest, now, List.any_cons, Bool.not_or, Bool.and_assoc]

private theorem dispatch_running (d : Desk) : d.dispatch.planner.running = d.planner.running := by
  have dispatched (given : List Request) (d : Desk) :
      (given.foldl dispatchOne d).planner.running = d.planner.running := by
    induction given generalizing d with
    | nil => rfl
    | cons r given ih =>
      rw [List.foldl_cons, ih]
      unfold dispatchOne
      split <;> rfl
  exact dispatched _ _

private theorem settle_running (d : Desk) : d.settle.planner.running = d.planner.running := by
  rw [settle_eq, dispatch_running]
  exact running_of_allotment (gathered_allotment d)

/-- The loop goes on after a pass unless the pass has applied a shutdown. -/
theorem pass_running (passed : d.pass queued probe = .ok d') :
    d'.planner.running = (d.planner.running && !(d.planner.inbox ++ queued).any Event.isShutdown) := by
  obtain ⟨applied, followed, applying, following, rfl⟩ := pass_cases passed
  have events := applyEvents_running applying
  have bodies : followed.allotment = applied.allotment := by
    have same := followAll_allotment applied probe
    rwa [following] at same
  have closing (d : Desk) : d.closed.planner.running = d.planner.running := rfl
  rw [closing, settle_running, running_of_allotment bodies, events]
  rfl

/-- The events that the passes of the loop apply, in turn. -/
def applied (d : Desk) (left : List Event) : List (Round × (Shared → Shared)) → List Event
  | [] => []
  | (round, others) :: rest =>
    if d.planner.running then
      match (d.amid others).pass (left ++ round.before) round.probe with
      | .error _ => []
      | .ok d' =>
        let batch := d.planner.inbox ++ (left ++ round.before)
        if d'.planner.running then
          let wait := Wait.receive round.ending round.during
          batch ++ applied (d'.waited wait) wait.left rest
        else batch
    else []

/-- The course of the loop from desk to desk, with the events that are applied on the way. -/
inductive Course : Desk → List Event → Desk → Prop
  | start (d : Desk) : Course d [] d
  | amid {d d' : Desk} {past : List Event} (course : Course d past d') (others : Shared → Shared) :
      Course d past (d'.amid others)
  | opened {d d' : Desk} {past : List Event} (course : Course d past d') (batch : Nat) :
      Course d past (d'.opened batch)
  | event {d d' d'' : Desk} {past : List Event} {e : Event} (course : Course d past d')
      (applying : d'.applyEvent e = .ok d'') : Course d (past ++ [e]) d''
  | settled {d d' d'' : Desk} {past : List Event} {probe : BodyId → Option Pose} (course : Course d past d')
      (following : d'.followAll probe = .ok d'') : Course d past d''.settle.closed
  | waited {d d' : Desk} {past : List Event} (course : Course d past d') (wait : Wait) :
      Course d past (d'.waited wait)

theorem Course.trans {d d' d'' : Desk} {past later : List Event} (first : Course d past d')
    (second : Course d' later d'') : Course d (past ++ later) d'' := by
  induction second with
  | start => rwa [List.append_nil]
  | amid _ others ih => exact ih.amid others
  | opened _ batch ih => exact ih.opened batch
  | event _ applying ih =>
    rw [← List.append_assoc]
    exact ih.event applying
  | settled _ following ih => exact ih.settled following
  | waited _ wait ih => exact ih.waited wait

theorem applyEvents_course (applying : d.applyEvents batch = .ok d') : Course d batch d' := by
  induction batch generalizing d with
  | nil =>
    cases applying
    exact .start _
  | cons e batch ih =>
    obtain ⟨next, first, rest⟩ := foldlM_cons_ok.mp applying
    exact ((Course.start d).event first).trans (ih rest)

theorem pass_course (passed : d.pass queued probe = .ok d') : Course d (d.planner.inbox ++ queued) d' := by
  obtain ⟨applied, followed, applying, following, rfl⟩ := pass_cases passed
  exact (((Course.start d).opened _).trans (applyEvents_course applying)).settled following

theorem waited_inbox (d : Desk) (wait : Wait) : (d.waited wait).planner.inbox = wait.received := rfl

theorem runAmong_idle (idle : d.planner.running = false) (left : List Event)
    (rounds : List (Round × (Shared → Shared))) :
    d.runAmong left rounds = (d, none) ∧ d.applied left rounds = [] := by
  cases rounds with
  | nil => exact ⟨rfl, rfl⟩
  | cons first rest => simp [runAmong, applied, idle]

/-- One turn of a loop whose passes come out well: a pass, and then either the end or a wait and what follows it. -/
theorem runAmong_turn {round : Round} {others : Shared → Shared} {rest : List (Round × (Shared → Shared))}
    (awake : d.planner.running = true) (passes : (d.runAmong left ((round, others) :: rest)).2 = none) :
    ∃ d', (d.amid others).pass (left ++ round.before) round.probe = .ok d' ∧
      ((d'.planner.running = false ∧ d.runAmong left ((round, others) :: rest) = (d', none) ∧
          d.applied left ((round, others) :: rest) = d.planner.inbox ++ (left ++ round.before)) ∨
        (d'.planner.running = true ∧
          let wait := Wait.receive round.ending round.during
          d.runAmong left ((round, others) :: rest) = (d'.waited wait).runAmong wait.left rest ∧
          d.applied left ((round, others) :: rest) =
            d.planner.inbox ++ (left ++ round.before) ++ (d'.waited wait).applied wait.left rest)) := by
  rw [runAmong, if_pos awake] at passes ⊢
  rw [applied, if_pos awake]
  cases passing : (d.amid others).pass (left ++ round.before) round.probe with
  | error failure =>
    rw [passing] at passes
    cases passes
  | ok d' =>
    refine ⟨d', rfl, ?_⟩
    cases running : d'.planner.running with
    | false => simp [running]
    | true => simp [running]

/-- What a loop is said to apply is what happens to its desk. -/
theorem applied_course (passes : (d.runAmong left rounds).2 = none) :
    Course d (d.applied left rounds) (d.runAmong left rounds).1 := by
  induction rounds generalizing d left with
  | nil => exact .start d
  | cons first rest ih =>
    cases awake : d.planner.running with
    | false =>
      obtain ⟨ended, none⟩ := runAmong_idle awake left (first :: rest)
      rw [ended, none]
      exact .start d
    | true =>
      obtain ⟨d', passed, ⟨_, ended, batch⟩ | ⟨_, onward, batch⟩⟩ := runAmong_turn awake passes
      · rw [ended, batch]
        exact (Course.amid (.start d) first.2).trans (pass_course passed)
      · rw [onward] at passes
        rw [onward, batch]
        exact (((Course.amid (.start d) first.2).trans (pass_course passed)).waited _).trans (ih passes)

/-- How a loop that has ended has treated what was sent: it applied a shutdown with all that came before it, or it was
deserted in the middle of a wait, and applied all but what it had received in that wait. -/
inductive Upshot (rounds : List (Round × (Shared → Shared))) (sent applied kept : List Event) : Prop
  | stopped (stops : sent.any Event.isShutdown = true) (part : applied <+: sent) (all : beforeShutdown sent <+: applied)
  | deserted (quiet : sent.any Event.isShutdown = false) {last : Round × (Shared → Shared)} (listed : last ∈ rounds)
      (alone : last.1.ending = .deserted) (delivered : sent = applied ++ last.1.during) (waits : kept = last.1.during)

/-- A batch without a shutdown has been applied in front of what came later. -/
theorem Upshot.later {sent applied kept : List Event} {first : Round × (Shared → Shared)}
    (quiet : batch.any Event.isShutdown = false) (upshot : Upshot rounds sent applied kept) :
    Upshot (first :: rounds) (batch ++ sent) (batch ++ applied) kept := by
  have whole : (batch ++ sent).any Event.isShutdown = sent.any Event.isShutdown := by
    rw [List.any_append, quiet, Bool.false_or]
  cases upshot with
  | stopped stops part all =>
    refine .stopped (whole.trans stops) ((List.prefix_append_right_inj batch).mpr part) ?_
    rw [beforeShutdown_append quiet]
    exact (List.prefix_append_right_inj batch).mpr all
  | deserted hushed listed alone delivered waits =>
    refine .deserted (whole.trans hushed) (List.mem_cons_of_mem _ listed) alone ?_ waits
    rw [List.append_assoc, ← delivered]

theorem runAmong_delivers (awake : d.planner.running = true)
    (lone : rounds.Pairwise fun earlier later => earlier.1.ending = .deserted → later.1.sent = [])
    (passes : (d.runAmong left rounds).2 = none) (halted : (d.runAmong left rounds).1.planner.running = false) :
    Upshot rounds (d.planner.inbox ++ (left ++ rounds.flatMap (·.1.sent))) (d.applied left rounds)
      (d.runAmong left rounds).1.planner.inbox := by
  induction rounds generalizing d left with
  | nil => cases awake.symm.trans halted
  | cons first rest ih =>
    obtain ⟨round, others⟩ := first
    obtain ⟨first, lone⟩ := List.pairwise_cons.mp lone
    obtain ⟨d', passed, turn⟩ := runAmong_turn awake passes
    have goes : d'.planner.running = !(d.planner.inbox ++ (left ++ round.before)).any Event.isShutdown := by
      rw [pass_running passed]
      simp [amid, awake]
    have whole : d.planner.inbox ++ (left ++ ((round, others) :: rest).flatMap (·.1.sent)) =
        (d.planner.inbox ++ (left ++ round.before)) ++ (round.during ++ rest.flatMap (·.1.sent)) := by
      simp [Round.sent]
    rw [whole]
    generalize d.planner.inbox ++ (left ++ round.before) = batch at turn goes
    rcases turn with ⟨ended, _, applied⟩ | ⟨ongoing, onward, applied⟩
    · have stops : batch.any Event.isShutdown = true := by simpa [ended] using goes.symm
      rw [applied]
      refine .stopped ?_ (List.prefix_append _ _) (beforeShutdown_within stops _)
      rw [List.any_append, stops, Bool.true_or]
    · have quiet : batch.any Event.isShutdown = false := by simpa [ongoing] using goes.symm
      rw [onward] at passes halted ⊢
      rw [applied]
      cases waiting : (Wait.receive round.ending round.during).running with
      | true =>
        have next := ih waiting lone passes halted
        -- What follows starts from what the wait has received, with the rest still queued.
        rw [waited_inbox, ← List.append_assoc, receive_whole] at next
        exact next.later quiet
      | false =>
        obtain ⟨alone, received, hushed⟩ := receive_stopped waiting
        obtain ⟨ended, nothing⟩ := runAmong_idle (d := d'.waited (Wait.receive round.ending round.during)) waiting
          (Wait.receive round.ending round.during).left rest
        have silent : rest.flatMap (·.1.sent) = [] :=
          List.flatMap_eq_nil_iff.mpr fun later listed => first later listed alone
        rw [silent, ended, nothing, List.append_nil, List.append_nil]
        refine .deserted ?_ List.mem_cons_self alone rfl received
        rw [List.any_append, quiet, hushed]
        rfl

/-- The passes of a loop that has ended well have applied what the planner was sent, each event once and in the order
of sending, and all of it up to the first shutdown. When no shutdown was sent the loop has ended in a wait that every
sender deserted, and just what came in that wait has not been applied and is still in the inbox. -/
theorem arrivals_are_applied (d : Desk) (rounds : List (Round × (Shared → Shared)))
    (awake : d.planner.running = true)
    (lone : rounds.Pairwise fun earlier later => earlier.1.ending = .deserted → later.1.sent = [])
    (passes : (d.runAmong [] rounds).2 = none) (halted : (d.runAmong [] rounds).1.planner.running = false) :
    let sent := d.planner.inbox ++ rounds.flatMap (·.1.sent)
    let ended := (d.runAmong [] rounds).1
    Course d (d.applied [] rounds) ended ∧ d.applied [] rounds <+: sent ∧
    (sent.any Event.isShutdown = true → beforeShutdown sent <+: d.applied [] rounds) ∧
    (sent.any Event.isShutdown = false → ∃ last ∈ rounds, last.1.ending = .deserted ∧
      sent = d.applied [] rounds ++ last.1.during ∧ ended.planner.inbox = last.1.during) := by
  intro sent ended
  refine ⟨applied_course passes, ?_⟩
  cases runAmong_delivers awake lone passes halted with
  | stopped stops part all =>
    refine ⟨part, fun _ => all, fun quiet => ?_⟩
    cases stops.symm.trans quiet
  | deserted quiet listed alone delivered waits =>
    refine ⟨⟨_, delivered.symm⟩, fun stops => ?_, fun _ => ⟨_, listed, alone, delivered, waits⟩⟩
    cases stops.symm.trans quiet

private def bench : Desk :=
  ⟨Planner.new (Cell.Grid.ofSize 8) Pacing.standard Margins.standard, Store.ofLimits 0 1, Mailbox.empty, Mailbox.empty,
    Report.ofPass 0⟩

/-- Somebody else takes the requests before the second pass. -/
private def visited : List (Round × (Shared → Shared)) :=
  [(⟨[.requested ⟨5⟩], [.prioritized ⟨5⟩ .edit, .released ⟨5⟩, .shutdown, .requested ⟨6⟩], .deserted, fun _ => none⟩, id),
    (⟨[], [], .due, fun _ => none⟩, fun shared => { shared with requests := Mailbox.empty })]

/-- A shutdown comes after three events, and all three are applied. -/
theorem arrivals_are_applied_before_shutdown :
    ∃ future, bench.applied [] visited = [.requested ⟨5⟩, .prioritized ⟨5⟩ .edit, .released ⟨5⟩] ++ future := by
  obtain ⟨future, all⟩ := (arrivals_are_applied bench visited (by decide +kernel) (by simp [visited, Round.sent])
    (by decide +kernel) (by decide +kernel)).2.2.1 rfl
  exact ⟨future, all.symm⟩

/-- A cell is requested before the first pass and released after it, and then every sender goes: the release is not
applied, and the cell stays referenced. -/
theorem deserted_arrivals_are_lost :
    let round : Round := ⟨[.requested ⟨5⟩], [.released ⟨5⟩], .deserted, fun _ => none⟩
    let (ended, fault) := bench.runAmong [] [(round, id)]
    fault.isNone = true ∧ ended.planner.running = false ∧ ended.planner.inbox.length = 1 ∧
      ended.store.refs 0 = 1 ∧ (bench.applied [] [(round, id)]).length = 1 := by
  decide +kernel

end Desk

end TerrainStream.Residency
