import TerrainStream.Proofs.Pipeline.Ledger
import TerrainStream.Proofs.Residency.Backlog

/-! Claims and what carries them. A claim that waits is carried by one request or one job, a claim whose
build is done by one delivery, and nothing carries a claim that is over. -/

namespace TerrainStream

open Cell Store Shape Collision Build Residency Physics World

variable {σ ω : Type}

/-- The claim that a command is to finish, if it is to finish one. -/
def Collision.Command.claim? : Command → Option Claim
  | .install d => some d.claim
  | _ => none

/-- The claims that are out on a store and what carries them, counted against each other. -/
structure Carried (s : Store) (waiting delivered : List Claim) : Prop where
  sound : s.Sound
  scheduled : ∀ c, waiting.count c = s.bears .scheduled c
  generating : ∀ c, delivered.count c = s.bears .generating c

namespace Carried

variable {s s' : Store} {waiting waiting' delivered delivered' : List Claim} {i : Nat} {slot fresh : Slot}
  {key : Key} {c : Claim}

theorem perm (carried : Carried s waiting delivered) (same : waiting'.Perm waiting) : Carried s waiting' delivered :=
  ⟨carried.sound, fun c => (same.count_eq c).trans (carried.scheduled c), carried.generating⟩

theorem perm_delivered (carried : Carried s waiting delivered) (same : delivered'.Perm delivered) :
    Carried s waiting delivered' :=
  ⟨carried.sound, carried.scheduled, fun c => (same.count_eq c).trans (carried.generating c)⟩

theorem borne_waiting (carried : Carried s waiting delivered) (member : c ∈ waiting) : s.bears .scheduled c ≠ 0 := by
  rw [← carried.scheduled c]
  exact Nat.ne_of_gt (List.count_pos_iff.mpr member)

theorem borne_delivered (carried : Carried s waiting delivered) (member : c ∈ delivered) :
    s.bears .generating c ≠ 0 := by
  rw [← carried.generating c]
  exact Nat.ne_of_gt (List.count_pos_iff.mpr member)

/-- Whatever waits names a tenant that waits for it. -/
theorem waits (carried : Carried s waiting delivered) (member : c ∈ waiting) :
    ∃ slot, s.live? c.index = some slot ∧ slot.stage = .scheduled ∧ slot.claim c.index = c :=
  bears_pos (carried.borne_waiting member)

/-- Whatever is delivered names a tenant whose build is under way. -/
theorem builds (carried : Carried s waiting delivered) (member : c ∈ delivered) :
    ∃ slot, s.live? c.index = some slot ∧ slot.stage = .generating ∧ slot.claim c.index = c :=
  bears_pos (carried.borne_delivered member)

/-- No claim waits twice. -/
theorem once (carried : Carried s waiting delivered) : waiting.Nodup :=
  List.nodup_iff_count.mpr fun c => carried.scheduled c ▸ s.bears_le_one .scheduled c

/-- What waits is not being delivered. -/
theorem waits_apart (carried : Carried s waiting delivered) (waits : c ∈ waiting) : c ∉ delivered := by
  intro builds
  obtain ⟨slot, found, stage, _⟩ := carried.waits waits
  obtain ⟨other, found', stage', _⟩ := carried.builds builds
  rw [found] at found'
  cases found'
  rw [stage] at stage'
  cases stage'

/-- A tenant may be rewritten if the carriers change as the claim that it bears does. -/
theorem put (carried : Carried s waiting delivered) (found : s.live? i = some slot)
    (kept : fresh.live = slot.live) (same : fresh.key = slot.key)
    (waits : ∀ c, waiting'.count c + slot.bears i .scheduled c = waiting.count c + fresh.bears i .scheduled c)
    (builds : ∀ c, delivered'.count c + slot.bears i .generating c =
      delivered.count c + fresh.bears i .generating c) :
    Carried (s.put i fresh) waiting' delivered' := by
  refine ⟨carried.sound.put found kept same, ?_, ?_⟩
  · intro c
    have trade : (s.put i fresh).bears .scheduled c + _ = _ := bears_put found kept
    have before := carried.scheduled c
    have change := waits c
    omega
  · intro c
    have trade : (s.put i fresh).bears .generating c + _ = _ := bears_put found kept
    have before := carried.generating c
    have change := builds c
    omega

/-- What else is known of a tenant has nothing to do with its carrier. -/
theorem rewrite (carried : Carried s waiting delivered) (found : s.live? i = some slot)
    (kept : fresh.live = slot.live) (stage : fresh.stage = slot.stage) (same : fresh.claim i = slot.claim i) :
    Carried (s.put i fresh) waiting delivered := by
  have key : fresh.key = slot.key := congrArg Claim.key same
  have bears (other : Stage) (c : Claim) : fresh.bears i other c = slot.bears i other c := by
    simp only [Slot.bears, stage, same]
  exact carried.put found kept key (fun c => by rw [bears]) (fun c => by rw [bears])

theorem schedule (carried : Carried s waiting delivered) (found : s.live? i = some slot)
    (accepts : slot.stage.acceptsClaim = true) :
    Carried (s.put i { slot with stage := .scheduled, version := slot.version + 1 })
      (⟨slot.key, i, slot.version + 1⟩ :: waiting) delivered := by
  have unscheduled : slot.stage ≠ .scheduled := fun same => by rw [same] at accepts; cases accepts
  have idle : slot.stage ≠ .generating := fun same => by rw [same] at accepts; cases accepts
  refine carried.put found rfl rfl ?_ ?_
  · intro c
    rw [Slot.bears_none unscheduled, Slot.bears_in rfl, List.count_cons]
    simp only [beq_iff_eq]
    rfl
  · intro c
    rw [Slot.bears_none idle, Slot.bears_none (by simp)]

theorem begin (carried : Carried s (c :: waiting) delivered) (found : s.live? c.index = some slot)
    (stage : slot.stage = .scheduled) (current : slot.claim c.index = c) :
    Carried (s.put c.index { slot with stage := .generating }) waiting (delivered ++ [c]) := by
  have idle : slot.stage ≠ .generating := fun same => by rw [same] at stage; cases stage
  refine carried.put found rfl rfl ?_ ?_
  · intro other
    rw [Slot.bears_in stage, Slot.bears_none (by simp), List.count_cons, current]
    simp
  · intro other
    have kept : ({ slot with stage := .generating } : Slot).claim c.index = c := current
    rw [Slot.bears_none idle, Slot.bears_in rfl, List.count_append, kept]
    simp [List.count_cons]

/-- A claim that waits may be given up together with its carrier. -/
theorem abandon (carried : Carried s (c :: waiting) delivered) :
    Carried (s.abandon c.index c.version).1 waiting delivered := by
  obtain ⟨slot, found, stage, current⟩ := carried.waits List.mem_cons_self
  have version : slot.version = c.version := congrArg Claim.version current
  have idle : slot.stage ≠ .generating := fun same => by rw [same] at stage; cases stage
  have settled := fallback_settled slot
  rw [← version, abandon_current found (by rw [stage]; rfl)]
  refine carried.put found rfl rfl ?_ ?_
  · intro other
    have ended : slot.fallback ≠ .scheduled := fun same => by rw [same] at settled; cases settled
    rw [Slot.bears_in stage, Slot.bears_none ended, List.count_cons, current]
    simp
  · intro other
    have ended : slot.fallback ≠ .generating := fun same => by rw [same] at settled; cases settled
    rw [Slot.bears_none idle, Slot.bears_none ended]

theorem finish (carried : Carried s waiting (c :: delivered)) (found : s.live? c.index = some slot)
    (stage : slot.stage = .generating) (current : slot.claim c.index = c) (shape : Option Handle)
    (placeholder : Bool) :
    Carried (s.put c.index { slot with shape, placeholder, stage := .ready }) waiting delivered := by
  have begun : slot.stage ≠ .scheduled := fun same => by rw [same] at stage; cases stage
  refine carried.put found rfl rfl ?_ ?_
  · intro other
    rw [Slot.bears_none begun, Slot.bears_none (by simp)]
  · intro other
    rw [Slot.bears_in stage, Slot.bears_none (by simp), List.count_cons, current]
    simp

/-- A newcomer has no claim out, so nothing carries one for it. -/
theorem arrive (carried : Carried s waiting delivered) (admitted : Admitted s key s' i) (kept : s'.Sound) :
    Carried s' waiting delivered := by
  have bears (stage : Stage) (loaded : stage ≠ .unloaded) (c : Claim) : s'.bears stage c = s.bears stage c := by
    by_cases here : i = c.index
    · have before : s.bears stage c = 0 := by
        rw [bears, ← here, admitted.vacant]
        rfl
      rw [before, bears_live (here ▸ admitted.here), Slot.bears_none loaded.symm]
    · exact bears_same ((admitted.sees c.index).trans (if_neg here))
  exact ⟨kept, fun c => (carried.scheduled c).trans (bears .scheduled (by simp) c).symm,
    fun c => (carried.generating c).trans (bears .generating (by simp) c).symm⟩

/-- Nothing carries a claim for a cell that may be turned out. -/
theorem depart (carried : Carried s waiting delivered) (departed : Departed s key s' i slot) (kept : s'.Sound)
    (idle : slot.stage.isInFlight = false) : Carried s' waiting delivered := by
  have bears (stage : Stage) (flying : stage.isInFlight = true) (c : Claim) : s'.bears stage c = s.bears stage c := by
    by_cases here : i = c.index
    · have after : s'.bears stage c = 0 := by
        rw [bears, departed.sees, if_pos here]
        rfl
      have settled : slot.stage ≠ stage := fun same => by rw [same, flying] at idle; cases idle
      rw [after, bears_live (here ▸ departed.found), Slot.bears_none settled]
    · exact bears_same ((departed.sees c.index).trans (if_neg here))
  exact ⟨kept, fun c => (carried.scheduled c).trans (bears .scheduled rfl c).symm,
    fun c => (carried.generating c).trans (bears .generating rfl c).symm⟩

end Carried

namespace Ledger

/-- The claims of all that waits for a snapshot or for a builder. -/
def waits (l : Ledger σ) : List Claim :=
  (l.planner.pending.toList ++ l.waiting).map (·.claim) ++ l.jobs.map (·.claim)

/-- The claims of the builds that are on their way to the simulation. -/
def delivers (l : Ledger σ) : List Claim := l.commands.filterMap (·.claim?)

/-- Every claim that is out has its carrier, and every carrier its claim. -/
structure Tracked (l : Ledger σ) : Prop where
  keyed : l.planner.pending.Keyed
  carried : Carried l.store l.waits l.delivers

variable {d d' : Desk} {jobs : List Job} {sim : σ}

/-! ### Acts -/

private theorem abandonAll_carried (d : Desk) {given : List Request} {rest delivered : List Claim}
    (carried : Carried d.store (given.map (·.claim) ++ rest) delivered) :
    ∃ store report, given.foldl Desk.abandonOne d = { d with store, report } ∧ Carried store rest delivered := by
  induction given generalizing d with
  | nil => exact ⟨d.store, d.report, rfl, carried⟩
  | cons r given ih => exact ih (d.abandonOne r) carried.abandon

private theorem dispatchAll_closed (d : Desk) (closed : d.requests.isOpen = false) {given : List Request}
    {rest delivered : List Claim} (carried : Carried d.store (given.map (·.claim) ++ rest) delivered) :
    ∃ store, given.foldl Desk.dispatchOne d = { d with store } ∧ Carried store rest delivered := by
  induction given generalizing d with
  | nil => exact ⟨d.store, rfl, carried⟩
  | cons r given ih =>
    have turned : d.dispatchOne r = { d with store := (d.store.abandon r.index r.version).1 } := by
      simp [Desk.dispatchOne, closed]
    rw [List.foldl_cons, turned]
    exact ih { d with store := (d.store.abandon r.index r.version).1 } closed carried.abandon

theorem dispatchAll_open (d : Desk) (ready : d.requests.isOpen = true) (given : List Request) :
    ∃ requests report, given.foldl Desk.dispatchOne d = { d with requests, report } ∧
      requests.letters.toList = d.requests.letters.toList ++ given := by
  induction given generalizing d with
  | nil => exact ⟨d.requests, d.report, rfl, (List.append_nil _).symm⟩
  | cons r given ih =>
    have posted : d.dispatchOne r = { d with
        requests := d.requests.post r
        report := { d.report with admitted := d.report.admitted + 1 } } := by
      simp [Desk.dispatchOne, ready]
    rw [List.foldl_cons, posted]
    obtain ⟨requests, report, same, letters⟩ := ih { d with
      requests := d.requests.post r
      report := { d.report with admitted := d.report.admitted + 1 } } ((Mailbox.post_isOpen _ _).trans ready)
    refine ⟨requests, report, same, ?_⟩
    rw [letters, Mailbox.post_letters ready, List.append_assoc]
    rfl

/-- Requests that trade places within the backlog and the queue leave what waits as it was. -/
private theorem waits_perm {requests requests' : List Request} (jobs : List Claim) (same : requests'.Perm requests) :
    (requests'.map (·.claim) ++ jobs).Perm (requests.map (·.claim) ++ jobs) := (same.map _).append_right _

/-- The request that waits for a cell waits for the claim that is out on it. -/
theorem Tracked.filed {l : Ledger σ} (tracked : l.Tracked) {key : Key} {r : Request}
    (waits : l.planner.pending.get? key = some r) :
    ∃ slot, l.store.live? r.index = some slot ∧ slot.stage = .scheduled ∧ slot.key = key ∧ slot.version = r.version := by
  have name : r.key = key := tracked.keyed key r waits
  have listed : r ∈ l.planner.pending.toList := Backlog.mem_toList.mpr ⟨key, waits⟩
  have member : r.claim ∈ l.waits := by
    simp only [Ledger.waits, List.mem_append, List.mem_map]
    exact .inl ⟨r, .inl listed, rfl⟩
  obtain ⟨slot, found, stage, current⟩ := tracked.carried.waits member
  exact ⟨slot, found, stage, (congrArg Claim.key current).trans name, congrArg Claim.version current⟩

theorem Tracked.unfiled (tracked : (ofDesk d jobs sim).Tracked) {key : Key} {index : Nat} {slot : Slot}
    (found : d.store.live? index = some slot) (owner : slot.key = key) (idle : slot.stage ≠ .scheduled) :
    d.planner.pending.get? key = none := by
  by_contra filed
  obtain ⟨r, filed⟩ := Option.ne_none_iff_exists'.mp filed
  obtain ⟨other, present, waiting, claimed, _⟩ := tracked.filed filed
  have present : d.store.live? r.index = some other := present
  have here := tracked.carried.sound.alone present found (claimed.trans owner.symm)
  rw [here, found] at present
  cases present
  exact idle waiting

private theorem Tracked.raise (tracked : (ofDesk d jobs sim).Tracked) (key : Key) (priority : Priority) :
    (ofDesk { d with planner := { d.planner with
      pending := (d.planner.pending.raise key priority).1 } } jobs sim).Tracked := by
  rcases Backlog.raise_cases d.planner.pending key priority with ⟨r, filed, raised⟩ | raised
  · rw [raised]
    have name : r.key = key := tracked.keyed key r filed
    subst name
    have after := d.planner.pending.toList_insert r.key { r with priority := r.priority.max priority }
    have before := Backlog.toList_erase filed
    refine ⟨tracked.keyed.insert { r with priority := r.priority.max priority }, tracked.carried.perm ?_⟩
    exact (waits_perm _ (after.append_right _)).trans (waits_perm _ (before.append_right _)).symm
  · rw [raised]
    exact tracked

private theorem Tracked.claim (tracked : (ofDesk d jobs sim).Tracked) {key : Key} {index : Nat} (priority : Priority)
    (found : d.store.indexOf key = some index) : (ofDesk (d.claim key index priority).1 jobs sim).Tracked := by
  unfold Desk.claim
  rcases schedule_cases d.store index with ⟨slot, living, accepts, step⟩ | step
  · rw [step]
    obtain ⟨tenant, present, owner⟩ := tracked.carried.sound.lives found
    rw [show d.store.live? index = some tenant from present] at living
    cases living
    have idle : slot.stage ≠ .scheduled := fun same => by rw [same] at accepts; cases accepts
    have absent := tracked.unfiled present owner idle
    subst owner
    refine ⟨tracked.keyed.record absent, ?_⟩
    refine (tracked.carried.schedule present accepts).perm ?_
    exact waits_perm _ ((Backlog.record_new absent).append_right _)
  · rw [step]
    exact tracked

private theorem Tracked.dropPending (tracked : (ofDesk d jobs sim).Tracked) (key : Key) :
    (ofDesk (d.dropPending key) jobs sim).Tracked := by
  unfold Desk.dropPending
  split
  · exact tracked
  · rename_i pending r removed
    obtain ⟨rfl, filed⟩ := Prod.mk.inj removed
    refine ⟨tracked.keyed.erase key, ?_⟩
    have listed := (waits_perm (jobs.map (·.claim))
      ((Backlog.toList_erase filed).append_right d.requests.letters.toList)).symm
    exact Carried.abandon (tracked.carried.perm listed)

private theorem Tracked.dropUnneeded (tracked : (ofDesk d jobs sim).Tracked) :
    (ofDesk d.dropUnneeded jobs sim).Tracked := by
  have keyed : d.planner.pending.Keyed := tracked.keyed
  have parts := d.planner.pending.extract_perm (Desk.unneeded d.store)
  have kept := keyed.extract (Desk.unneeded d.store)
  unfold Desk.dropUnneeded
  generalize d.planner.pending.extract (Desk.unneeded d.store) = split at parts kept
  obtain ⟨pending, given⟩ := split
  have listed := (waits_perm (jobs.map (·.claim)) (parts.append_right d.requests.letters.toList)).symm
  have carried : Carried d.store (given.map (·.claim) ++
      ((pending.toList ++ d.requests.letters.toList).map (·.claim) ++ jobs.map (·.claim)))
      (ofDesk d jobs sim).delivers := by
    refine tracked.carried.perm (List.Perm.trans (.of_eq ?_) listed)
    simp only [List.map_append, List.append_assoc]
  obtain ⟨store, report, same, left⟩ :=
    abandonAll_carried { d with planner := { d.planner with pending } } carried
  dsimp only
  rw [same]
  exact ⟨kept, left⟩

private theorem Tracked.dispatch (tracked : (ofDesk d jobs sim).Tracked) : (ofDesk d.dispatch jobs sim).Tracked := by
  have keyed : d.planner.pending.Keyed := tracked.keyed
  obtain ⟨kept, parts⟩ := Backlog.takeRanked_perm keyed (d.planner.pacing.snapshotsPerPass - d.requests.size)
  unfold Desk.dispatch
  dsimp only
  generalize d.planner.pending.takeRanked (d.planner.pacing.snapshotsPerPass - d.requests.size) = split at parts kept
  obtain ⟨pending, given⟩ := split
  have listed := (waits_perm (jobs.map (·.claim)) (parts.append_right d.requests.letters.toList)).symm
  cases ready : d.requests.isOpen with
  | true =>
    obtain ⟨requests, report, same, letters⟩ :=
      dispatchAll_open { d with planner := { d.planner with pending } } ready given
    dsimp only
    rw [same]
    refine ⟨kept, tracked.carried.perm (List.Perm.trans ?_ listed)⟩
    simp only [waits, ofDesk, letters]
    refine waits_perm _ ?_
    have swap : (pending.toList ++ (d.requests.letters.toList ++ given)).Perm
        (pending.toList ++ (given ++ d.requests.letters.toList)) := List.perm_append_comm.append_left _
    rw [List.append_assoc]
    exact swap.trans (List.perm_append_comm_assoc _ _ _)
  | false =>
    have carried : Carried d.store (given.map (·.claim) ++
        ((pending.toList ++ d.requests.letters.toList).map (·.claim) ++ jobs.map (·.claim)))
        (ofDesk d jobs sim).delivers := by
      refine tracked.carried.perm (List.Perm.trans (.of_eq ?_) listed)
      simp only [List.map_append, List.append_assoc]
    obtain ⟨store, same, left⟩ :=
      dispatchAll_closed { d with planner := { d.planner with pending } } ready carried
    dsimp only
    rw [same]
    exact ⟨kept, left⟩

theorem Tracked.clerk (tracked : (ofDesk d jobs sim).Tracked) (act : Desk.Clerk d d') :
    (ofDesk d' jobs sim).Tracked := by
  cases act with
  | collect => exact ⟨tracked.keyed, tracked.carried⟩
  | note noted =>
    obtain ⟨keyed, carried⟩ := tracked
    constructor
    · change d'.planner.pending.Keyed
      rw [noted.pending]
      exact keyed
    · change Carried d'.store _ _
      simp only [waits, delivers, ofDesk, noted.store, noted.pending, noted.requests, noted.commands]
      exact carried
  | raise key priority => exact tracked.raise key priority
  | claim priority found => exact tracked.claim priority found
  | dropPending key => exact tracked.dropPending key
  | dropUnneeded => exact tracked.dropUnneeded
  | dispatch => exact tracked.dispatch

theorem Tracked.count (tracked : (ofDesk d jobs sim).Tracked) (act : Desk.Count d d') :
    (ofDesk d' jobs sim).Tracked := by
  have carried : Carried d.store (ofDesk d jobs sim).waits (ofDesk d jobs sim).delivers := tracked.carried
  cases act with
  | clerk act => exact tracked.clerk act
  | enroll => exact ⟨tracked.keyed, carried⟩
  | enter added =>
    refine ⟨tracked.keyed, ?_⟩
    rcases added_cases carried.sound added with rfl | ⟨admitted, kept⟩
    · exact carried
    · exact carried.arrive admitted kept
  | retain index =>
    refine ⟨tracked.keyed, ?_⟩
    cases found : d.store.live? index with
    | none => rw [retain_vacant found]; exact carried
    | some slot => rw [retain_live found]; exact carried.rewrite found rfl rfl rfl
  | release index =>
    refine ⟨tracked.keyed, ?_⟩
    cases found : d.store.live? index with
    | none => rw [release_vacant found]; exact carried
    | some slot => rw [release_live found]; exact carried.rewrite found rfl rfl rfl

private theorem delivers_post {commands : Mailbox Command} (ready : commands.isOpen = true) {c : Command}
    (other : c.claim? = none) :
    (commands.post c).letters.toList.filterMap (·.claim?) = commands.letters.toList.filterMap (·.claim?) := by
  rw [Mailbox.post_letters ready, List.filterMap_append, List.filterMap_cons_none other]
  exact List.append_nil _

theorem Tracked.act (tracked : (ofDesk d jobs sim).Tracked) (act : Desk.Act d d') (ready : d.commands.isOpen = true) :
    (ofDesk d' jobs sim).Tracked := by
  have carried : Carried d.store (ofDesk d jobs sim).waits (ofDesk d jobs sim).delivers := tracked.carried
  have sent (c : Command) (other : c.claim? = none) :
      ((d.commands.post c).letters.toList.filterMap (·.claim?)).Perm (ofDesk d jobs sim).delivers :=
    .of_eq (delivers_post ready other)
  cases act with
  | count act => exact tracked.count act
  | light => exact ⟨tracked.keyed, carried⟩
  | switch enabled key =>
    rcases Desk.switch_cases carried.sound enabled key with ⟨i, slot, report, found, _, step, _⟩ | ⟨_, step⟩
    · have rewritten : Carried (d.store.put i { slot with active := enabled }) (ofDesk d jobs sim).waits
          (ofDesk d jobs sim).delivers := carried.rewrite found rfl rfl rfl
      rw [step]
      exact ⟨tracked.keyed, rewritten.perm_delivered (sent (.toggle key i enabled) rfl)⟩
    · rw [step]
      exact tracked
  | evict found unreferenced retired =>
    obtain ⟨s', slot, report, departed, kept, _, idle, step, _⟩ := Desk.evict_cases carried.sound found retired
    rw [step]
    refine ⟨tracked.keyed, (carried.depart departed kept idle).perm_delivered ?_⟩
    cases shape : slot.shape with
    | none => exact .refl _
    | some shape => exact sent _ rfl

/-- A planner leaves the builds that are on their way to themselves. -/
theorem delivers_act (act : Desk.Act d d') (ready : d.commands.isOpen = true) :
    (ofDesk d' jobs sim).delivers = (ofDesk d jobs sim).delivers := by
  obtain ⟨sent, queue, plain⟩ := act.sends ready
  have none : sent.filterMap (·.claim?) = [] := by
    refine List.filterMap_eq_nil_iff.mpr fun c listed => ?_
    cases c with
    | install delivery => exact absurd rfl (plain _ listed delivery)
    | remove | toggle => rfl
  simp only [delivers, ofDesk, queue, List.filterMap_append, none, List.append_nil]

/-! ### Small steps -/

section Steps

variable {l l' : Ledger σ}

private theorem waits_taken {r : Request} {waiting : List Request} (taken : l.waiting = r :: waiting) :
    (r.claim :: waits { l with waiting }).Perm l.waits := by
  simp only [waits, taken, List.map_append, List.map_cons]
  exact (List.perm_middle.append_right _).symm

private theorem waits_job {job : Job} {jobs : List Job} (taken : l.jobs.Perm (job :: jobs)) :
    (job.claim :: waits { l with jobs }).Perm l.waits := by
  have listed := (taken.map (·.claim)).append_left ((l.planner.pending.toList ++ l.waiting).map (·.claim))
  exact (listed.trans List.perm_middle).symm

private theorem delivers_install {d : Delivery} {commands : List Command} (taken : l.commands = .install d :: commands) :
    l.delivers = d.claim :: commands.filterMap (·.claim?) := by
  rw [delivers, taken]
  rfl

private theorem delivers_other {c : Command} {commands : List Command} (taken : l.commands = c :: commands)
    (other : c.claim? = none) : l.delivers = commands.filterMap (·.claim?) := by
  rw [delivers, taken, List.filterMap_cons_none other]

/-- The request that is next waits for a claim that is out. -/
theorem mem_waits_next {r : Request} {waiting : List Request} (taken : l.waiting = r :: waiting) : r.claim ∈ l.waits := by
  simp only [waits, taken, List.mem_append, List.mem_map]
  exact .inl ⟨r, .inr List.mem_cons_self, rfl⟩

/-- The delivery that is next finds its cell in the middle of being built. -/
theorem Tracked.delivered (tracked : l.Tracked) {d : Delivery} {commands : List Command}
    (taken : l.commands = .install d :: commands) :
    ∃ slot, l.store.live? d.index = some slot ∧ slot.stage = .generating ∧ slot.claim d.index = d.claim := by
  have member : d.claim ∈ l.delivers := delivers_install taken ▸ List.mem_cons_self
  exact tracked.carried.builds member

theorem Tracked.work [Simulation σ] (tracked : l.Tracked) (work : Work l l') : l'.Tracked := by
  obtain ⟨keyed, carried⟩ := tracked
  cases work with
  | skip taken spent => exact absurd spent ((carried.perm (waits_taken taken)).borne_waiting List.mem_cons_self)
  | giveUp taken => exact ⟨keyed, Carried.abandon (carried.perm (waits_taken taken))⟩
  | accept taken added =>
    rename_i r waiting jobs snapshot
    exact ⟨keyed, carried.perm ((waits_job (l := { l with waiting, jobs }) added).symm.trans (waits_taken taken))⟩
  | drop taken spent => exact absurd spent ((carried.perm (waits_job taken)).borne_waiting List.mem_cons_self)
  | build taken found stage current shape placeholder =>
    refine ⟨keyed, ((carried.perm (waits_job taken)).begin found stage current).perm_delivered ?_⟩
    simp [delivers, Command.claim?, Delivery.claim, Job.claim]
  | refuse taken spent =>
    have delivering := carried
    rw [delivers_install taken] at delivering
    exact absurd spent (delivering.borne_delivered List.mem_cons_self)
  | install taken found stage current =>
    have delivering := carried
    rw [delivers_install taken] at delivering
    exact ⟨keyed, delivering.finish found stage current _ _⟩
  | remove taken => exact ⟨keyed, carried.perm_delivered (.of_eq (delivers_other taken rfl).symm)⟩
  | toggle taken found owned => exact ⟨keyed, carried.perm_delivered (.of_eq (delivers_other taken rfl).symm)⟩
  | ignore taken bare => exact ⟨keyed, carried.perm_delivered (.of_eq (delivers_other taken rfl).symm)⟩

theorem Tracked.works [Simulation σ] (tracked : l.Tracked) (works : Works l l') : l'.Tracked := by
  induction works with
  | refl => exact tracked
  | tail _ work ih => exact ih.work work

end Steps

end Ledger

/-! ### Runs -/

namespace Pipeline

/-- The claims carried by requests, pending or queued, and by jobs that have not been run. -/
def carriers (p : Pipeline σ ω) : List Claim :=
  (p.planner.elim [] (·.pending.toList)).map (·.claim) ++ p.requests.letters.toList.map (·.claim) ++
    p.jobs.map (·.claim)

/-- The claims of the builds in the queue of commands. -/
def deliveries (p : Pipeline σ ω) : List Claim := p.commands.letters.toList.filterMap (·.claim?)

theorem new_tracked (grid : Grid) (initial most : Nat) (pacing : Pacing) (margins : Margins) (builder : Builder)
    (world : ω) (sim : σ) :
    ((new grid (Store.ofLimits initial most) pacing margins builder world sim).ledger
      (Planner.new grid pacing margins) [] []).Tracked := by
  have vacant (stage : Stage) (c : Claim) : (Store.ofLimits initial most).bears stage c = 0 := by
    rw [bears, live?_ofLimits]
    rfl
  exact ⟨Backlog.keyed_empty, sound_ofLimits initial most, fun c => (vacant _ c).symm, fun c => (vacant _ c).symm⟩

variable [Simulation σ] [Supplier ω]

/-- In every state that a run comes to, the claims of scheduled cells are carried once each by requests and
jobs, the claims of cells in work once each by deliveries, and nothing else is carried; so once nothing
is under way, no cell is in flight. -/
theorem claims_have_carriers (grid : Grid) (initial most : Nat) (pacing : Pacing) (margins : Margins)
    (builder : Builder) (world : ω) (sim : σ) (moves : List (Move ω)) :
    let p := (new grid (Store.ofLimits initial most) pacing margins builder world sim).run moves
    (∀ i slot, p.store.live? i = some slot → slot.stage = .scheduled →
      p.carriers.count ⟨slot.key, i, slot.version⟩ = 1) ∧
    (∀ i slot, p.store.live? i = some slot → slot.stage = .generating →
      p.deliveries.count ⟨slot.key, i, slot.version⟩ = 1) ∧
    (∀ c ∈ p.carriers, ∃ slot, p.store.live? c.index = some slot ∧ slot.key = c.key ∧ slot.version = c.version ∧
      slot.stage = .scheduled) ∧
    (∀ c ∈ p.deliveries, ∃ slot, p.store.live? c.index = some slot ∧ slot.key = c.key ∧ slot.version = c.version ∧
      slot.stage = .generating) ∧
    (p.carriers = [] → p.deliveries = [] → ∀ i slot, p.store.live? i = some slot → slot.stage.isInFlight = false) := by
  intro p
  have start := new_tracked grid initial most pacing margins builder world sim
  obtain ⟨planner, present, tracked⟩ := run_keeps (fun d d' jobs sim act ready tracked => Ledger.Tracked.act tracked act ready)
    (fun l l' work tracked => tracked.work work) (new_intact _ _ _ _ _ _ _) rfl start moves
  have waits : (p.ledger planner [] []).waits = p.carriers := by
    simp [Ledger.waits, ledger, carriers, p, present]
  have carried : Carried p.store p.carriers p.deliveries := waits ▸ tracked.carried
  have scheduled (i : Nat) (slot : Slot) (found : p.store.live? i = some slot) (stage : slot.stage = .scheduled) :
      p.carriers.count ⟨slot.key, i, slot.version⟩ = 1 :=
    (carried.scheduled _).trans (bears_one found stage)
  have generating (i : Nat) (slot : Slot) (found : p.store.live? i = some slot) (stage : slot.stage = .generating) :
      p.deliveries.count ⟨slot.key, i, slot.version⟩ = 1 :=
    (carried.generating _).trans (bears_one found stage)
  have named {c : Claim} {slot : Slot} (current : slot.claim c.index = c) : slot.key = c.key ∧ slot.version = c.version :=
    ⟨congrArg Claim.key current, congrArg Claim.version current⟩
  refine ⟨scheduled, generating, ?_, ?_, ?_⟩
  · intro c member
    obtain ⟨slot, found, stage, current⟩ := carried.waits member
    exact ⟨slot, found, (named current).1, (named current).2, stage⟩
  · intro c member
    obtain ⟨slot, found, stage, current⟩ := carried.builds member
    exact ⟨slot, found, (named current).1, (named current).2, stage⟩
  · intro nothing nowhere i slot found
    cases stage : slot.stage with
    | scheduled => exact absurd (scheduled i slot found stage) (by simp [nothing])
    | generating => exact absurd (generating i slot found stage) (by simp [nowhere])
    | unloaded | ready | removing => rfl

end Pipeline

end TerrainStream
