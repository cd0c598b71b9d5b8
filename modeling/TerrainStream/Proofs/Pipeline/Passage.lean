import TerrainStream.Proofs.Pipeline.Carriers
import TerrainStream.Proofs.Residency.Hearing

/-! What a whole pass makes of one cell: it hears of every event in turn, it is stirred as the bodies are
followed, and it is settled as it stands then. -/

namespace TerrainStream.Residency

open Cell Physics Store Build

/-- Admitting a request moves it from those that wait to those that have been admitted. -/
def Dispatched (s s' : Standing) : Prop :=
  ∃ waiting queued, s' = { s with waiting, queued } ∧ (waiting || queued) = (s.waiting || s.queued) ∧
    (s.queued = true → queued = true) ∧ (waiting = true → s.waiting = true)

/-- What settling does to a cell, short of admission. -/
def Standing.settled (s : Standing) : Standing := s.swept.resumed.retried.shed

namespace Desk

/-- A desk in the course of a run: both of its queues are open, and every claim that is out has its carrier. -/
structure Orderly (d : Desk) (jobs : List Job) : Prop where
  commands : d.commands.isOpen = true
  requests : d.requests.isOpen = true
  tracked : (Ledger.ofDesk d jobs ()).Tracked

variable {d d' : Desk} {jobs : List Job} {key : Key}

theorem Orderly.sound (orderly : d.Orderly jobs) : d.store.Sound := orderly.tracked.carried.sound

theorem Orderly.filed (orderly : d.Orderly jobs) (k : Key) : d.Filed k := fun _ waits => orderly.tracked.filed waits

theorem Orderly.acts (orderly : d.Orderly jobs) (acts : Acts d d') : d'.Orderly jobs := by
  obtain ⟨commands, requests⟩ := acts.stillOpen
  refine ⟨commands.trans orderly.commands, requests.trans orderly.requests, ?_⟩
  exact Pipeline.acts_keep (fun _ _ act ready tracked => tracked.act act ready) acts orderly.commands orderly.tracked

theorem Orderly.counted (orderly : d.Orderly jobs) (counted : Counted d d') : d'.Orderly jobs := orderly.acts counted.acts

/-- An attempt that succeeds leaves things in order. -/
theorem Orderly.attempt {attempt : Attempt} (orderly : d.Orderly jobs) (counted : Counted d (left attempt))
    (done : attempt = .ok d') : d'.Orderly jobs := by
  subst done
  exact orderly.counted counted

theorem Orderly.clerical (orderly : d.Orderly jobs) (clerical : Clerical d d') : d'.Orderly jobs :=
  orderly.counted clerical.counted

theorem Orderly.opened (orderly : d.Orderly jobs) (batch : Nat) : (d.opened batch).Orderly jobs := by
  have ⟨commands, requests, keyed, carried⟩ := orderly
  exact ⟨commands, requests, keyed, carried⟩

private theorem abandonOne_touches {r : Request} {rest delivered : List Claim}
    (carried : Carried d.store (r.claim :: rest) delivered) :
    Touches r.key (fun s => { s with slot := s.slot.map fun slot => { slot with stage := slot.fallback } }) d
      (d.abandonOne r) := by
  obtain ⟨slot, living, stage, current⟩ := carried.waits List.mem_cons_self
  have owner : slot.key = r.key := congrArg Claim.key current
  have version : slot.version = r.version := congrArg Claim.version current
  have shown : (d.standing r.key).slot = some slot.dark := owner ▸ standing_slot living carried.sound
  have given := touches_put (d := d) { slot with stage := slot.fallback } carried.sound living rfl owner
  have step : d.abandonOne r = { d with
      store := d.store.put r.index { slot with stage := slot.fallback }
      report := { d.report with abandoned := d.report.abandoned + 1 } } := by
    rw [abandonOne, ← version, show d.store.abandon r.index slot.version = _ from
      abandon_current living (by rw [stage]; rfl)]
  rw [step]
  refine (given.of_eq ?_).reported _
  simp [shown, Slot.dark, Slot.fallback]

/-- A request that waits is unneeded if nobody references its cell. -/
private theorem unneeded_eq (orderly : d.Orderly jobs) {r : Request} (waits : d.planner.pending.get? key = some r) :
    unneeded d.store r = decide ((d.standing key).refs = 0) := by
  obtain ⟨slot, living, _, owner, _⟩ := orderly.filed key r waits
  have shown : (d.standing key).slot = some slot.dark := owner ▸ standing_slot living orderly.sound
  have name : r.key = key := orderly.tracked.keyed key r waits
  simp only [unneeded, keyAt, Store.refs, living, Option.map_some, owner, name, bne_self_eq_false, Bool.false_or,
    Option.elim_some, Standing.refs, shown, Slot.dark]
  rfl

private theorem abandonAll_standing {given : List Request} {rest delivered : List Claim}
    (carried : Carried d.store (given.map (·.claim) ++ rest) delivered) (key : Key) :
    (given.foldl abandonOne d).standing key =
      if key ∈ given.map (·.key) then
        { d.standing key with slot := (d.standing key).slot.map fun slot => { slot with stage := slot.fallback } }
      else d.standing key := by
  refine fold_touches (J := fun given d => Carried d.store (given.map (·.claim) ++ rest) delivered) (·.key)
    (fun _ _ _ carried => carried.abandon) (fun _ _ _ carried => abandonOne_touches carried) ?_ given carried key
  intro s
  simp only [Option.map_map]
  rfl

/-- The claims that wait are given up where nobody needs them. -/
theorem dropUnneeded_standing (orderly : d.Orderly jobs) (key : Key) :
    d.dropUnneeded.standing key = (d.standing key).shed := by
  have parts := d.planner.pending.extract_perm (unneeded d.store)
  have left := d.planner.pending.get?_extract (unneeded d.store) key
  have given {r : Request} : r ∈ (d.planner.pending.extract (unneeded d.store)).2 ↔ _ := Backlog.mem_extract
  unfold dropUnneeded
  generalize d.planner.pending.extract (unneeded d.store) = split at parts left given
  obtain ⟨pending, dropped⟩ := split
  have carried : Carried d.store (dropped.map (·.claim) ++
      ((pending.toList ++ d.requests.letters.toList).map (·.claim) ++ jobs.map (·.claim)))
      (Ledger.ofDesk d jobs ()).delivers := by
    have listed := ((parts.append_right d.requests.letters.toList).map (·.claim)).append_right (jobs.map (·.claim))
    refine orderly.tracked.carried.perm (List.Perm.trans (.of_eq ?_) listed.symm)
    simp only [List.map_append, List.append_assoc]
  have abandoned := abandonAll_standing (d := { d with planner := { d.planner with pending } }) carried key
  have before : ({ d with planner := { d.planner with pending } } : Desk).standing key =
      { d.standing key with waiting := (pending.get? key).isSome } := rfl
  dsimp only at left given ⊢
  rw [abandoned, before, left]
  have picked : key ∈ dropped.map (·.key) ↔ ∃ r, d.planner.pending.get? key = some r ∧ unneeded d.store r = true := by
    simp only [List.mem_map, given]
    constructor
    · rintro ⟨r, ⟨listed, needless⟩, rfl⟩
      exact ⟨r, Backlog.Keyed.get? orderly.tracked.keyed listed, needless⟩
    · rintro ⟨r, waits, needless⟩
      exact ⟨r, ⟨Backlog.mem_toList.mpr ⟨key, waits⟩, needless⟩, orderly.tracked.keyed key r waits⟩
  cases waits : d.planner.pending.get? key with
  | none =>
    have idle : (d.standing key).waiting = false := by simp only [standing, Standing.of, waits, Option.isSome_none]
    have outside : ¬ key ∈ dropped.map (·.key) := by simp [picked, waits]
    simp only [if_neg outside, Option.filter_none, Option.isSome_none, Standing.shed, Standing.giveUp, idle,
      Bool.false_eq_true, ↓reduceIte, ite_self]
    rw [← idle]
  | some r =>
    have waiting : (d.standing key).waiting = true := by simp only [standing, Standing.of, waits, Option.isSome_some]
    have needless := unneeded_eq orderly waits
    by_cases free : (d.standing key).refs = 0
    · have inside : key ∈ dropped.map (·.key) := picked.mpr ⟨r, waits, by rw [needless, decide_eq_true free]⟩
      simp [inside, Option.filter, needless, Standing.shed, Standing.giveUp, free, waiting]
    · have outside : ¬ key ∈ dropped.map (·.key) := by
        rw [picked]
        rintro ⟨other, found, unwanted⟩
        rw [waits, Option.some.injEq] at found
        rw [← found, needless, decide_eq_false free] at unwanted
        cases unwanted
      simp only [if_neg outside, Option.filter, needless, decide_eq_false free, Bool.not_false, ↓reduceIte,
        Option.isSome_some, Standing.shed, if_neg free]
      rw [← waiting]

theorem dispatch_standing (orderly : d.Orderly jobs) (key : Key) :
    Dispatched (d.standing key) (d.dispatch.standing key) := by
  have keyed : d.planner.pending.Keyed := orderly.tracked.keyed
  obtain ⟨kept, parts⟩ := Backlog.takeRanked_perm keyed (d.planner.pacing.snapshotsPerPass - d.requests.size)
  unfold dispatch
  dsimp only
  generalize d.planner.pending.takeRanked (d.planner.pacing.snapshotsPerPass - d.requests.size) = split at parts kept
  obtain ⟨pending, given⟩ := split
  obtain ⟨requests, report, same, letters⟩ :=
    Ledger.dispatchAll_open { d with planner := { d.planner with pending } } orderly.requests given
  dsimp only at parts kept ⊢
  rw [same]
  have all : (d.standing key).waiting = (given ++ pending.toList).any fun r => decide (r.key = key) := by
    rw [← parts.any_eq]
    exact keyed.isSome_get? key
  refine ⟨(pending.get? key).isSome, requests.letters.toList.any fun r => decide (r.key = key), rfl, ?_, ?_, ?_⟩
  · have before : (d.standing key).queued = d.requests.letters.toList.any fun r => decide (r.key = key) := rfl
    rw [kept.isSome_get?, all, before, letters, List.any_append, List.any_append]
    ac_rfl
  · intro before
    rw [letters, List.any_append, Bool.or_eq_true]
    exact .inl before
  · intro left
    rw [all, List.any_append, Bool.or_eq_true, ← kept.isSome_get?]
    exact .inr left

/-- Settling does to every cell what settling does, short of admission. -/
theorem gather_standing (orderly : d.Orderly jobs) (key : Key) :
    d.activate.sweep.resume.retryAll.dropUnneeded.standing key = (d.standing key).settled := by
  have lit := orderly.acts (activate_acts d)
  have swept := lit.acts (sweep_acts _)
  have resumed := swept.clerical (resume_clerical _)
  have retried := resumed.clerical (retryAll_clerical _)
  rw [dropUnneeded_standing retried, retryAll_standing resumed.sound, resume_standing swept.sound,
    sweep_standing lit.sound, activate_standing orderly.sound]
  rfl

theorem settle_standing (orderly : d.Orderly jobs) (key : Key) :
    Dispatched (d.standing key).settled (d.settle.standing key) := by
  have swept := (orderly.acts (activate_acts d)).acts (sweep_acts _)
  have claimed := (swept.clerical (resume_clerical _)).clerical (retryAll_clerical _)
  rw [← gather_standing orderly key]
  exact dispatch_standing (claimed.clerical (.single (.dropUnneeded _))) key

theorem closed_standing (d : Desk) : d.closed.standing = d.standing := rfl

theorem Orderly.tidy (orderly : d.Orderly jobs) (key : Key) : (d.standing key).Tidy := by
  intro waits
  obtain ⟨r, filed⟩ := Option.isSome_iff_exists.mp waits
  obtain ⟨slot, living, stage, rfl, _⟩ := orderly.filed key r filed
  exact ⟨slot.dark, standing_slot living orderly.sound, stage⟩

/-- What a cell keeps through every event it keeps through a batch. -/
theorem applyEvents_keep {J : List Event → Standing → Prop} {batch rest : List Event} (persists : Persists key J)
    (orderly : d.Orderly jobs) (applied : d.applyEvents batch = .ok d') (start : J (batch ++ rest) (d.standing key)) :
    d'.Orderly jobs ∧ J rest (d'.standing key) := by
  induction batch generalizing d with
  | nil =>
    cases applied
    exact ⟨orderly, start⟩
  | cons e batch ih =>
    obtain ⟨next, first, applied⟩ := foldlM_cons_ok.mp applied
    have heard := applyEvent_hears orderly.sound orderly.filed first key
    exact ih (orderly.attempt (applyEvent_counted d e) first) applied (persists.hears heard start)

/-- A batch is applied part by part. -/
theorem applyEvents_append {batch later : List Event} :
    d.applyEvents (batch ++ later) = .ok d' ↔
      ∃ middle, d.applyEvents batch = .ok middle ∧ middle.applyEvents later = .ok d' := by
  rw [applyEvents, List.foldlM_append]
  exact bind_ok

theorem applyEvents_single {e : Event} : d.applyEvents [e] = .ok d' ↔ d.applyEvent e = .ok d' := by
  simp [applyEvents]

/-- What a cell keeps, from some event of a pass on, it comes to be settled with. -/
theorem pass_keeps {J : List Event → Standing → Prop} {queued earlier later : List Event}
    {probe : BodyId → Option Pose} {middle : Desk} (persists : Persists key J) (orderly : d.Orderly jobs)
    (passed : d.pass queued probe = .ok d') (split : d.planner.inbox ++ queued = earlier ++ later)
    (reached : (d.opened (d.planner.inbox ++ queued).length).applyEvents earlier = .ok middle)
    (start : J later (middle.standing key)) :
    d'.Orderly jobs ∧ ∃ s, J [] s ∧ Dispatched s.settled (d'.standing key) := by
  obtain ⟨applied, followed, applying, following, rfl⟩ := pass_cases passed
  rw [split] at applying reached
  obtain ⟨same, reaching, remaining⟩ := applyEvents_append.mp applying
  obtain rfl : middle = same := Except.ok.inj (reached.symm.trans reaching)
  have arrived := (orderly.opened (earlier ++ later).length).attempt (applyEvents_counted _ earlier) reached
  obtain ⟨heard, kept⟩ := applyEvents_keep persists arrived remaining (by rwa [List.append_nil])
  have gone := heard.attempt (followAll_counted applied probe) following
  have settled := gone.acts (settle_acts followed)
  have stirred := (followAll_stirs heard.sound following).stirred key
  refine ⟨settled.clerical (.single (.note (closed_noted _))), followed.standing key, persists.stirred stirred kept, ?_⟩
  rw [closed_standing]
  exact settle_standing gone key

end Desk

end TerrainStream.Residency
