import TerrainStream.Proofs.Pipeline.Provision

/-! Cells with an edit. A snapshot that shows the edit is owed until it is taken, by a request or by a note
to make one, and is seen from then on. It is lost only where the claim of a built cell is given up. -/

namespace TerrainStream

open Cell Store Shape Collision Build Residency Physics World

variable {σ ω : Type}

namespace Residency.Standing

/-- A snapshot of the cell is still to be taken. -/
def Owing (s : Standing) : Prop := s.waiting = true ∨ s.deferred = true ∨ s.queued = true

/-- The cell has no build and nobody needs one; whoever comes to need it has it built. -/
def Blank (s : Standing) : Prop := ∃ slot, s.slot = some slot ∧ slot.refs = 0 ∧ slot.stage = .unloaded

/-- A slot that is as it was or has been claimed since, or that would be empty without its claim. -/
def Stems (old : Option Slot) (s : Standing) : Prop :=
  ∀ slot, s.slot = some slot → slot.fallback = .unloaded ∨
    ∃ before, old = some before ∧ (slot.stage = before.stage ∧ slot.version = before.version ∨
      slot.stage = .scheduled ∧ slot.version = before.version + 1)

/-- A built cell whose claim was given up: it is ready, though it was claimed before or has been since. -/
def Forsaken (old : Option Slot) (s : Standing) : Prop :=
  ∃ slot before, s.slot = some slot ∧ slot.refs = 0 ∧ slot.stage = .ready ∧ old = some before ∧
    (before.stage.isInFlight = true ∨ before.version ≠ slot.version)

variable {old : Option Slot} {s s' : Standing} {key : Key}

theorem Stems.stir (stems : s.Stems old) (stir : Stir s s') : s'.Stems old := by
  cases stir <;> cases there : s.slot <;>
    grind [Stems, take, drop, invalidate, renew, remind, welcome, claim, claimable, Slot.newcomer, Slot.fallback,
      Stage.acceptsClaim]

theorem owing_stir (owing : s.Owing ∨ s.Blank) (stir : Stir s s') : s'.Owing ∨ s'.Blank := by
  cases stir <;> cases there : s.slot <;>
    grind [Owing, Blank, take, drop, invalidate, renew, remind, welcome, claim, claimable, Slot.newcomer,
      Stage.acceptsClaim]

/-- An edit of a cell that is not marked as leaving is owed from then on. -/
theorem owing_invalidate {slot : Slot} (there : s.slot = some slot) (present : slot.stage ≠ .removing) :
    s.invalidate.Owing := by
  grind [Owing, invalidate, claim, claimable]

/-- Short of an unloading, a cell keeps what it keeps as it is stirred and put off. -/
theorem unhurt_persists {K : Standing → Prop} (stir : ∀ s s', Stir s s' → K s → K s')
    (postpone : ∀ s, K s → K s.postpone) (pace : ∀ s pacing, K s → K { s with pacing }) :
    Persists key fun events s => .cellUnloaded key ∉ events ∧ K s where
  unloaded := fun _ _ ⟨loaded, _⟩ => absurd List.mem_cons_self loaded
  unavailable := fun _ s ⟨loaded, kept⟩ => ⟨mt (List.mem_cons_of_mem _) loaded, postpone s kept⟩
  configured := fun pacing _ _ s ⟨loaded, kept⟩ => ⟨mt (List.mem_cons_of_mem _) loaded, pace s pacing kept⟩
  other := fun _ _ _ _ _ ⟨loaded, kept⟩ => ⟨mt (List.mem_cons_of_mem _) loaded, kept⟩
  stir := fun _ s s' stirs ⟨loaded, kept⟩ => ⟨loaded, stir s s' stirs kept⟩

/-- A cell in the course of a pass, where a snapshot of it is owed. -/
structure Pledged (old : Option Slot) (s : Standing) : Prop where
  tidy : s.Tidy
  stems : s.Stems old
  owing : s.Owing ∨ s.Blank

theorem pledged_persists (old : Option Slot) (key : Key) :
    Persists key fun events s => .cellUnloaded key ∉ events ∧ s.Pledged old :=
  unhurt_persists
    (fun _ _ stir ⟨tidy, stems, owing⟩ => ⟨stir.tidy tidy, stems.stir stir, owing_stir owing stir⟩)
    (fun _ ⟨tidy, stems, owing⟩ => ⟨tidy, stems, owing⟩)
    fun _ _ ⟨tidy, stems, owing⟩ => ⟨tidy, stems, owing⟩

/-- When all is settled a snapshot is still owed, unless the cell has left or its claim was given up. -/
theorem Pledged.settled (pledged : s.Pledged old) (dispatched : Dispatched s.settled s') :
    s'.slot = none ∨ s'.Forsaken old ∨ s'.Owing ∨ s'.Blank := by
  have swept : s.swept.slot = none ∨ s.swept.Pledged old := by
    obtain ⟨tidy, stems, owing⟩ := pledged
    by_cases gone : s.swept.slot = none
    · exact .inl gone
    · refine .inr ⟨tidy.swept, ?_, ?_⟩ <;> cases there : s.slot <;>
        grind [Stems, Owing, Blank, Standing.swept, expire]
  have resumed : s.swept.resumed.slot = none ∨ s.swept.resumed.Pledged old := by
    generalize s.swept = s at swept
    cases there : s.slot with
    | none => exact .inl (by grind [Standing.resumed, reconsider])
    | some slot =>
      obtain ⟨tidy, stems, owing⟩ := swept.resolve_left (by simp [there])
      refine .inr ⟨tidy.resumed, ?_, ?_⟩ <;>
        grind [Stems, Owing, Blank, Standing.resumed, reconsider, claim, claimable, Slot.fallback, Stage.acceptsClaim]
  have retried : s.swept.resumed.retried.slot = none ∨ s.swept.resumed.retried.Pledged old := by
    generalize s.swept.resumed = s at resumed
    cases there : s.slot with
    | none => exact .inl (by grind [Standing.retried, renew])
    | some slot =>
      obtain ⟨tidy, stems, owing⟩ := resumed.resolve_left (by simp [there])
      refine .inr ⟨tidy.retried, ?_, ?_⟩ <;>
        grind [Stems, Owing, Blank, Standing.retried, renew, claim, claimable, Slot.fallback, Stage.acceptsClaim]
  have shed : s.settled.slot = none ∨ s.settled.Forsaken old ∨ s.settled.Owing ∨ s.settled.Blank := by
    unfold Standing.settled
    generalize s.swept.resumed.retried = s at retried
    rcases retried with gone | ⟨tidy, stems, owing⟩
    · exact .inl (by grind [Standing.shed, giveUp])
    · cases there : s.slot <;>
        grind [Tidy, Stems, Owing, Blank, Forsaken, Standing.shed, giveUp, refs, Slot.fallback, Stage.isInFlight]
  obtain ⟨waiting, queued, rfl, moved, _⟩ := dispatched
  refine shed.imp_right (.imp_right (.imp_left ?_))
  grind [Owing]

end Residency.Standing

/-- Whether a date is known and later than another. -/
def Chronicle.newer (since : Nat) (date : Option Nat) : Bool := date.any (since < ·)

open Ledger Chronicle

namespace Journal

/-- A late snapshot of a cell is on its way into a build, or has come into one that no earlier snapshot
will replace. -/
def Seen (since : Nat) (key : Key) (j : Journal σ) : Prop :=
  (∃ c ∈ j.ledger.works, c.key = key ∧ newer since (j.chronicle.taken c) = true) ∨
  (newer since (j.chronicle.built key) = true ∧
    ∀ c ∈ j.ledger.works, c.key = key → newer since (j.chronicle.taken c) = true)

/-- A late snapshot of a cell is owed or seen, or the cell is blank. -/
def Watched (since : Nat) (key : Key) (j : Journal σ) : Prop :=
  (j.ledger.standing key).Owing ∨ (j.ledger.standing key).Blank ∨ j.Seen since key

/-- A cell in the course of a move between passes, with the slot that it had before. -/
structure Tended (old : Option Slot) (since : Nat) (key : Key) (j : Journal σ) : Prop where
  late : since < j.chronicle.now
  flown : ∀ slot, (j.ledger.standing key).slot = some slot → slot.stage.isInFlight = true →
    ∃ before, old = some before ∧ before.stage.isInFlight = true
  watched : j.Watched since key ∨ (j.ledger.standing key).Forsaken old

variable {j j' : Journal σ} {old : Option Slot} {since : Nat} {key : Key}

/-- What is under way may be listed in any order. -/
private theorem Seen.listed (seen : j.Seen since key) (works : ∀ c, c ∈ j'.ledger.works ↔ c ∈ j.ledger.works)
    (chronicle : j'.chronicle = j.chronicle) : j'.Seen since key := by
  unfold Seen
  simp only [works, chronicle]
  exact seen

private theorem works_build {l : Ledger σ} {job : Job} {jobs : List Job} (taken : l.jobs.Perm (job :: jobs))
    {d : Delivery} (same : d.claim = job.claim) (store : Store) (c : Claim) :
    c ∈ ({ l with jobs, store, commands := l.commands ++ [.install d] } : Ledger σ).works ↔ c ∈ l.works := by
  have listed : c ∈ l.jobs.map (·.claim) ↔ c ∈ (job :: jobs).map (·.claim) := (taken.map (·.claim)).mem_iff
  simp only [works, delivers, List.mem_append, listed, List.filterMap_append, List.map_cons, List.mem_cons,
    List.filterMap_cons, Command.claim?, List.filterMap_nil, same, List.not_mem_nil, or_false]
  tauto

/-- Whoever sees the same of a cell, and of what is on its way to it, watches it as before. -/
private theorem watched_same (same : j'.ledger.standing key = j.ledger.standing key)
    (seen : j.Seen since key → j'.Seen since key) (watched : j.Watched since key) : j'.Watched since key := by
  unfold Watched
  rw [same]
  exact watched.imp_right (.imp_right seen)

/-- A claim that is out may move on. -/
private theorem watched_put (tracked : j.ledger.Tracked) {i : Nat} {slot fresh : Slot}
    (found : j.ledger.store.live? i = some slot) (busy : slot.stage.isInFlight = true)
    (store : j'.ledger.store = j.ledger.store.put i fresh) (kept : fresh.live = slot.live)
    (planner : j'.ledger.planner = j.ledger.planner) (waiting : j'.ledger.waiting = j.ledger.waiting)
    (seen : j.Seen since key → j'.Seen since key) (watched : j.Watched since key) : j'.Watched since key := by
  have sound := tracked.carried.sound
  have shown := standing_put j'.ledger sound found store kept planner key
  rw [waiting] at shown
  by_cases here : slot.key = key
  · have before : (j.ledger.standing key).slot = some slot.dark := here ▸ standing_slot sound found
    rcases watched with owing | ⟨_, there, _, bare⟩ | known
    · refine .inl ?_
      rw [shown]
      exact owing
    · cases before.symm.trans there
      rw [show slot.stage = _ from bare] at busy
      cases busy
    · exact .inr (.inr (seen known))
  · exact watched_same (by rw [shown, if_neg here]; rfl) seen watched

/-- Without references a claim is given up: the cell is blank then, or it falls back on the build that it has. -/
private theorem Tended.excuse (tended : j.Tended old since key) (tracked : j.ledger.Tracked) {r : Request}
    {waiting : List Request} (taken : j.ledger.waiting = r :: waiting) (needless : j.ledger.store.refs r.index = 0)
    (mail : List Event) :
    Tended old since key { j with
      ledger := { j.ledger with waiting, store := (j.ledger.store.abandon r.index r.version).1 }
      mail } := by
  obtain ⟨late, flown, watched⟩ := tended
  obtain ⟨slot, found, stage, owner, store⟩ := tracked.request taken
  have sound := tracked.carried.sound
  have shown := standing_put { j.ledger with waiting, store := (j.ledger.store.abandon r.index r.version).1 }
    sound found store rfl rfl key
  by_cases here : slot.key = key
  · have before : (j.ledger.standing key).slot = some slot.dark := here ▸ standing_slot sound found
    have free : slot.refs = 0 := by simpa [Store.refs, found] using needless
    obtain ⟨held, was, flew⟩ := flown _ before (by rw [Slot.dark_stage, stage]; rfl)
    have left := congrArg Standing.slot shown
    simp only [if_pos here] at left
    have settles : slot.fallback = .unloaded ∨ slot.fallback = .ready := by
      unfold Slot.fallback
      split <;> simp
    refine ⟨late, fun _ there flies => ?_, ?_⟩
    · cases left.symm.trans there
      rcases settles with bare | ready <;> simp_all [Slot.dark, Stage.isInFlight]
    · rcases settles with bare | ready
      · exact .inl (.inr (.inl ⟨_, left, free, bare⟩))
      · exact .inr ⟨_, held, left, free, ready, was, .inl flew⟩
  · have queue : (waiting.any fun r => decide (r.key = key)) = (j.ledger.standing key).queued := by
      have elsewhere : r.key ≠ key := owner ▸ here
      simp [Ledger.standing, Standing.of, taken, elsewhere]
    rw [if_neg here, queue] at shown
    refine ⟨late, ?_, watched.imp (watched_same shown id) fun lost => ?_⟩ <;> rw [shown]
    · exact flown
    · exact lost

/-- A snapshot for the cell is seen as it is taken. -/
private theorem Tended.accept (tended : j.Tended old since key) {r : Request} {waiting : List Request}
    {jobs : List Job} {snapshot : Snapshot} (taken : j.ledger.waiting = r :: waiting)
    (added : jobs.Perm (⟨r.key, r.index, r.version, r.initial, snapshot⟩ :: j.ledger.jobs)) :
    Tended old since key { j with
      ledger := { j.ledger with waiting, jobs }, chronicle := j.chronicle.snap r.claim } := by
  obtain ⟨late, flown, watched⟩ := tended
  have works (c : Claim) : c ∈ ({ j.ledger with waiting, jobs } : Ledger σ).works ↔ c = r.claim ∨ c ∈ j.ledger.works := by
    have listed := (added.map (·.claim)).mem_iff (a := c)
    simp only [Ledger.works, List.mem_append, listed, List.map_cons, List.mem_cons, or_assoc]
    rfl
  refine ⟨late, flown, ?_⟩
  by_cases here : r.key = key
  · refine .inl (.inr (.inr (.inl ⟨r.claim, (works _).mpr (.inl rfl), here, ?_⟩)))
    simp [snap, newer, late]
  · have same : ({ j.ledger with waiting, jobs } : Ledger σ).standing key = j.ledger.standing key := by
      simp [Ledger.standing, Standing.of, taken, here]
    have dated {c : Claim} (owner : c.key = key) : (j.chronicle.snap r.claim).taken c = j.chronicle.taken c :=
      if_neg fun same => here ((congrArg Claim.key same).symm.trans owner)
    refine watched.imp (watched_same same fun seen => ?_) fun lost => same.symm ▸ lost
    rcases seen with ⟨c, member, owner, dates⟩ | ⟨built, known⟩
    · exact .inl ⟨c, (works c).mpr (.inr member), owner, by rwa [dated owner]⟩
    · refine .inr ⟨built, fun c member owner => ?_⟩
      rw [dated owner]
      refine known c (((works c).mp member).resolve_left ?_) owner
      rintro rfl
      exact here owner

private theorem Tended.build (tended : j.Tended old since key) (tracked : j.ledger.Tracked) {job : Job}
    {jobs : List Job} {slot : Slot} (taken : j.ledger.jobs.Perm (job :: jobs))
    (found : j.ledger.store.live? job.index = some slot) (stage : slot.stage = .scheduled)
    {d : Delivery} (same : d.claim = job.claim) :
    Tended old since key { j with ledger := { j.ledger with
      jobs
      store := j.ledger.store.put job.index { slot with stage := .generating }
      commands := j.ledger.commands ++ [.install d] } } := by
  obtain ⟨late, flown, watched⟩ := tended
  have sound := tracked.carried.sound
  have busy : slot.stage.isInFlight = true := by rw [stage]; rfl
  have shown := standing_put { j.ledger with
    jobs
    store := j.ledger.store.put job.index { slot with stage := .generating }
    commands := j.ledger.commands ++ [.install d] } sound found rfl rfl rfl key
  have before (here : slot.key = key) : (j.ledger.standing key).slot = some slot.dark := here ▸ standing_slot sound found
  refine ⟨late, fun other there flies => ?_, ?_⟩
  · rw [shown] at there
    dsimp only at there
    split at there
    · rename_i here
      exact flown _ (before here) busy
    · exact flown other there flies
  · rcases watched with watched | lost
    · exact .inl (watched_put tracked found busy rfl rfl rfl rfl
        (fun seen => seen.listed (works_build taken same _) rfl) watched)
    · have elsewhere : slot.key ≠ key := by
        intro here
        obtain ⟨_, _, there, _, ready, _⟩ := lost
        cases (before here).symm.trans there
        cases stage.symm.trans ready
      refine .inr ?_
      rw [shown, if_neg elsewhere]
      exact lost

theorem Tended.errand (tended : j.Tended old since key) (tracked : j.ledger.Tracked)
    (errand : Errand (fun _ _ => False) j j') : j'.Tended old since key := by
  cases errand with
  | hear => exact ⟨tended.late, tended.flown, tended.watched⟩
  | excuse taken needless => exact tended.excuse tracked taken needless _
  | refuse _ _ lacking => exact lacking.elim
  | accept taken added => exact tended.accept taken added
  | build taken found stage => exact tended.build tracked taken found stage rfl

/-- The build that is installed comes from the only snapshot that was on its way to the cell. -/
private theorem Seen.install (seen : j.Seen since key) (tracked : j.ledger.Tracked) {d : Delivery}
    {commands : List Command} (taken : j.ledger.commands = .install d :: commands) (store : Store) (sim : σ) :
    Seen since key { j with
      ledger := { j.ledger with commands, store, sim }, chronicle := j.chronicle.install d.claim } := by
  have works (c : Claim) :
      c ∈ j.ledger.works ↔ c = d.claim ∨ c ∈ ({ j.ledger with commands, store, sim } : Ledger σ).works := by
    simp only [Ledger.works, delivers, taken, List.mem_append, List.filterMap_cons, Command.claim?, List.mem_cons]
    tauto
  have member := (works d.claim).mpr (.inl rfl)
  by_cases here : d.key = key
  · have alone {c : Claim} (listed : c ∈ j.ledger.works) (owner : c.key = key) : c = d.claim :=
      tracked.one_work listed member (owner.trans here.symm)
    have dates : newer since (j.chronicle.taken d.claim) = true := by
      rcases seen with ⟨c, listed, owner, dates⟩ | ⟨_, known⟩
      · rwa [alone listed owner] at dates
      · exact known _ member here
    refine .inr ⟨?_, fun c listed owner => ?_⟩
    · exact (congrArg (newer since) (if_pos here.symm)).trans dates
    · exact (alone ((works c).mpr (.inr listed)) owner) ▸ dates
  · have later {c : Claim} (owner : c.key = key) (listed : c ∈ j.ledger.works) :=
      ((works c).mp listed).resolve_left fun same => here ((congrArg Claim.key same).symm.trans owner)
    rcases seen with ⟨c, listed, owner, dates⟩ | ⟨built, known⟩
    · exact .inl ⟨c, later owner listed, owner, dates⟩
    · refine .inr ⟨?_, fun c listed owner => known c ((works c).mpr (.inr listed)) owner⟩
      exact (congrArg (newer since) (if_neg (Ne.symm here))).trans built

theorem Watched.landing [Simulation σ] (watched : j.Watched since key) (tracked : j.ledger.Tracked)
    (landing : Landing j j') : j'.Watched since key := by
  cases landing with
  | install taken found stage current =>
    have busy := congrArg Stage.isInFlight stage
    exact watched_put tracked found busy rfl rfl rfl rfl (fun seen => seen.install tracked taken _ _) watched
  | other taken plain work =>
    refine watched.imp_right (.imp_right fun seen => seen.listed (fun c => ?_) rfl)
    simp only [Ledger.works, delivers, taken, List.filterMap_cons_none plain]

end Journal

namespace Pipeline

open Journal

variable {p : Pipeline σ ω} {planner : Planner} {c : Chronicle} {d middle : Desk} {since : Nat} {key : Key}
  {earlier later : List Event} {place : Position}

/-- A pass leaves all that is under way to itself. -/
private theorem pass_works (running : p.Running planner) (acts : Desk.Acts (p.desk planner) d) :
    ((p.afterPass d).ledger d.planner [] []).works = (p.ledger planner [] []).works := by
  have same : (Ledger.ofDesk d p.jobs p.sim).delivers = (Ledger.ofDesk (p.desk planner) p.jobs p.sim).delivers :=
    acts_keep (J := fun l => l.delivers = _) (fun _ _ act ready same => (delivers_act act ready).trans same) acts
      running.intact.commands rfl
  exact congrArg (p.jobs.map (·.claim) ++ ·) same

/-- What is pledged in the course of a pass is owed after it, if the cell is there and its claim was not given up. -/
private theorem pass_pledged (running : p.Running planner)
    (passed : (p.desk planner).pass p.events.letters.toList p.poses.sample = .ok d)
    (batch : p.batch = earlier ++ later)
    (reached : ((p.desk planner).opened p.batch.length).applyEvents earlier = .ok middle)
    (loaded : .cellUnloaded key ∉ later)
    (pledged : (middle.standing key).Pledged ((p.desk planner).standing key).slot)
    (there : d.store.contains key = true) (held : ¬ (d.standing key).Forsaken ((p.desk planner).standing key).slot) :
    (d.standing key).Owing ∨ (d.standing key).Blank := by
  rw [running.batch] at batch reached
  obtain ⟨orderly, s, ⟨_, kept⟩, dispatched⟩ :=
    Desk.pass_keeps (Standing.pledged_persists _ key) running.orderly passed batch reached ⟨loaded, pledged⟩
  rcases kept.settled dispatched with gone | lost | owing
  · obtain ⟨slot, present⟩ := Desk.standing_present orderly.sound there
    exact nomatch gone.symm.trans present
  · exact absurd lost held
  · exact owing

/-- A pass keeps watch of a cell that stays there, unless it gives up the claim of a built cell. -/
theorem pass_watched (running : p.Running planner) (watched : (p.journal planner [] [] c).Watched since key)
    (passed : (p.desk planner).pass p.events.letters.toList p.poses.sample = .ok d)
    (loaded : .cellUnloaded key ∉ p.batch) (there : d.store.contains key = true)
    (held : ¬ (d.standing key).Forsaken ((p.desk planner).standing key).slot) :
    ((p.afterPass d).journal d.planner [] [] (c.forget d.store)).Watched since key := by
  rw [Watched, ← or_assoc] at watched
  rcases watched with owing | seen
  · have pledged : (((p.desk planner).opened p.batch.length).standing key).Pledged ((p.desk planner).standing key).slot :=
      ⟨(running.orderly.opened _).tidy key, fun slot here => .inr ⟨slot, here, .inl ⟨rfl, rfl⟩⟩, owing⟩
    exact or_assoc.mp (.inl (pass_pledged running passed (List.nil_append _).symm rfl loaded pledged there held))
  · have acts := desk_acts p planner
    rw [passed] at acts
    have works := pass_works running acts
    have built : (c.forget d.store).built key = c.built key := if_pos there
    refine .inr (.inr ?_)
    unfold Seen
    rw [show ((p.afterPass d).journal d.planner [] [] (c.forget d.store)).ledger.works = _ from works]
    exact seen.imp_right fun ⟨dates, known⟩ => ⟨built.symm ▸ dates, known⟩

/-- A pass that applies an edit of a cell has the cell watched from then on. -/
theorem pass_edits {candid : Prop} (running : p.Running planner)
    (provided : (p.journal planner [] [] c).Provided candid)
    (passed : (p.desk planner).pass p.events.letters.toList p.poses.sample = .ok d)
    (batch : p.batch = earlier ++ .voxelEdited place :: later)
    (reached : ((p.desk planner).opened p.batch.length).applyEvents earlier = .ok middle)
    (here : middle.store.contains key = true) (affected : key ∈ (middle.planner.grid.affected place).map Coord.key)
    (loaded : .cellUnloaded key ∉ p.batch) (there : d.store.contains key = true)
    (held : ¬ (d.standing key).Forsaken ((p.desk planner).standing key).slot) :
    ((p.afterPass d).journal d.planner [] [] c).Watched since key := by
  have opened := running.orderly.opened p.batch.length
  rw [batch] at loaded
  have start : ((p.desk planner).standing key).Provided candid key (earlier ++ .voxelEdited place :: later) := by
    rw [← batch, running.batch]
    exact provided key
  obtain ⟨orderly, tidy, present, _⟩ := Desk.applyEvents_keep (Standing.provided_persists candid key) opened reached
    ⟨opened.tidy key, start.present, start.provided⟩
  obtain ⟨_, _, stems⟩ := Desk.applyEvents_keep (J := fun events s => .cellUnloaded key ∉ events ∧
      s.Stems ((p.desk planner).standing key).slot) (Standing.unhurt_persists (fun _ _ stir stems => stems.stir stir)
    (fun _ stems => stems) fun _ _ stems => stems) opened reached
    ⟨loaded, fun slot there => .inr ⟨slot, there, .inl ⟨rfl, rfl⟩⟩⟩
  obtain ⟨slot, shown⟩ := Desk.standing_present orderly.sound here
  obtain ⟨edited, applied, pledged⟩ : ∃ edited, middle.applyEvents [.voxelEdited place] = .ok edited ∧
      edited.standing key = (middle.standing key).invalidate :=
    ⟨_, rfl, (Desk.invalidateAll_standing orderly.sound _ _ key).trans (if_pos affected)⟩
  have reaching := Desk.applyEvents_append.mpr ⟨middle, reached, applied⟩
  refine or_assoc.mp (.inl (pass_pledged running passed (by rw [batch, List.append_cons]) reaching ?_ ?_ there held))
  · exact mt (List.mem_append_right _ ∘ List.mem_cons_of_mem _) loaded
  · rw [pledged]
    exact ⟨Stir.tidy (.invalidate _) tidy, stems.stir (.invalidate _),
      .inl (Standing.owing_invalidate shown (present slot shown))⟩

variable [Simulation σ] [Supplier ω]

/-- Whether a cell that nobody needs is left with the build that it has, though a claim was out on it or came to be. -/
def lapses (old new : Option Slot) : Bool :=
  new.any fun slot => slot.refs = 0 && slot.stage = .ready &&
    old.any fun before => before.stage.isInFlight || before.version ≠ slot.version

/-- Whether a move gives up the claim of a built cell. Draining gives up nothing. -/
def forsakes (p : Pipeline σ ω) (m : Move ω) (key : Key) : Bool :=
  match m with
  | .drain _ => false
  | m => lapses (p.store.tenant? key) ((p.move m).store.tenant? key)

/-- A cell that is referenced is there, and no claim of it is given up. -/
theorem unforsaken_of_referenced (p : Pipeline σ ω) (m : Move ω) (held : 0 < (p.move m).store.refsOf key) :
    (p.move m).store.contains key = true ∧ p.forsakes m key = false := by
  constructor
  · obtain ⟨i, found⟩ := indexed_of_refs held
    exact contains_of_indexed found
  · have kept : lapses (p.store.tenant? key) ((p.move m).store.tenant? key) = false := by
      rw [refsOf_tenant] at held
      cases there : (p.move m).store.tenant? key with
      | none => rfl
      | some slot =>
        rw [there] at held
        have needed : slot.refs ≠ 0 := Nat.ne_of_gt held
        simp [lapses, needed]
    cases m with
    | drain => rfl
    | _ => exact kept

private theorem forsakes_of_forsaken {m : Move ω} {s : Standing} (other : ∀ most, m ≠ .drain most)
    (left : ((p.move m).store.tenant? key).map Slot.dark = s.slot)
    (lost : s.Forsaken ((p.store.tenant? key).map Slot.dark)) : p.forsakes m key = true := by
  obtain ⟨slot, before, there, free, ready, old, changed⟩ := lost
  obtain ⟨tenant, left, rfl⟩ := Option.map_eq_some_iff.mp (left.trans there)
  obtain ⟨first, held, rfl⟩ := Option.map_eq_some_iff.mp old
  have lost : lapses (p.store.tenant? key) ((p.move m).store.tenant? key) = true := by
    rw [left, held]
    simp_all [lapses, Slot.dark]
  cases m with
  | drain most => exact absurd rfl (other most)
  | _ => exact lost

/-- A pass that is not said to give up a cell's claim leaves the cell with it. -/
theorem unforsaken (ends : p.move .pass = p.afterPass d) (held : p.forsakes .pass key = false) :
    ¬ (d.standing key).Forsaken ((p.desk planner).standing key).slot := by
  intro lost
  have left : ((p.move .pass).store.tenant? key).map Slot.dark = (d.standing key).slot := by rw [ends]; rfl
  rw [forsakes_of_forsaken (by simp) left lost] at held
  cases held

/-- What happens between passes keeps watch of a cell, unless it gives up the claim of a built one. -/
theorem move_watched (running : p.Running planner) (watched : (p.journal planner [] [] c).Watched since key)
    (late : since < c.now) {m : Move ω} (other : m ≠ .pass) (supplied : p.unanswered m = 0)
    (held : p.forsakes m key = false) : ((p.move m).journal planner [] [] (p.note c m)).Watched since key := by
  rcases move_deeds (fun _ _ => False) (c := c) running.intact running.tracked other (.inr supplied) with
    ⟨_, landings⟩ | ⟨drains, errands⟩
  · exact landings.keep (fun _ _ landing tracked kept => kept.landing tracked landing) running.tracked watched
  · have start : (p.journal planner [] [] c).Tended ((p.store.tenant? key).map Slot.dark) since key :=
      ⟨late, fun slot there flies => ⟨slot, there, flies⟩, .inl watched⟩
    have tended := errands.keep (fun _ _ errand tracked kept => kept.errand tracked errand) running.tracked start
    refine tended.watched.resolve_right fun lost => ?_
    rw [forsakes_of_forsaken drains rfl lost] at held
    cases held

/-- A cell is watched throughout a run in which the world supplies all that it is asked for, as long as the
cell stays and no claim of it is given up in favour of an old build. -/
theorem Running.watched (running : p.Running planner) (watched : (p.journal planner [] [] c).Watched since key)
    (late : since < c.now) {moves : List (Move ω)} (unfailing : p.Unfailing moves) (supplied : p.Supplied moves)
    (loaded : .cellUnloaded key ∉ p.applied moves)
    (kept : p.Throughout (fun q m => (q.move m).store.contains key = true ∧ q.forsakes m key = false) moves) :
    ∃ planner, (p.run moves).Running planner ∧
      ((p.run moves).journal planner [] [] (p.chronicle c moves)).Watched since key := by
  induction moves generalizing p planner c with
  | nil => exact ⟨planner, running, watched⟩
  | cons m moves ih =>
    obtain ⟨passes, unfailing⟩ := unfailing_cons.mp unfailing
    obtain ⟨answered, supplied⟩ := supplied
    obtain ⟨⟨there, held⟩, kept⟩ := kept
    have later : since < c.now + 1 := Nat.lt_succ_of_lt late
    rcases running.move_cases passes with ⟨d, rfl, passed, ends, next⟩ | ⟨other, next⟩
    · have unhurt : .cellUnloaded key ∉ p.batch ∧ .cellUnloaded key ∉ p.pass.1.applied moves :=
        not_or.mp (mt List.mem_append.mpr loaded)
      have there : d.store.contains key = true := by rwa [ends] at there
      have noted : p.note c .pass = c.forget d.store := by
        change c.forget (p.move .pass).store = _
        rw [ends]
        rfl
      have watched := pass_watched running watched passed unhurt.1 there (unforsaken ends held)
      rw [← noted, ← ends] at watched
      rw [← ends] at next
      exact ih next watched later unfailing supplied unhurt.2 kept
    · rw [applied_other other] at loaded
      exact ih next (move_watched running watched late other answered held) later unfailing supplied loaded kept

end Pipeline

end TerrainStream
