import TerrainStream.Proofs.Residency.Backlog
import TerrainStream.Proofs.Residency.Steady
import TerrainStream.Proofs.Store.Lookup

/-! A cell as the planner knows it. What a pass does about a cell depends on that cell's standing alone,
and changes the standing of no other. -/

namespace TerrainStream

open Cell Physics Store Collision

/-- A slot but for whether it is switched on. -/
def Store.Slot.dark (slot : Slot) : Slot := { slot with active := false }

/-- Whether a cell has no build, or only a coarse one, and none under way. -/
def Store.Slot.lacksBuild (slot : Slot) : Bool :=
  match slot.stage with
  | .unloaded => true
  | .ready => slot.placeholder
  | _ => false

namespace Store.Slot

variable (slot : Slot)

@[simp] theorem dark_stage : slot.dark.stage = slot.stage := rfl

@[simp] theorem dark_refs : slot.dark.refs = slot.refs := by rw [dark]

@[simp] theorem dark_lacksBuild : slot.dark.lacksBuild = slot.lacksBuild := by
  rw [lacksBuild, dark_stage, dark, lacksBuild]

theorem acceptsClaim_of_lacksBuild {slot : Slot} (lacks : slot.lacksBuild = true) : slot.stage.acceptsClaim = true := by
  unfold lacksBuild at lacks
  split at lacks <;> simp_all [Stage.acceptsClaim]

end Store.Slot

namespace Residency

/-- What the planner knows of one cell, at its own time and pace. -/
structure Standing where
  now : Nat
  pacing : Pacing
  /-- The slot that the cell lives in, switched off. -/
  slot : Option Slot
  /-- A request for the cell waits for admission. -/
  waiting : Bool
  /-- A request for the cell has been admitted. -/
  queued : Bool
  /-- An edit is kept for later. -/
  deferred : Bool
  retry : Option Nat
  leaving : Option Nat

namespace Standing

def refs (s : Standing) : Nat := s.slot.elim 0 (·.refs)

/-! ### References and claims -/

/-- Whether a claim on the cell would succeed. -/
def claimable (s : Standing) : Bool := s.slot.any (·.stage.acceptsClaim)

def claim (s : Standing) : Standing :=
  if s.claimable then
    { s with
      slot := s.slot.map fun slot => { slot with stage := .scheduled, version := slot.version + 1 }
      waiting := true }
  else s

def welcome (s : Standing) : Standing :=
  let s := { s with leaving := none }
  if s.slot.any (·.stage = .unloaded) then s.claim else s

/-- Take a reference; the slot is for a cell that is not there yet. -/
def take (newcomer : Slot) (s : Standing) : Standing :=
  let slot := s.slot.getD newcomer
  let s := { s with slot := some { slot with refs := slot.refs + 1 } }
  if slot.refs = 0 then s.welcome else s

def drop (s : Standing) : Standing :=
  match s.slot with
  | none => s
  | some slot =>
    let s := { s with slot := some { slot with refs := slot.refs - 1 } }
    if slot.refs - 1 = 0 then { s with leaving := some (s.leaving.getD (passAfter s.now s.pacing.removalGrace)) } else s

/-! ### Events -/

def invalidate (s : Standing) : Standing :=
  match s.slot with
  | none => s
  | some slot =>
    if s.waiting then s
    else if 0 < slot.refs ∧ slot.stage.acceptsClaim then s.claim
    else if slot.stage = .removing then s
    else { s with deferred := true }

/-- Claim the cell if it is referenced and lacks a build, and no request waits. -/
def renew (s : Standing) : Standing :=
  match s.slot with
  | none => s
  | some slot => if ¬ s.waiting ∧ slot.refs ≠ 0 ∧ slot.lacksBuild then s.claim else s

/-- Give up the claim that waits, if one does. -/
def giveUp (s : Standing) : Standing :=
  if s.waiting then
    { s with slot := s.slot.map fun slot => { slot with stage := slot.fallback }, waiting := false }
  else s

/-- Have the cell tried again after a while. -/
def postpone (s : Standing) : Standing := { s with retry := some (passAfter s.now s.pacing.retryAfter) }

/-- Have the cell tried again at once, unless that is due at some time already. -/
def remind (s : Standing) : Standing := { s with retry := some (s.retry.getD s.now) }

def unload (s : Standing) : Standing :=
  let s := { s.giveUp with deferred := false }
  match s.slot with
  | none => s
  | some slot => if slot.refs = 0 then { s with leaving := some s.now } else s.postpone

/-! ### Settling -/

/-- Look at a cell whose grace period is over. -/
def expire (s : Standing) : Standing :=
  match s.slot with
  | none => { s with leaving := none }
  | some slot =>
    if slot.refs ≠ 0 then { s with leaving := none }
    else if slot.stage.isInFlight then s
    else { s with slot := none, deferred := false, retry := none, leaving := none }

def swept (s : Standing) : Standing := if s.leaving.any (· ≤ s.now) then s.expire else s

def reconsider (s : Standing) : Standing :=
  match s.slot with
  | none => s
  | some slot =>
    if s.waiting then s
    else if 0 < slot.refs ∧ slot.stage.acceptsClaim then s.claim
    else { s with deferred := true }

def resumed (s : Standing) : Standing := if s.deferred then { s with deferred := false }.reconsider else s

def retried (s : Standing) : Standing :=
  if s.retry.any (· ≤ s.now) then { s with retry := none }.renew else s

/-- Give up the claim that waits if nobody needs the cell. -/
def shed (s : Standing) : Standing := if s.refs = 0 then s.giveUp else s

/-! ### Looking twice -/

variable {s : Standing} {slot : Slot}

theorem invalidate_invalidate (s : Standing) : s.invalidate.invalidate = s.invalidate := by
  grind [invalidate, claim, claimable]

theorem reconsider_reconsider (s : Standing) : s.reconsider.reconsider = s.reconsider := by
  grind [reconsider, claim, claimable]

theorem expire_expire (s : Standing) : s.expire.expire = s.expire := by
  grind [expire]

theorem renew_renew (s : Standing) :
    { { s with retry := none }.renew with retry := none }.renew = { s with retry := none }.renew := by
  grind [renew, claim, claimable]

/-- What a planner and a store know of a cell, when these requests have been admitted. -/
def of (p : Planner) (store : Store) (requests : List Request) (key : Key) : Standing where
  now := p.passes
  pacing := p.pacing
  slot := (store.tenant? key).map Slot.dark
  waiting := (p.pending.get? key).isSome
  queued := requests.any fun r => decide (r.key = key)
  deferred := p.deferred[key]?.isSome
  retry := p.retry[key]?
  leaving := p.leaving[key]?

end Standing

namespace Desk

def standing (d : Desk) (key : Key) : Standing :=
  .of d.planner d.store d.requests.letters.toList key

/-- One cell's standing changes, and no other's. -/
def Touches (k : Key) (f : Standing → Standing) (d d' : Desk) : Prop :=
  ∀ key, d'.standing key = if k = key then f (d.standing key) else d.standing key

variable {d d' d'' : Desk} {k : Key} {index : Nat} {slot fresh : Slot} {f g : Standing → Standing}
  {priority : Priority}

theorem Touches.here (touches : Touches k f d d') : d'.standing k = f (d.standing k) :=
  (touches k).trans (if_pos rfl)

theorem Touches.trans (first : Touches k f d d') (second : Touches k g d' d'') : Touches k (g ∘ f) d d'' := by
  intro key
  rw [second key, first key]
  split <;> rfl

theorem Touches.of_eq (touches : Touches k f d d') (same : f (d.standing k) = g (d.standing k)) : Touches k g d d' := by
  intro key
  rw [touches key]
  split
  · rename_i here
    rw [← here, same]
  · rfl

/-- The report is nothing to a cell. -/
theorem Touches.reported (touches : Touches k f d d') (report : Report) : Touches k f d { d' with report } :=
  fun key => touches key

theorem touches_none (same : f (d.standing k) = d.standing k) : Touches k f d d := by
  intro key
  split
  · rename_i here
    rw [← here, same]
  · rfl

/-! ### Notes -/

theorem touches_put (fresh : Slot) (sound : d.store.Sound) (found : d.store.live? index = some slot)
    (kept : fresh.live = slot.live) (owner : slot.key = k) : Touches k (fun s => { s with slot := some fresh.dark }) d
      { d with store := d.store.put index fresh } := by
  intro key
  simp only [standing, Standing.of, tenant?_put sound found kept, owner]
  split <;> rfl

theorem touches_pending {pending : Backlog} (waiting : Bool)
    (waits : ∀ key, (pending.get? key).isSome = if k = key then waiting else (d.planner.pending.get? key).isSome) :
    Touches k (fun s => { s with waiting }) d { d with planner := { d.planner with pending } } := by
  intro key
  simp only [standing, Standing.of, waits]
  split <;> rfl

theorem touches_defer (k : Key) (priority : Priority) : Touches k (fun s => { s with deferred := true }) d
    { d with planner := { d.planner with deferred := d.planner.deferred.insert k priority } } := by
  intro key
  simp only [standing, Standing.of, Table.getElem?_insert]
  split <;> rfl

theorem touches_undefer (k : Key) : Touches k (fun s => { s with deferred := false }) d
    { d with planner := { d.planner with deferred := d.planner.deferred.erase k } } := by
  intro key
  simp only [standing, Standing.of, Table.getElem?_erase]
  split <;> rfl

theorem touches_retry (k : Key) (due : Nat) : Touches k (fun s => { s with retry := some due }) d
    { d with planner := { d.planner with retry := d.planner.retry.insert k due } } := by
  intro key
  simp only [standing, Standing.of, Table.getElem?_insert]
  split <;> rfl

theorem touches_unretry (k : Key) : Touches k (fun s => { s with retry := none }) d
    { d with planner := { d.planner with retry := d.planner.retry.erase k } } := by
  intro key
  simp only [standing, Standing.of, Table.getElem?_erase]
  split <;> rfl

theorem touches_leave (k : Key) (due : Nat) : Touches k (fun s => { s with leaving := some due }) d
    { d with planner := { d.planner with leaving := d.planner.leaving.insert k due } } := by
  intro key
  simp only [standing, Standing.of, Table.getElem?_insert]
  split <;> rfl

theorem touches_stay (k : Key) : Touches k (fun s => { s with leaving := none }) d
    { d with planner := { d.planner with leaving := d.planner.leaving.erase k } } := by
  intro key
  simp only [standing, Standing.of, Table.getElem?_erase]
  split <;> rfl

private theorem getD_insertIfNew (table : KeyMap Nat) (k key : Key) (due : Nat) :
    (table.insertIfNew k due)[key]? = if k = key then some (table[key]?.getD due) else table[key]? := by
  cases found : table[k]? with
  | none =>
    rw [Table.insertIfNew_absent found, Table.getElem?_insert]
    split
    · rename_i here
      rw [← here, found, Option.getD_none]
    · rfl
  | some held =>
    rw [Table.insertIfNew_present found]
    split
    · rename_i here
      rw [← here, found, Option.getD_some]
    · rfl

theorem touches_leaveNew (k : Key) (due : Nat) : Touches k (fun s => { s with leaving := some (s.leaving.getD due) }) d
    { d with planner := { d.planner with leaving := d.planner.leaving.insertIfNew k due } } := by
  intro key
  simp only [standing, Standing.of, getD_insertIfNew]
  split <;> rfl

theorem touches_remind (k : Key) : Touches k Standing.remind d
    { d with planner := { d.planner with retry := d.planner.retry.insertIfNew k d.planner.passes } } := by
  intro key
  simp only [standing, Standing.of, getD_insertIfNew]
  split <;> rfl

/-! ### The cell itself -/

theorem standing_slot (living : d.store.live? index = some slot) (sound : d.store.Sound) :
    (d.standing slot.key).slot = some slot.dark := by
  simp only [standing, Standing.of, tenant?_live sound living, Option.map_some]

theorem standing_absent (absent : d.store.indexOf k = none) : (d.standing k).slot = none := by
  simp only [standing, Standing.of, tenant?_absent absent, Option.map_none]

theorem standing_present (sound : d.store.Sound) (there : d.store.contains k = true) :
    ∃ slot, (d.standing k).slot = some slot := by
  obtain ⟨slot, tenant⟩ := Option.isSome_iff_exists.mp ((tenant?_isSome sound).trans there)
  exact ⟨slot.dark, congrArg (Option.map Slot.dark) tenant⟩

theorem standing_refs (d : Desk) (k : Key) : (d.standing k).refs = d.store.refsOf k := by
  rw [refsOf_tenant]
  exact Option.elim_map ..

/-- The index leads to the slot that the standing shows, or the standing shows none. -/
theorem standing_cases (sound : d.store.Sound) (k : Key) :
    (∃ i slot, d.store.indexOf k = some i ∧ d.store.live? i = some slot ∧ slot.key = k ∧
      (d.standing k).slot = some slot.dark) ∨
    (d.store.indexOf k = none ∧ (d.standing k).slot = none) := by
  rcases tenant_cases sound k with ⟨i, slot, found, living, rfl, _⟩ | ⟨absent, _⟩
  · exact .inl ⟨i, slot, found, living, rfl, standing_slot living sound⟩
  · exact .inr ⟨absent, standing_absent absent⟩

/-! ### Claims and references -/

theorem claim_touches (sound : d.store.Sound) (living : d.store.live? index = some slot) (owner : slot.key = k)
    (priority : Priority) :
    Touches k Standing.claim d (d.claim k index priority).1 ∧
      (d.claim k index priority).2 = slot.stage.acceptsClaim := by
  have shown : (d.standing k).slot = some slot.dark := owner ▸ standing_slot living sound
  unfold Desk.claim schedule
  simp only [living]
  cases accepts : slot.stage.acceptsClaim with
  | false =>
    refine ⟨touches_none ?_, rfl⟩
    simp [Standing.claim, Standing.claimable, shown, Slot.dark, accepts]
  | true =>
    have moved := touches_put { slot with stage := .scheduled, version := slot.version + 1 }
      sound living rfl owner
    have recorded (d : Desk) (r : Request) (name : r.key = k) : Touches k (fun s => { s with waiting := true }) d
        { d with planner := { d.planner with pending := d.planner.pending.record r } } := by
      refine touches_pending _ fun key => ?_
      rw [Backlog.get?_record, name]
      by_cases here : k = key <;> simp [here]
    refine ⟨(moved.trans (recorded _ ⟨k, index, _, _, priority⟩ rfl)).of_eq ?_, rfl⟩
    simp [Standing.claim, Standing.claimable, shown, Slot.dark, accepts]

theorem claim_refused (living : d.store.live? index = some slot) (busy : slot.stage.acceptsClaim = false)
    (k : Key) (priority : Priority) : d.claim k index priority = (d, false) := by
  simp [Desk.claim, schedule, living, busy]

/-- Nothing is claimed without a reference or while a claim is out. -/
private theorem claim_unwanted (living : d.store.live? index = some slot)
    (unwanted : ¬ (0 < slot.refs ∧ slot.stage.acceptsClaim = true)) (k : Key) (priority : Priority) :
    (if d.store.refs index > 0 then d.claim k index priority else (d, false)) = (d, false) := by
  have refs : d.store.refs index = slot.refs := by simp [Store.refs, living]
  rw [refs]
  split
  · rename_i held
    exact claim_refused living (Bool.eq_false_iff.mpr fun accepts => unwanted ⟨held, accepts⟩) k priority
  · rfl

theorem welcome_touches (sound : d.store.Sound) (living : d.store.live? index = some slot) (owner : slot.key = k) :
    Touches k Standing.welcome d (d.welcome k index) := by
  have shown : (d.standing k).slot = some slot.dark := owner ▸ standing_slot living sound
  have stage : d.store.stage index = slot.stage := stage_live living
  have stays := touches_stay (d := d) k
  unfold Desk.welcome
  simp only [stage]
  split
  · rename_i empty
    have claimed := claim_touches
      (d := { d with planner := { d.planner with leaving := d.planner.leaving.erase k } }) sound living owner .load
    refine (stays.trans claimed.1).of_eq ?_
    simp [Standing.welcome, shown, Slot.dark, empty]
  · rename_i built
    refine stays.of_eq ?_
    simp [Standing.welcome, shown, Slot.dark, built]

/-- A reference is taken on one cell, which is let in if it was not there. -/
theorem acquire_touches (sound : d.store.Sound) (acquired : d.acquire k = .ok d') :
    ∃ version, Touches k (Standing.take (Slot.newcomer k version)) d d' := by
  unfold Desk.acquire at acquired
  split at acquired
  · cases acquired
  · rename_i store i added
    have entered : ∃ version slot, store.Sound ∧ store.live? i = some slot ∧ slot.key = k ∧
        Touches k (fun s => { s with slot := some (s.slot.getD (Slot.newcomer k version)) }) d { d with store } ∧
        ((d.standing k).slot.getD (Slot.newcomer k version)) = slot.dark := by
      rcases added_cases sound added with rfl | ⟨admitted, kept⟩
      · obtain ⟨slot, living, owner⟩ := sound.lives (add_indexed added)
        have shown : (d.standing k).slot = some slot.dark := owner ▸ standing_slot living sound
        exact ⟨0, slot, sound, living, owner, touches_none (by rw [shown]; exact shown.symm ▸ rfl), by rw [shown]; rfl⟩
      · have absent := standing_absent admitted.absent
        refine ⟨d.store.version i, _, kept, admitted.here, rfl, ?_, by rw [absent]; rfl⟩
        intro key
        simp only [standing, Standing.of, admitted.tenant? sound kept]
        split
        · rename_i here
          rw [tenant?_absent (here ▸ admitted.absent)]
          rfl
        · rfl
    obtain ⟨version, slot, kept, living, owner, entered, shown⟩ := entered
    simp only [retain_live living] at acquired
    cases acquired
    have counted := touches_put (d := { d with store }) { slot with refs := slot.refs + 1 } kept living rfl owner
    have retained := entered.trans counted
    refine ⟨version, ?_⟩
    have first : some (slot.refs + 1) = some 1 ↔ slot.refs = 0 := by simp
    have level : slot.dark.refs = slot.refs := rfl
    by_cases fresh : slot.refs = 0
    · have again := live?_put_self { slot with refs := slot.refs + 1 } living rfl
      have welcomed := welcome_touches (d := { d with
        store := store.put i { slot with refs := slot.refs + 1 }
        report := { d.report with acquired := d.report.acquired + 1 } }) (kept.put living rfl rfl) again owner
      rw [if_pos (first.mpr fresh)]
      refine (retained.trans welcomed).of_eq ?_
      simp only [Function.comp_apply, Standing.take, shown, level, if_pos fresh]
      rfl
    · rw [if_neg (mt first.mp fresh)]
      refine retained.of_eq ?_
      simp only [Function.comp_apply, Standing.take, shown, level, if_neg fresh]
      rfl

/-- A reference is dropped on one cell, if it is there. -/
theorem release_touches (sound : d.store.Sound) (k : Key) : Touches k Standing.drop d (d.release k) := by
  unfold Desk.release
  rcases standing_cases sound k with ⟨i, slot, found, living, owner, shown⟩ | ⟨absent, shown⟩
  · simp only [found, release_live living]
    have lowered := touches_put (d := d) { slot with refs := slot.refs - 1 } sound living rfl owner
    have last : some (slot.refs - 1) = some 0 ↔ slot.refs - 1 = 0 := by simp
    by_cases free : slot.refs - 1 = 0
    · rw [if_pos (last.mpr free)]
      have left := touches_leaveNew (d := { d with store := d.store.put i { slot with refs := slot.refs - 1 } }) k
        (passAfter d.planner.passes d.planner.pacing.removalGrace)
      refine (lowered.trans left).of_eq ?_
      simp only [Function.comp_apply, Standing.drop, shown]
      exact (if_pos free).symm
    · rw [if_neg (mt last.mp free)]
      refine lowered.of_eq ?_
      simp only [Standing.drop, shown]
      exact (if_neg free).symm
  · simp only [absent]
    exact touches_none (by simp [Standing.drop, shown])

/-! ### Events -/

/-- Raising a request changes no more than its priority. -/
private theorem raise_touches (k : Key) (priority : Priority) {pending : Backlog} {answer : Bool}
    (raised : d.planner.pending.raise k priority = (pending, answer)) (same : f (d.standing k) = d.standing k) :
    Touches k f d { d with planner := { d.planner with pending } } := by
  have waits := d.planner.pending.get?_raise k priority
  rw [raised] at waits
  refine (touches_pending (d.planner.pending.get? k).isSome fun key => ?_).of_eq same.symm
  rw [waits]
  split
  · rename_i here
    rw [here]
  · rfl

theorem invalidate_touches (sound : d.store.Sound) (priority : Priority) (k : Key) :
    Touches k Standing.invalidate d (d.invalidate priority k) := by
  unfold Desk.invalidate
  rcases standing_cases sound k with ⟨i, slot, found, living, owner, shown⟩ | ⟨absent, shown⟩
  · have answer := d.planner.pending.raise_answer k priority
    have refs : d.store.refs i = slot.refs := by simp [Store.refs, living]
    have stage : d.store.stage i = slot.stage := stage_live living
    obtain ⟨claimed, granted⟩ := claim_touches sound living owner priority
    simp only [found]
    split
    · rename_i pending raised
      have waits : (d.standing k).waiting = true := by rw [raised] at answer; exact answer.symm
      exact raise_touches k priority raised (by simp [Standing.invalidate, shown, waits])
    · rename_i pending raised
      have idle : (d.standing k).waiting = false := by rw [raised] at answer; exact answer.symm
      by_cases wanted : 0 < slot.refs ∧ slot.stage.acceptsClaim = true
      · simp only [refs, wanted.1, ↓reduceIte, granted, wanted.2]
        refine claimed.of_eq ?_
        simp [Standing.invalidate, shown, idle, Slot.dark, wanted]
      · have unwanted : ¬ (0 < slot.dark.refs ∧ slot.dark.stage.acceptsClaim = true) := wanted
        simp only [claim_unwanted living wanted, Bool.false_eq_true, ↓reduceIte, stage]
        by_cases leaving : slot.stage = .removing
        · rw [if_neg (not_not.mpr leaving)]
          refine touches_none ?_
          simp only [Standing.invalidate, shown, idle, Bool.false_eq_true, ↓reduceIte]
          exact (if_neg unwanted).trans (if_pos leaving)
        · rw [if_pos leaving]
          refine (touches_defer k _).of_eq ?_
          simp only [Standing.invalidate, shown, idle, Bool.false_eq_true, ↓reduceIte]
          exact ((if_neg unwanted).trans (if_neg leaving)).symm
  · simp only [absent]
    exact touches_none (by simp [Standing.invalidate, shown])

theorem lacksBuild_live (living : d.store.live? index = some slot) :
    lacksBuild d.store index = slot.lacksBuild := by
  rw [lacksBuild, stage_live living, isPlaceholder_live living]
  rfl

/-- A cell is claimed if it is referenced and lacks a build, once it is known that no request waits. -/
private theorem renew_touches (sound : d.store.Sound) (idle : (d.standing k).waiting = false) (priority : Priority)
    (found : d.store.indexOf k = some index) (noting : Desk → Desk) (noted : ∀ d, (noting d).standing = d.standing) :
    Touches k Standing.renew d
      (if (d.store.refs index ≠ 0 && lacksBuild d.store index) = true then
        let (d, claimed) := d.claim k index priority
        if claimed then noting d else d
      else d) := by
  obtain ⟨slot, living, owner⟩ := sound.lives found
  have shown : (d.standing k).slot = some slot.dark := owner ▸ standing_slot living sound
  have refs : d.store.refs index = slot.refs := by simp [Store.refs, living]
  rw [refs, lacksBuild_live living]
  by_cases wanted : slot.refs ≠ 0 ∧ slot.lacksBuild = true
  · obtain ⟨claimed, granted⟩ := claim_touches sound living owner priority
    rw [if_pos (by simp [wanted])]
    have claimed : Touches k Standing.claim d (noting (d.claim k index priority).1) := fun key => by
      rw [noted]
      exact claimed key
    rw [Slot.acceptsClaim_of_lacksBuild wanted.2] at granted
    simp only [granted, ↓reduceIte]
    refine claimed.of_eq ?_
    simp [Standing.renew, shown, idle, wanted]
  · rw [if_neg (by simpa using wanted)]
    refine touches_none ?_
    simpa [Standing.renew, shown, idle] using fun held lacks => absurd ⟨held, lacks⟩ wanted

theorem prioritize_touches (sound : d.store.Sound) (k : Key) (priority : Priority) :
    Touches k Standing.renew d (d.prioritize k priority) := by
  have answer := d.planner.pending.raise_answer k priority
  unfold Desk.prioritize
  split
  · rename_i pending raised
    have waits : (d.standing k).waiting = true := by rw [raised] at answer; exact answer.symm
    refine raise_touches k priority raised ?_
    unfold Standing.renew
    split <;> simp [waits]
  · rename_i pending raised
    have idle : (d.standing k).waiting = false := by rw [raised] at answer; exact answer.symm
    rcases standing_cases sound k with ⟨i, slot, found, living, owner, shown⟩ | ⟨absent, shown⟩
    · simp only [found]
      exact renew_touches sound idle priority found
        (fun d => { d with report := { d.report with invalidated := d.report.invalidated + 1 } }) fun _ => rfl
    · simp only [absent]
      exact touches_none (by simp [Standing.renew, shown])

/-- The request that waits for a cell waits for the claim that is out on it. -/
def Filed (d : Desk) (k : Key) : Prop :=
  ∀ r, d.planner.pending.get? k = some r →
    ∃ slot, d.store.live? r.index = some slot ∧ slot.stage = .scheduled ∧ slot.key = k ∧ slot.version = r.version

theorem dropPending_touches (sound : d.store.Sound) (filed : d.Filed k) :
    Touches k Standing.giveUp d (d.dropPending k) := by
  unfold Desk.dropPending
  split
  · rename_i removed
    have idle : (d.standing k).waiting = false := by
      have absent : d.planner.pending.get? k = none := (Prod.mk.inj removed).2
      simp only [standing, Standing.of, absent, Option.isSome_none]
    exact touches_none (by simp [Standing.giveUp, idle])
  · rename_i pending r removed
    obtain ⟨rfl, waits⟩ := Prod.mk.inj removed
    obtain ⟨slot, living, stage, owner, version⟩ := filed r waits
    have shown : (d.standing k).slot = some slot.dark := owner ▸ standing_slot living sound
    have waiting : (d.standing k).waiting = true := by
      simp only [standing, Standing.of, waits, Option.isSome_some]
    rw [← version, abandon_current living (by rw [stage]; rfl)]
    have given := touches_put (d := d) { slot with stage := slot.fallback } sound living rfl owner
    have taken (d : Desk) : Touches k (fun s => { s with waiting := false }) d
        { d with planner := { d.planner with pending := ⟨d.planner.pending.byKey.erase k⟩ } } := by
      refine touches_pending _ fun key => ?_
      rw [Backlog.get?, Table.getElem?_erase]
      split <;> rfl
    refine (given.trans (taken _)).of_eq ?_
    simp [Standing.giveUp, waiting, shown, Slot.dark, Slot.fallback]

theorem unload_touches (sound : d.store.Sound) (filed : d.Filed k) : Touches k Standing.unload d (d.unload k) := by
  have dropped := dropPending_touches sound filed
  have kept : (d.dropPending k).store.Sound := sound.of_outline (Clerk.dropPending d k).framed.outline
  have cleared := dropped.trans (touches_undefer k)
  unfold Desk.unload
  rcases standing_cases kept k with ⟨i, slot, found, living, owner, shown⟩ | ⟨absent, shown⟩
  · have refs : (d.dropPending k).store.refs i = slot.refs := by simp [Store.refs, living]
    rw [dropped.here] at shown
    simp only [found, refs]
    by_cases free : slot.refs = 0
    · rw [if_pos free]
      refine (cleared.trans (touches_leave k (d.dropPending k).planner.passes)).of_eq ?_
      have now : (d.dropPending k).planner.passes = (d.standing k).giveUp.now := congrArg Standing.now dropped.here
      simp [Standing.unload, shown, free, now]
    · rw [if_neg free]
      have due : passAfter (d.dropPending k).planner.passes (d.dropPending k).planner.pacing.retryAfter =
          passAfter (d.standing k).giveUp.now (d.standing k).giveUp.pacing.retryAfter := by
        rw [← dropped.here]
        rfl
      refine (cleared.trans (touches_retry k _)).of_eq ?_
      simp [Standing.unload, shown, free, due, Standing.postpone]
  · rw [dropped.here] at shown
    simp only [absent]
    refine cleared.of_eq ?_
    simp [Standing.unload, shown]

/-! ### Settling -/

theorem switch_standing (sound : d.store.Sound) (enabled : Bool) (key : Key) :
    (d.switch enabled key).standing = d.standing := by
  rcases switch_cases sound enabled key with ⟨i, slot, report, living, owner, step, _⟩ | ⟨_, step⟩
  · have relit := touches_put (d := d) { slot with active := enabled } sound living rfl owner
    have shown : (d.standing key).slot = some slot.dark := owner ▸ standing_slot living sound
    rw [step]
    funext other
    refine (relit.of_eq (g := id) ?_ other).trans (ite_self _)
    change { d.standing key with slot := some slot.dark } = d.standing key
    rw [← shown]
  · rw [step]

theorem sweepOne_touches (sound : d.store.Sound) (k : Key) : Touches k Standing.expire d (d.sweepOne k) := by
  have stays := touches_stay (d := d) k
  unfold Desk.sweepOne
  rcases standing_cases sound k with ⟨i, slot, found, living, owner, shown⟩ | ⟨absent, shown⟩
  · have refs : d.store.refs i = slot.refs := by simp [Store.refs, living]
    simp only [found, refs]
    by_cases free : slot.refs = 0
    · rw [if_neg (not_not.mpr free)]
      split
      · rename_i store refused
        have flying : slot.stage.isInFlight = true := by
          simp only [tryRetire, living, free, ne_eq, not_true_eq_false, ↓reduceIte] at refused
          split at refused
          · cases refused
          · split at refused
            · assumption
            · cases refused
        obtain rfl := tryRetire_false refused
        exact touches_none (by simp [Standing.expire, shown, free, flying])
      · rename_i store retired
        obtain ⟨s', tenant, report, departed, kept, _, idle, step, _⟩ := evict_cases sound found retired
        obtain rfl : slot = tenant := Option.some.inj (living.symm.trans departed.found)
        rw [step]
        have gone (commands report) : Touches k
            (fun s => { s with slot := none, deferred := false, retry := none, leaving := none }) d
            { d with planner := forget d.planner k, store := s', commands, report } := by
          intro key
          simp only [standing, Standing.of, forget, departed.tenant? sound, Table.getElem?_erase]
          split <;> rfl
        refine (gone _ _).of_eq ?_
        simp [Standing.expire, shown, free, idle]
    · rw [if_pos free]
      refine stays.of_eq ?_
      simp [Standing.expire, shown, free]
  · simp only [absent]
    refine stays.of_eq ?_
    simp [Standing.expire, shown]

theorem resumeOne_touches (sound : d.store.Sound) (edit : Key × Priority) :
    Touches edit.1 Standing.reconsider d (d.resumeOne edit) := by
  obtain ⟨k, priority⟩ := edit
  have answer := d.planner.pending.raise_answer k priority
  unfold Desk.resumeOne
  rcases standing_cases sound k with ⟨i, slot, found, living, owner, shown⟩ | ⟨absent, shown⟩
  · obtain ⟨claimed, granted⟩ := claim_touches sound living owner priority
    simp only [found]
    split
    · rename_i pending raised
      have waits : (d.standing k).waiting = true := by rw [raised] at answer; exact answer.symm
      exact raise_touches k priority raised (by simp [Standing.reconsider, shown, waits])
    · rename_i pending raised
      have idle : (d.standing k).waiting = false := by rw [raised] at answer; exact answer.symm
      by_cases wanted : 0 < slot.refs ∧ slot.stage.acceptsClaim = true
      · have refs : d.store.refs i = slot.refs := by simp [Store.refs, living]
        simp only [refs, wanted.1, ↓reduceIte, granted, wanted.2]
        refine claimed.of_eq ?_
        simp [Standing.reconsider, shown, idle, wanted]
      · have unwanted : ¬ (0 < slot.dark.refs ∧ slot.dark.stage.acceptsClaim = true) := wanted
        simp only [claim_unwanted living wanted, Bool.false_eq_true, ↓reduceIte]
        refine (touches_defer k priority).of_eq ?_
        simp only [Standing.reconsider, shown, idle, Bool.false_eq_true, ↓reduceIte]
        exact (if_neg unwanted).symm
  · simp only [absent]
    exact touches_none (by simp [Standing.reconsider, shown])

theorem retryOne_touches (sound : d.store.Sound) (k : Key) :
    Touches k (fun s => { s with retry := none }.renew) d (d.retryOne k) := by
  have cleared := touches_unretry (d := d) k
  unfold Desk.retryOne
  dsimp only
  split
  · rename_i waits
    refine cleared.of_eq ?_
    have waiting : (d.standing k).waiting = true := by
      rw [← waits, Backlog.contains, Std.ExtTreeMap.contains_eq_isSome_getElem?]
      rfl
    unfold Standing.renew
    split <;> simp [waiting]
  · rename_i idle
    have idle : (d.standing k).waiting = false := by
      rw [Backlog.contains, Std.ExtTreeMap.contains_eq_isSome_getElem?] at idle
      exact Bool.eq_false_iff.mpr idle
    rcases standing_cases sound k with ⟨i, slot, found, living, owner, shown⟩ | ⟨absent, shown⟩
    · simp only [found]
      have renewed := renew_touches (d := { d with planner := { d.planner with retry := d.planner.retry.erase k } })
        sound (cleared.here ▸ idle) .load found
        (fun d => { d with report := { d.report with retried := d.report.retried + 1 } }) fun _ => rfl
      exact cleared.trans renewed
    · simp only [absent]
      refine cleared.of_eq ?_
      simp [Standing.renew, shown]

/-! ### Many cells -/

section Folds

variable {α : Type} {h : Desk → α → Desk}

/-- Cells that are dealt with in turn are each dealt with as they stood; dealing with one twice adds nothing. -/
theorem fold_touches {J : List α → Desk → Prop} (name : α → Key) (keeps : ∀ d x xs, J (x :: xs) d → J xs (h d x))
    (step : ∀ d x xs, J (x :: xs) d → Touches (name x) f d (h d x)) (again : ∀ s, f (f s) = f s) (xs : List α)
    (start : J xs d) (key : Key) :
    (xs.foldl h d).standing key = if key ∈ xs.map name then f (d.standing key) else d.standing key := by
  induction xs generalizing d with
  | nil => simp
  | cons x xs ih =>
    simp only [List.foldl_cons, ih (keeps d x xs start), step d x xs start key, List.map_cons, List.mem_cons]
    by_cases here : name x = key
    · simp only [here, ↓reduceIte, true_or, again, ite_self]
    · simp only [here, Ne.symm here, ↓reduceIte, false_or]

/-- Nothing but a sound store is needed to deal with cells in turn. -/
private theorem fold_sound (name : α → Key) (keeps : ∀ d x, d.store.Sound → (h d x).store.Sound)
    (step : ∀ d x, d.store.Sound → Touches (name x) f d (h d x)) (again : ∀ s, f (f s) = f s) (xs : List α)
    (sound : d.store.Sound) (key : Key) :
    (xs.foldl h d).standing key = if key ∈ xs.map name then f (d.standing key) else d.standing key :=
  fold_touches (J := fun _ d => d.store.Sound) name (fun d x _ => keeps d x) (fun d x _ => step d x) again xs sound key

/-- Invalidating cells in turn invalidates each of them. -/
theorem invalidateAll_standing (sound : d.store.Sound) (priority : Priority) (keys : List Key) (key : Key) :
    (keys.foldl (fun d key => d.invalidate priority key) d).standing key =
      if key ∈ keys then (d.standing key).invalidate else d.standing key := by
  have kept (d : Desk) (k : Key) (sound : d.store.Sound) : (d.invalidate priority k).store.Sound :=
    sound.of_outline (invalidate_clerical d priority k).framed.outline
  have edited := fold_sound id kept (fun d k sound => invalidate_touches sound priority k)
    Standing.invalidate_invalidate keys sound key
  simpa only [List.map_id] using edited

theorem mem_due {table : KeyMap Nat} {now : Nat} {key : Key} :
    key ∈ due table now ↔ table[key]?.any (· ≤ now) = true := by
  simp only [due, List.mem_map, List.mem_filter, Prod.exists, exists_and_right, exists_eq_right, Table.mem_toList,
    Option.any_eq_true]

theorem sweep_standing (sound : d.store.Sound) (key : Key) : d.sweep.standing key = (d.standing key).swept := by
  have swept := fold_sound id (fun d k sound => (sweepOne_steady sound k).sound)
    (fun _ k sound => sweepOne_touches sound k) Standing.expire_expire (due d.planner.leaving d.planner.passes) sound key
  simp only [List.map_id, mem_due] at swept
  exact swept

theorem retryAll_standing (sound : d.store.Sound) (key : Key) : d.retryAll.standing key = (d.standing key).retried := by
  have kept (d : Desk) (k : Key) (sound : d.store.Sound) : (d.retryOne k).store.Sound :=
    sound.of_outline (retryOne_clerical d k).framed.outline
  have retried := fold_sound id kept
    (fun _ k sound => retryOne_touches sound k) Standing.renew_renew (due d.planner.retry d.planner.passes) sound key
  simp only [List.map_id, mem_due] at retried
  exact retried

theorem resume_standing (sound : d.store.Sound) (key : Key) : d.resume.standing key = (d.standing key).resumed := by
  have kept (d : Desk) (edit : Key × Priority) (sound : d.store.Sound) : (d.resumeOne edit).store.Sound :=
    sound.of_outline (resumeOne_clerical d edit).framed.outline
  have resumed := fold_sound (d := { d with planner := { d.planner with deferred := ∅ } }) Prod.fst kept
    (fun _ edit sound => resumeOne_touches sound edit) Standing.reconsider_reconsider d.planner.deferred.toList sound key
  have cleared : ({ d with planner := { d.planner with deferred := ∅ } } : Desk).standing key =
      { d.standing key with deferred := false } := by
    simp [standing, Standing.of]
  have listed : key ∈ d.planner.deferred.toList.map Prod.fst ↔ (d.standing key).deferred = true := by
    simp only [List.mem_map, Prod.exists, exists_and_right, exists_eq_right, Table.mem_toList, standing, Standing.of,
      Option.isSome_iff_exists]
  simp only [cleared, listed] at resumed
  refine resumed.trans ?_
  unfold Standing.resumed
  split
  · rfl
  · rename_i nothing
    cases shown : d.standing key
    simp_all

theorem activate_standing (sound : d.store.Sound) : d.activate.standing = d.standing := by
  have switching (enabled : Bool) (keys : List Key) {d : Desk} (sound : d.store.Sound) :
      (keys.foldl (·.switch enabled) d).standing = d.standing ∧ (keys.foldl (·.switch enabled) d).store.Sound := by
    induction keys generalizing d with
    | nil => exact ⟨rfl, sound⟩
    | cons key keys ih =>
      obtain ⟨same, kept⟩ := ih (switch_steady sound enabled key).sound
      exact ⟨same.trans (switch_standing sound enabled key), kept⟩
  obtain ⟨on, kept⟩ := switching true (d.planner.wanted \ d.planner.active).toList sound
  obtain ⟨off, _⟩ := switching false (d.planner.active \ d.planner.wanted).toList kept
  exact off.trans on

end Folds

end Desk
end Residency
end TerrainStream
