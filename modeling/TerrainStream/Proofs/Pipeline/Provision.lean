import TerrainStream.Proofs.Physics.Scene
import TerrainStream.Proofs.Pipeline.Running

/-! No cell is stranded. A referenced cell without a build has a claim out, or the planner will look at it
again: it is listed for a retry, or the word that the world lacks it is on its way. -/

namespace TerrainStream

open Cell Store Shape Collision Build Residency Physics World

variable {σ ω : Type}

/-- Whether a world that lacks a cell names the cell that it was asked for. -/
def World.Candid (ω : Type) [Supplier ω] : Prop :=
  ∀ (world : ω) key e, (Supplier.snapshot world key).2 = .error e → e.key = key

theorem ground_candid : World.Candid Ground := by
  intro ground key e answer
  change (ground.snapshot key).2 = .error e at answer
  unfold Ground.snapshot at answer
  split at answer
  · cases answer
    rfl
  · split at answer
    · cases answer
    · rename_i map _
      simp only [Heightmap.snapshot] at answer
      split at answer <;> cases answer
      rfl

namespace Residency.Standing

/-- A cell is not marked as leaving, and it is not stranded if the world is candid. -/
structure Provided (candid : Prop) (key : Key) (events : List Event) (s : Standing) : Prop where
  present : ∀ slot, s.slot = some slot → slot.stage ≠ .removing
  provided : candid → ∀ slot, s.slot = some slot → 0 < slot.refs → slot.stage = .unloaded →
    s.retry.isSome = true ∨ .snapshotUnavailable key ∈ events

variable {candid : Prop} {key : Key} {events : List Event} {s s' : Standing}

theorem provided_persists (candid : Prop) (key : Key) :
    Persists key fun events s => s.Tidy ∧ s.Provided candid key events where
  unloaded := by
    rintro rest s ⟨tidy, present, provided⟩
    constructor
    · grind [Tidy, unload, giveUp, postpone]
    · constructor
      · grind [unload, giveUp, postpone, Slot.fallback, Option.map_eq_some_iff]
      · grind [unload, giveUp, postpone, Slot.fallback, Option.map_eq_some_iff]
  unavailable := by
    rintro rest s ⟨tidy, present, provided⟩
    exact ⟨tidy, present, fun _ _ _ _ _ => .inl rfl⟩
  configured := by
    rintro pacing margins rest s ⟨tidy, present, provided⟩
    refine ⟨tidy, present, fun honest slot there held bare => ?_⟩
    exact (provided honest slot there held bare).imp_right fun listed => by simpa using listed
  other := by
    rintro e rest s loaded available ⟨tidy, present, provided⟩
    refine ⟨tidy, present, fun honest slot there held bare => ?_⟩
    exact (provided honest slot there held bare).imp_right fun listed => by
      rcases List.mem_cons.mp listed with same | later
      · exact absurd same.symm available
      · exact later
  stir := by
    rintro rest s s' stir ⟨tidy, present, provided⟩
    refine ⟨stir.tidy tidy, ?_, ?_⟩
    · cases stir <;> cases there : s.slot <;>
        grind [take, drop, invalidate, renew, remind, welcome, claim, claimable, Slot.newcomer]
    · cases stir <;> cases there : s.slot <;>
        grind [take, drop, invalidate, renew, remind, welcome, claim, claimable, Slot.newcomer, Stage.acceptsClaim]

/-- Settling leaves no cell stranded. -/
theorem Provided.settled (provided : s.Provided candid key []) (tidy : s.Tidy) (dispatched : Dispatched s.settled s') :
    s'.Provided candid key [] := by
  have swept : s.swept.Provided candid key [] := by
    obtain ⟨present, provided⟩ := provided
    constructor <;> cases there : s.slot <;> grind [Standing.swept, expire]
  have resumed : s.swept.resumed.Provided candid key [] := by
    obtain ⟨present, provided⟩ := swept
    constructor <;> cases there : s.swept.slot <;> grind [Standing.resumed, reconsider, claim, claimable]
  have retried : s.swept.resumed.retried.Provided candid key [] := by
    have tidy := tidy.swept.resumed
    generalize s.swept.resumed = s at resumed tidy
    obtain ⟨present, provided⟩ := resumed
    constructor <;> cases there : s.slot <;>
      grind [Tidy, Standing.retried, renew, claim, claimable, Slot.lacksBuild, Stage.acceptsClaim]
  have shed : s.settled.Provided candid key [] := by
    unfold Standing.settled
    generalize s.swept.resumed.retried = s at retried
    obtain ⟨present, provided⟩ := retried
    constructor <;> cases there : s.slot <;> grind [Standing.shed, giveUp, refs, Slot.fallback]
  obtain ⟨waiting, queued, rfl, _⟩ := dispatched
  exact ⟨shed.present, shed.provided⟩

end Residency.Standing

open Ledger Journal

namespace Journal

/-- No cell is stranded, as the letters to the planner have it. -/
def Provided (candid : Prop) (j : Journal σ) : Prop :=
  ∀ key, (j.ledger.standing key).Provided candid key (j.ledger.planner.inbox ++ j.mail)

variable {candid : Prop} {j j' : Journal σ}

/-- A cell may be rewritten if that does not strand it. -/
private theorem Provided.put (provided : j.Provided candid) (tracked : j.ledger.Tracked) {i : Nat} {slot fresh : Slot}
    (found : j.ledger.store.live? i = some slot) (store : j'.ledger.store = j.ledger.store.put i fresh)
    (kept : fresh.live = slot.live) (planner : j'.ledger.planner = j.ledger.planner)
    (mail : ∃ more, j'.mail = j.mail ++ more) (present : fresh.stage ≠ .removing)
    (cared : candid → 0 < fresh.refs → fresh.stage = .unloaded → .snapshotUnavailable slot.key ∈ j'.mail) :
    j'.Provided candid := by
  intro key
  have seen := standing_put j'.ledger tracked.carried.sound found store kept planner key
  obtain ⟨more, posted⟩ := mail
  constructor
  · intro other there
    rw [seen] at there
    split at there
    · cases there
      exact present
    · exact (provided key).present other there
  · intro honest other there held bare
    rw [seen] at there
    split at there
    · rename_i here
      cases there
      exact .inr (List.mem_append_right _ (here ▸ cared honest held bare))
    · rw [seen, planner, posted, ← List.append_assoc]
      exact ((provided key).provided honest other there held bare).imp_right fun listed => List.mem_append_left _ listed

/-- Letters that come in strand nobody. -/
private theorem Provided.told (provided : j.Provided candid) (e : Event) :
    Provided candid { j with mail := j.mail ++ [e] } := by
  intro key
  refine ⟨(provided key).present, fun honest slot there held bare => ?_⟩
  rw [← List.append_assoc]
  exact ((provided key).provided honest slot there held bare).imp_right fun listed => List.mem_append_left _ listed

theorem Provided.errand (provided : j.Provided candid) (tracked : j.ledger.Tracked)
    (errand : Errand (fun asked key => candid → key = asked) j j') : j'.Provided candid := by
  have settled (slot : Slot) : slot.fallback ≠ .removing := by
    unfold Slot.fallback
    split <;> simp
  cases errand with
  | hear e => exact provided.told e
  | excuse taken needless =>
    obtain ⟨slot, found, _, _, store⟩ := tracked.request taken
    refine provided.put tracked found store rfl rfl ⟨_, rfl⟩ (settled slot) fun _ held _ => ?_
    have free : slot.refs = 0 := by simpa [Store.refs, found] using needless
    exact absurd free (Nat.ne_of_gt held)
  | refuse taken needed lacking =>
    obtain ⟨slot, found, _, owner, store⟩ := tracked.request taken
    refine provided.put tracked found store rfl rfl ⟨_, rfl⟩ (settled slot) fun honest _ _ => ?_
    rw [owner, ← lacking honest]
    exact List.mem_append_right _ List.mem_cons_self
  | accept => exact fun key => ⟨(provided key).present, (provided key).provided⟩
  | build taken found stage current shape placeholder =>
    exact provided.put tracked found rfl rfl rfl ⟨[], (List.append_nil _).symm⟩ (by simp) (by simp)

theorem Provided.landing [Simulation σ] (provided : j.Provided candid) (tracked : j.ledger.Tracked)
    (landing : Landing j j') : j'.Provided candid := by
  cases landing with
  | install taken found stage current =>
    exact provided.put tracked found rfl rfl rfl ⟨[], (List.append_nil _).symm⟩ (by simp) (by simp)
  | other => exact fun key => ⟨(provided key).present, (provided key).provided⟩

end Journal

namespace Pipeline

variable {p : Pipeline σ ω} {planner : Planner} {candid : Prop} {c : Chronicle} {d : Desk}

/-- A pass strands nobody. -/
theorem pass_provided (running : p.Running planner) (provided : (p.journal planner [] [] c).Provided candid)
    (passed : (p.desk planner).pass p.events.letters.toList p.poses.sample = .ok d) :
    ((p.afterPass d).journal d.planner [] [] c).Provided candid := by
  intro key
  have opened := running.orderly.opened (planner.inbox ++ p.events.letters.toList).length
  have start := provided key
  obtain ⟨orderly, s, ⟨tidy, kept⟩, dispatched⟩ := Desk.pass_keeps (Standing.provided_persists candid key)
    running.orderly passed (List.nil_append _).symm rfl ⟨opened.tidy key, start.present, start.provided⟩
  have done : (d.standing key).Provided candid key [] := kept.settled tidy dispatched
  exact ⟨done.present, fun honest slot there held bare =>
    (done.provided honest slot there held bare).imp_right fun listed => absurd listed List.not_mem_nil⟩

theorem new_provided (grid : Grid) (initial most : Nat) (pacing : Pacing) (margins : Margins) (builder : Builder)
    (world : ω) (sim : σ) (c : Chronicle) :
    ((new grid (Store.ofLimits initial most) pacing margins builder world sim).journal
      (Planner.new grid pacing margins) [] [] c).Provided candid := by
  intro key
  have absent : (Store.ofLimits initial most).tenant? key = none := tenant?_absent (by simp [Store.ofLimits])
  have vacant : (Standing.of (Planner.new grid pacing margins) (Store.ofLimits initial most) [] key).slot = none := by
    simp only [Standing.of, absent, Option.map_none]
  constructor
  · intro slot there
    cases vacant.symm.trans there
  · intro _ slot there
    cases vacant.symm.trans there

variable [Simulation σ] [Supplier ω]

/-- Nothing that happens between passes strands a cell. -/
theorem move_provided (running : p.Running planner) (provided : (p.journal planner [] [] c).Provided (Candid ω))
    {m : Move ω} (other : m ≠ .pass) : ((p.move m).journal planner [] [] (p.note c m)).Provided (Candid ω) := by
  have lacking : ∀ (world : ω) key e, (Supplier.snapshot world key).2 = .error e → Candid ω → e.key = key :=
    fun world key e answer honest => honest world key e answer
  rcases move_deeds (fun asked key => Candid ω → key = asked) (c := c) running.intact running.tracked other
    (.inl lacking) with ⟨_, landings⟩ | ⟨_, errands⟩
  · exact landings.keep (fun _ _ landing tracked kept => kept.landing tracked landing) running.tracked provided
  · exact errands.keep (fun _ _ errand tracked kept => kept.errand tracked errand) running.tracked provided

/-- In every state that a run without failures comes to, no cell is marked as leaving; and if the world is
candid, no cell is stranded. -/
theorem Running.provided (running : p.Running planner) (start : (p.journal planner [] [] c).Provided (Candid ω))
    {moves : List (Move ω)} (unfailing : p.Unfailing moves) :
    ∃ planner, (p.run moves).Running planner ∧ ((p.run moves).journal planner [] [] c).Provided (Candid ω) := by
  induction moves generalizing p planner with
  | nil => exact ⟨planner, running, start⟩
  | cons m moves ih =>
    obtain ⟨passes, later⟩ := unfailing_cons.mp unfailing
    rcases running.move_cases passes with ⟨d, _, passed, ends, next⟩ | ⟨other, next⟩
    · exact ih (ends ▸ next) (ends ▸ pass_provided running start passed) later
    · exact ih next (move_provided running start other) later

/-- In every state that a run without failures comes to, a referenced cell is in one of three situations, and
in one only: it has a build, it has a claim out, or it has neither and the planner will look at it again, as
it is listed for a retry or the word that its snapshot could not be had is on its way. -/
theorem no_cell_is_stranded (grid : Grid) (initial most : Nat) (pacing : Pacing) (margins : Margins)
    (builder : Builder) (world : ω) (sim : σ) (moves : List (Move ω)) (candid : Candid ω)
    (unfailing : (new grid (Store.ofLimits initial most) pacing margins builder world sim).Unfailing moves) :
    let p := (new grid (Store.ofLimits initial most) pacing margins builder world sim).run moves
    ∃ planner, p.planner = some planner ∧ ∀ key i, p.store.indexOf key = some i → 0 < p.store.refs i →
      let ready := p.store.stage i = .ready
      let claimed := (p.store.stage i).isInFlight = true
      let owed := p.store.stage i = .unloaded ∧
        (planner.retry.contains key = true ∨ .snapshotUnavailable key ∈ p.batch)
      (ready ∨ claimed ∨ owed) ∧ ¬ (ready ∧ claimed) ∧ ¬ (ready ∧ owed) ∧ ¬ (claimed ∧ owed) := by
  intro p
  obtain ⟨planner, running, provided⟩ := (new_running grid initial most pacing margins builder world sim).provided
    (new_provided grid initial most pacing margins builder world sim Chronicle.blank) unfailing
  refine ⟨planner, running.present, fun key i found held => ?_⟩
  obtain ⟨slot, living, rfl⟩ := running.sound.lives found
  have stage : p.store.stage i = slot.stage := stage_live living
  have refs : p.store.refs i = slot.refs := by simp [p, Store.refs, living]
  have shown := standing_slot (l := p.ledger planner [] []) running.sound living
  have batch : p.batch = planner.inbox ++ p.events.letters.toList := running.batch
  have listed : planner.retry.contains slot.key = (planner.retry[slot.key]?).isSome :=
    Std.ExtTreeMap.contains_eq_isSome_getElem?
  simp only [stage, batch, listed]
  rw [refs] at held
  have present := (provided slot.key).present _ shown
  have cared := (provided slot.key).provided candid _ shown held
  cases same : slot.stage with
  | unloaded => exact ⟨.inr (.inr ⟨rfl, cared same⟩), by simp [Stage.isInFlight]⟩
  | scheduled | generating | ready => simp [Stage.isInFlight]
  | removing => exact absurd same present

/-- A cell that is requested while its ground is unloaded is owed another look. -/
theorem no_cell_is_stranded_unloaded :
    let start := small Scene.empty
    let moves := [.world (start.world.unload ⟨0⟩), .send (.requested ⟨0⟩), .pass, .supply 1]
    let p := start.run moves
    Candid Ground ∧ start.Unfailing moves ∧ p.store.indexOf ⟨0⟩ = some 0 ∧ 0 < p.store.refs 0 ∧
      ∃ planner, p.planner = some planner ∧ p.store.stage 0 = .unloaded ∧
        (planner.retry.contains ⟨0⟩ = true ∨ .snapshotUnavailable ⟨0⟩ ∈ p.batch) := by
  intro start moves p
  have unfailing : start.Unfailing moves := by decide +kernel
  have there : p.store.indexOf ⟨0⟩ = some 0 := by decide +kernel
  have held : 0 < p.store.refs 0 := by decide +kernel
  have bare : p.store.stage 0 = .unloaded := by decide +kernel
  obtain ⟨planner, present, cells⟩ := no_cell_is_stranded _ _ _ _ _ _ _ _ moves ground_candid unfailing
  refine ⟨ground_candid, unfailing, there, held, planner, present, bare, ?_⟩
  obtain ⟨situation, _⟩ := cells ⟨0⟩ 0 there held
  rcases situation with ready | claimed | owed
  · cases bare.symm.trans ready
  · have claimed : (p.store.stage 0).isInFlight = true := claimed
    rw [bare] at claimed
    cases claimed
  · exact owed.2

end Pipeline

end TerrainStream
