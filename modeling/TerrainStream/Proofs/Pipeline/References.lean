import TerrainStream.Proofs.Pipeline.Ledger
import TerrainStream.Proofs.Physics.Scene
import TerrainStream.Proofs.Residency.Steady

/-! References count holders. In every state of a run, a cell has one reference for a caller outside that
holds it, and one for every tracker that needs it. -/

namespace TerrainStream

open Cell Store Shape Collision Build Residency Physics World

variable {σ ω : Type}

namespace Ledger

/-- Ledgers with the same holders, and with the same references and flags on the same cells. -/
structure Level (l l' : Ledger σ) : Prop where
  planner : l'.planner = l.planner
  sound : l'.store.Sound
  refs : ∀ key, l'.store.refsOf key = l.store.refsOf key
  total : l'.store.total = l.store.total
  index : l'.store.index = l.store.index
  lit : ∀ key, l'.store.isLit key = l.store.isLit key

variable {l l' l'' : Ledger σ}

theorem Level.trans (first : Level l l') (second : Level l' l'') : Level l l'' :=
  ⟨second.planner.trans first.planner, second.sound, fun key => (second.refs key).trans (first.refs key),
    second.total.trans first.total, second.index.trans first.index, fun key => (second.lit key).trans (first.lit key)⟩

private theorem level_put (sound : l.store.Sound) {i : Nat} {slot fresh : Slot} (found : l.store.live? i = some slot)
    (kept : fresh.live = slot.live) (same : fresh.key = slot.key) (counted : fresh.refs = slot.refs)
    (lit : fresh.active = slot.active) (waiting : List Request) (jobs : List Job) (commands : List Command) (sim : σ) :
    Level l ⟨l.planner, l.store.put i fresh, waiting, jobs, commands, sim⟩ := by
  refine ⟨rfl, sound.put found kept same, ?_, ?_, rfl, ?_⟩
  · intro key
    change (l.store.put i fresh).refsOf key = l.store.refsOf key
    rw [refsOf_put sound found kept]
    split
    · rename_i here
      rw [← here, refsOf_live sound found, counted]
    · rfl
  · have sum := total_put found kept
    rw [counted] at sum
    exact Nat.add_right_cancel sum
  · intro key
    change (l.store.put i fresh).isLit key = l.store.isLit key
    rw [isLit_put sound found kept]
    split
    · rename_i here
      rw [← here, isLit_live sound found, lit]
    · rfl

/-- No request, no job and no command touches a reference or a flag. -/
theorem Work.level [Simulation σ] (work : Work l l') (sound : l.store.Sound) : Level l l' := by
  have alike (waiting jobs commands) (sim : σ) : Level l ⟨l.planner, l.store, waiting, jobs, commands, sim⟩ :=
    ⟨rfl, sound, fun _ => rfl, rfl, rfl, fun _ => rfl⟩
  cases work with
  | skip | accept | drop | refuse | remove | toggle | ignore => exact alike _ _ _ _
  | giveUp =>
    rename_i r waiting taken
    have same := outline_abandon l.store r.index r.version
    obtain ⟨refs, total, index⟩ := outline_level same
    have kept := sound.of_outline same
    exact ⟨rfl, kept, refs, total, index, (alike_outline same).isLit sound kept⟩
  | build taken found => refine level_put sound found ?_ ?_ ?_ ?_ _ _ _ _ <;> rfl
  | install taken found => refine level_put sound found ?_ ?_ ?_ ?_ _ _ _ _ <;> rfl

theorem Works.level [Simulation σ] (works : Works l l') (sound : l.store.Sound) : Level l l' := by
  induction works with
  | refl => exact ⟨rfl, sound, fun _ => rfl, rfl, rfl, fun _ => rfl⟩
  | tail _ work ih => exact ih.trans (work.level ih.sound)

/-- References and holders agree, once some events have been applied. -/
structure Even (past : List Event) (l : Ledger σ) : Prop where
  sound : l.store.Sound
  refs : ∀ key, l.store.refsOf key = l.planner.holders key
  held : ∀ key, l.planner.holds.contains key = heldAfter past key

theorem Level.even {past : List Event} (level : Level l l') (even : l.Even past) : l'.Even past := by
  refine ⟨level.sound, ?_, ?_⟩
  · intro key
    rw [level.refs, even.refs, level.planner]
  · intro key
    rw [level.planner, even.held]

end Ledger

namespace Pipeline

open Ledger

variable {p : Pipeline σ ω} {planner : Planner} {past : List Event}

theorem even_balanced (even : (p.ledger planner [] []).Even past) : (p.desk planner).Balanced := ⟨even.sound, even.refs⟩

/-- The holders of a cell once some events have been applied: a caller outside, if the last of them that
speaks of the cell requests it, and the trackers that need it. -/
def holders (p : Pipeline σ ω) (past : List Event) (key : Key) : Nat :=
  (heldAfter past key).toNat + p.planner.elim 0 fun planner => followers planner.trackers key

theorem even_holders (even : (p.ledger planner [] []).Even past) (present : p.planner = some planner) (key : Key) :
    p.store.refsOf key = p.holders past key := by
  have refs : p.store.refsOf key = planner.holders key := even.refs key
  have held : planner.holds.contains key = heldAfter past key := even.held key
  rw [refs, Planner.holders, held, holders, present, Option.elim_some]

theorem new_even (grid : Grid) (initial most : Nat) (pacing : Pacing) (margins : Margins) (builder : Builder)
    (world : ω) (sim : σ) :
    ((new grid (Store.ofLimits initial most) pacing margins builder world sim).ledger
      (Planner.new grid pacing margins) [] []).Even [] := by
  refine ⟨sound_ofLimits initial most, ?_, ?_⟩
  · intro key
    have absent : (Store.ofLimits initial most).index[key]? = none := by simp [Store.ofLimits]
    refine (refsOf_absent absent).trans ?_
    simp [Planner.holders, Planner.new, followers_empty, ledger]
  · intro key
    simp [Planner.new, heldAfter, ledger]

theorem pass_even (even : (p.ledger planner [] []).Even past) (present : p.planner = some planner) {d : Desk}
    (passed : (p.desk planner).pass p.events.letters.toList p.poses.sample = .ok d) :
    ((p.afterPass d).ledger d.planner [] []).Even (past ++ p.batch) := by
  obtain ⟨balanced, holding, _, _⟩ := Desk.pass_balanced (even_balanced even) even.held passed
  have batch : p.batch = planner.inbox ++ p.events.letters.toList := by rw [batch, present]; rfl
  rw [batch]
  exact ⟨balanced.sound, balanced.even, holding⟩

variable [Simulation σ] [Supplier ω]

/-- In a state that is come to without a failure, references and holders agree. -/
theorem run_even (grid : Grid) (initial most : Nat) (pacing : Pacing) (margins : Margins) (builder : Builder)
    (world : ω) (sim : σ) {moves : List (Move ω)}
    (unfailing : (new grid (Store.ofLimits initial most) pacing margins builder world sim).Unfailing moves) :
    let start := new grid (Store.ofLimits initial most) pacing margins builder world sim
    let p := start.run moves
    ∃ planner, p.planner = some planner ∧ p.Intact ∧ (p.ledger planner [] []).Even (start.applied moves) := by
  refine run_remembers (J := fun past l => l.Even past) ?_ ?_ (new_intact _ _ _ _ _ _ _) rfl []
    (new_even grid initial most pacing margins builder world sim) unfailing
  · intro past p planner d _ present passed even
    exact pass_even even present passed
  · intro past l l' work even
    exact (work.level even.sound).even even

/-- In a state that is come to without a failure, a word of 32 bits counts the references on every cell, as long as there
are fewer bodies than it counts. -/
theorem references_fit_words (grid : Grid) (initial most : Nat) (pacing : Pacing) (margins : Margins)
    (builder : Builder) (world : ω) (sim : σ) {moves : List (Move ω)}
    (unfailing : (new grid (Store.ofLimits initial most) pacing margins builder world sim).Unfailing moves)
    (few : ((new grid (Store.ofLimits initial most) pacing margins builder world sim).run moves).planner.all
      (·.trackers.size + 1 < UInt32.size)) (key : Key) :
    ((new grid (Store.ofLimits initial most) pacing margins builder world sim).run moves).store.refsOf key <
      UInt32.size := by
  obtain ⟨planner, present, _, even⟩ := run_even grid initial most pacing margins builder world sim unfailing
  rw [present, Option.all_some, decide_eq_true_eq] at few
  calc _ = planner.holders key := even.refs key
    _ ≤ planner.trackers.size + 1 := holders_le planner key
    _ < UInt32.size := few

/-- After every move the cells that are still referenced are where they were. -/
theorem move_stays (intact : p.Intact) (present : p.planner = some planner)
    (even : (p.ledger planner [] []).Even past) {m : Move ω}
    (passes : m = .pass → ∃ report, p.pass.2 = some (.ok report)) {key : Key} {i : Nat}
    (found : p.store.indexOf key = some i) (held : 0 < (p.move m).store.refsOf key) :
    (p.move m).store.indexOf key = some i := by
  by_cases passing : m = .pass
  · obtain ⟨report, answer⟩ := passes passing
    obtain ⟨d, passed, _⟩ := pass_answer present answer
    have ends := pass_left present
    rw [passed] at ends
    obtain ⟨_, _, _, stays⟩ := Desk.pass_balanced (even_balanced even) even.held passed
    subst m
    simp only [move, ends] at held ⊢
    exact stays key i found held
  · obtain ⟨_, _, works⟩ := move_works intact planner passing
    have index : (p.move m).store.index = p.store.index := (works.level even.sound).index
    rw [Store.indexOf, index]
    exact found

/-- In every state that a run without failures comes to, a cell that has holders is in the store with that many
references, and a cell that has none has no references. While moves go on, a cell that is held is never
removed. A pass reports by how much the number of all references changes, so no count is ever lowered below
zero; and a body that is removed gives each of its references back once. -/
theorem references_count_holders (grid : Grid) (initial most : Nat) (pacing : Pacing) (margins : Margins)
    (builder : Builder) (world : ω) (sim : σ) (moves : List (Move ω))
    (unfailing : (new grid (Store.ofLimits initial most) pacing margins builder world sim).Unfailing moves) :
    let start := new grid (Store.ofLimits initial most) pacing margins builder world sim
    let p := start.run moves
    let held := p.holders (start.applied moves)
    (∀ key, 0 < held key → ∃ i, p.store.indexOf key = some i ∧ p.store.refs i = held key) ∧
    (∀ key i, held key = 0 → p.store.indexOf key = some i → p.store.refs i = 0) ∧
    (∀ m, (m = .pass → ∃ report, p.pass.2 = some (.ok report)) → ∀ key i, p.store.indexOf key = some i →
      0 < (p.move m).store.refsOf key → (p.move m).store.indexOf key = some i) ∧
    (∀ report, p.pass.2 = some (.ok report) →
      p.pass.1.store.total + report.released = p.store.total + report.acquired) ∧
    (∀ planner before body later d, p.planner = some planner → p.batch = before ++ .bodyRemoved body :: later →
      ((p.desk planner).opened p.batch.length).applyEvents before = .ok d →
      ∃ d', d.applyEvent (.bodyRemoved body) = .ok d' ∧ d'.planner.trackers[body]? = none ∧
        ∀ key, d'.store.refsOf key + ((d.planner.trackers[body]?).any (·.cells.resident.contains key)).toNat =
          d.store.refsOf key) := by
  intro start p held
  obtain ⟨planner, present, intact, even⟩ := run_even grid initial most pacing margins builder world sim unfailing
  have count (key : Key) : p.store.refsOf key = held key := even_holders even present key
  refine ⟨?_, ?_, ?_, ?_, ?_⟩
  · intro key some
    obtain ⟨i, found⟩ := indexed_of_refs (count key ▸ some)
    refine ⟨i, found, ?_⟩
    rw [← count key, refsOf, show p.store.indexOf key = Option.some i from found]
    rfl
  · intro key i none found
    have counted := count key
    rw [refsOf, found, none] at counted
    exact counted
  · intro m passes key i found referenced
    exact move_stays intact present even passes found referenced
  · intro report answer
    obtain ⟨d, passed, rfl⟩ := pass_answer present answer
    have ends := pass_left present
    rw [passed] at ends
    obtain ⟨_, _, total, _⟩ := Desk.pass_balanced (even_balanced even) even.held passed
    rw [ends]
    exact total
  · intro planner' before body later d there batch applied
    obtain rfl : planner = planner' := Option.some.inj (present.symm.trans there)
    have opened : ((p.desk planner).opened p.batch.length).Balanced := ⟨even.sound, even.refs⟩
    obtain ⟨evened, _⟩ := Desk.applyEvents_evened opened applied
    exact Desk.bodyRemoved_returns evened.balanced body

/-- A cell that is requested twice and released once has no holders left, and keeps no reference. -/
theorem references_count_holders_released :
    let start := small Scene.empty
    let moves := [.send (.requested ⟨0⟩), .send (.requested ⟨0⟩), .pass, .supply 1, .drain 1,
      .send (.released ⟨0⟩), .pass]
    let p := start.run moves
    start.Unfailing moves ∧ p.holders (start.applied moves) ⟨0⟩ = 0 ∧ p.store.indexOf ⟨0⟩ = some 0 ∧
      p.store.refs 0 = 0 := by
  intro start moves p
  have unfailing : start.Unfailing moves := by decide +kernel
  have free : p.holders (start.applied moves) ⟨0⟩ = 0 := by decide +kernel
  have there : p.store.indexOf ⟨0⟩ = some 0 := by decide +kernel
  obtain ⟨_, unreferenced, _⟩ := references_count_holders _ _ _ _ _ _ _ _ moves unfailing
  exact ⟨unfailing, free, there, unreferenced ⟨0⟩ 0 free there⟩

end Pipeline

end TerrainStream
