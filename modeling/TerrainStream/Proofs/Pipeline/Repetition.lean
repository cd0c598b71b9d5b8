import TerrainStream.Proofs.Pipeline.References
import TerrainStream.Proofs.Pipeline.Running
import TerrainStream.Proofs.Residency.Activation
import TerrainStream.Proofs.Residency.Stillness

/-! Passes repeated over nothing new. After a pass that succeeded, the next one takes, drops and switches nothing as
long as only claims have been heard of and the bodies rest. -/

namespace TerrainStream

open Cell Store Shape Collision Build Residency Physics World

variable {σ ω : Type}

namespace Ledger

/-- Whether every tracker keeps its active cells among its resident ones. -/
def Fitted (l : Ledger σ) : Prop :=
  ∀ (body : BodyId) tracker, l.planner.trackers[body]? = some tracker → tracker.cells.Fits

variable {l : Ledger σ} {d d' : Desk} {jobs : List Job} {sim : σ}

theorem Fitted.act (fitted : (ofDesk d jobs sim).Fitted) (act : Desk.Act d d') : (ofDesk d' jobs sim).Fitted := by
  intro body tracker found
  have found : d'.planner.trackers[body]? = some tracker := found
  cases act with
  | count act =>
    cases act with
    | clerk act =>
      rw [act.framed.trackers] at found
      exact fitted body tracker found
    | enroll holds known => exact (known body tracker found).elim (fitted body tracker) id
    | enter | retain | release => exact fitted body tracker found
  | light => exact fitted body tracker found
  | switch =>
    unfold Desk.switch at found
    split at found <;> exact fitted body tracker found
  | evict =>
    unfold Desk.evict at found
    split at found <;> exact fitted body tracker found

/-- Whatever some tracker wants active is in the store, once references and holders agree. -/
theorem Even.wanted {past : List Event} (even : l.Even past) (fitted : l.Fitted) {key : Key}
    (wanted : l.planner.wanted.contains key = true) : (l.store.index[key]?).isSome := by
  obtain ⟨body, tracker, found, active⟩ := (Planner.wanted_iff _ _).mp wanted
  have held : 0 < l.store.refsOf key := by
    rw [even.refs, Planner.holders]
    exact Nat.add_pos_right _ (followers_pos found (fitted body tracker found key active))
  obtain ⟨i, there⟩ := indexed_of_refs held
  rw [there]
  rfl

/-- Then what is active is what is wanted. -/
theorem Even.active {past : List Event} (even : l.Even past) (fitted : l.Fitted) (lined : Lined l.planner l.store)
    (key : Key) : l.planner.active.contains key = l.planner.wanted.contains key :=
  Bool.eq_iff_iff.mpr ⟨lined.wanted key, fun wanted => lined.active key wanted (even.wanted fitted wanted)⟩

end Ledger

private theorem Store.refsOf_at {s : Store} {key : Key} {i : Nat} (found : s.indexOf key = some i) :
    s.refsOf key = s.refs i := by
  rw [refsOf, found]
  rfl

private theorem Store.isLit_at {s : Store} {key : Key} {i : Nat} (found : s.indexOf key = some i) :
    s.isLit key = s.isActive i := by
  rw [isLit, found]
  rfl

namespace Pipeline

open Ledger

variable [Simulation σ] [Supplier ω] {p : Pipeline σ ω} {planner : Planner} {moves : List (Move ω)}

private theorem run_fitted (running : p.Running planner) (fitted : (p.ledger planner [] []).Fitted)
    (moves : List (Move ω)) : ∃ planner, (p.run moves).planner = some planner ∧
      ((p.run moves).ledger planner [] []).Fitted :=
  run_keeps (J := Ledger.Fitted) (fun _ _ _ _ act _ fitted => fitted.act act)
    (fun l l' work fitted => by cases work <;> exact fitted) running.intact running.present fitted moves

/-- Between passes the active cells stay in line. -/
private theorem Running.stay_lined (running : p.Running planner) (lined : Lined planner p.store)
    (idle : .pass ∉ moves) : (p.run moves).Running planner ∧ Lined planner (p.run moves).store := by
  induction moves generalizing p with
  | nil => exact ⟨running, lined⟩
  | cons m moves ih =>
    have other : m ≠ .pass := fun same => idle (same ▸ List.mem_cons_self)
    obtain ⟨_, _, works⟩ := move_works running.intact planner other
    have index : (p.move m).store.index = p.store.index := (works.level running.sound).index
    refine ih (running.other other) ⟨lined.wanted, fun key wanted there => ?_⟩ fun later => idle (List.mem_cons_of_mem _ later)
    rw [index] at there
    exact lined.active key wanted there

private theorem unfailing_idle (idle : .pass ∉ moves) : p.Unfailing moves := by
  induction moves generalizing p with
  | nil => exact trivial
  | cons m moves ih =>
    exact unfailing_cons.mpr ⟨fun same => absurd (same ▸ List.mem_cons_self) idle,
      ih fun later => idle (List.mem_cons_of_mem _ later)⟩

/-- In a run in which no pass has failed, what is active is what is wanted, as far as the two are in line. -/
private theorem run_active (grid : Grid) (initial most : Nat) (pacing : Pacing) (margins : Margins) (builder : Builder)
    (world : ω) (sim : σ) {moves : List (Move ω)}
    (unfailing : (new grid (Store.ofLimits initial most) pacing margins builder world sim).Unfailing moves)
    (reached : p = (new grid (Store.ofLimits initial most) pacing margins builder world sim).run moves)
    (present : p.planner = some planner) (lined : Lined planner p.store) (key : Key) :
    planner.active.contains key = planner.wanted.contains key := by
  obtain ⟨planner', present', _, even⟩ := run_even grid initial most pacing margins builder world sim unfailing
  obtain ⟨planner'', present'', fitted⟩ := run_fitted (new_running grid initial most pacing margins builder world sim)
    (fun body tracker found => by simp [ledger, Planner.new] at found) moves
  rw [← reached] at present' present'' even fitted
  obtain rfl : planner = planner' := Option.some.inj (present.symm.trans present')
  obtain rfl : planner = planner'' := Option.some.inj (present.symm.trans present'')
  exact even.active fitted lined key

/-- Suppose that a pass has succeeded in the course of a run, that no pass has followed it yet, that the events to be
applied have to do with claims only, and that the bodies rest. Then the next pass succeeds. It takes and drops no
reference and tells the simulation to switch nothing; every reference count stays, and so do the place and the flag of
each cell that it leaves, and whether the cell is active. If no pass of the run has failed, the active cells are the
same altogether. -/
theorem repeated_passes_are_quiet (grid : Grid) (initial most : Nat) (pacing : Pacing) (margins : Margins)
    (builder : Builder) (world : ω) (sim : σ) (before after : List (Move ω)) :
    let start := new grid (Store.ofLimits initial most) pacing margins builder world sim
    let p := (start.run before).pass.1.run after
    (∃ report, (start.run before).pass.2 = some (.ok report)) → .pass ∉ after → (∀ e ∈ p.batch, e.IsCalm) →
    (∀ planner, p.planner = some planner → planner.Rests p.poses.sample) →
    ∃ planner planner' report, p.planner = some planner ∧ p.pass.1.planner = some planner' ∧
      p.pass.2 = some (.ok report) ∧
      report.acquired = 0 ∧ report.released = 0 ∧ report.activated = 0 ∧ report.deactivated = 0 ∧
      (∃ sent, p.pass.1.commands.letters.toList = p.commands.letters.toList ++ sent ∧
        ∀ c ∈ sent, ∀ key i enabled, c ≠ .toggle key i enabled) ∧
      (∀ key, p.pass.1.store.refsOf key = p.store.refsOf key) ∧
      (∀ key i, p.pass.1.store.indexOf key = some i → p.store.indexOf key = some i ∧
        p.pass.1.store.refs i = p.store.refs i ∧ p.pass.1.store.isActive i = p.store.isActive i ∧
        planner'.active.contains key = planner.active.contains key) ∧
      (start.Unfailing before → planner'.active = planner.active) := by
  intro start p passed idle calm rests
  obtain ⟨report, answer⟩ := passed
  have first : start.Running (Planner.new grid pacing margins) :=
    new_running grid initial most pacing margins builder world sim
  obtain ⟨earlier, running⟩ := first.run before
  obtain ⟨d, passed, _⟩ := pass_answer running.present answer
  obtain ⟨ends, running'⟩ := running.passed passed
  have lined : Lined d.planner d.store := Desk.pass_lined running.sound running.intact.commands passed
  obtain ⟨running, lined⟩ : p.Running d.planner ∧ Lined d.planner p.store := by
    have stays := running'.stay_lined lined idle
    rwa [← ends] at stays
  have rest : d.planner.Rests p.poses.sample := rests d.planner running.present
  rw [running.batch] at calm
  obtain ⟨d', middle, passes, undisturbed, outline, commands, trackers, active, acquired, released, activated,
    deactivated⟩ := Desk.pass_rests (d := p.desk d.planner) running.sound running.intact.commands lined calm rest
  obtain ⟨left, running'⟩ := running.passed passes
  have answered : p.pass.2 = some (.ok d'.report) := by
    simp only [Pipeline.pass, running.present, passWith, passes]
  obtain ⟨refs, _, index⟩ := outline_level outline
  have sound : p.store.Sound := running.sound
  have middling : middle.store.Sound := sound.of_outline outline
  have lit (key : Key) : middle.store.isLit key = p.store.isLit key := (alike_outline outline).isLit sound middling key
  rw [left]
  refine ⟨d.planner, d'.planner, d'.report, running.present, rfl, answered, undisturbed.acquired.trans acquired,
    undisturbed.released.trans released, undisturbed.activated.trans activated,
    undisturbed.deactivated.trans deactivated, ?_, fun key => (undisturbed.refs key).trans (refs key),
    fun key i found => ?_, fun unfailing => ?_⟩
  · obtain ⟨sent, letters, plain⟩ := undisturbed.told
    rw [commands] at letters
    refine ⟨sent, letters, fun c listed key i enabled same => ?_⟩
    obtain ⟨_, _, removal⟩ := plain c listed
    rw [same] at removal
    cases removal
  · have found : d'.store.index[key]? = some i := found
    have there : (d'.store.index[key]?).isSome := by
      rw [found]
      rfl
    have stays : p.store.indexOf key = some i := by
      have same := undisturbed.left key there
      rw [found, index] at same
      exact same.symm
    refine ⟨stays, ?_, ?_, ?_⟩
    · calc d'.store.refs i = d'.store.refsOf key := (Store.refsOf_at found).symm
        _ = p.store.refsOf key := (undisturbed.refs key).trans (refs key)
        _ = p.store.refs i := Store.refsOf_at stays
    · calc d'.store.isActive i = d'.store.isLit key := (Store.isLit_at found).symm
        _ = p.store.isLit key := (undisturbed.lit key there).trans (lit key)
        _ = p.store.isActive i := Store.isLit_at stays
    · rw [undisturbed.active key there, active, Bool.eq_iff_iff]
      exact ⟨fun wanted => lined.active key wanted (by rw [show p.store.index[key]? = some i from stays]; rfl),
        lined.wanted key⟩
  · -- Without failures references and holders agree, so that all that is wanted is in the store, before and after.
    have reached : p = start.run (before ++ .pass :: after) := (run_append start before (.pass :: after)).symm
    have through : start.Unfailing (before ++ .pass :: after) :=
      unfailing_append.mpr ⟨unfailing, ⟨report, answer⟩, unfailing_idle idle⟩
    have reached' : p.afterPass d' = start.run ((before ++ .pass :: after) ++ [.pass]) := by
      rw [run_append, ← reached, ← left]
      rfl
    have through' : start.Unfailing ((before ++ .pass :: after) ++ [.pass]) :=
      unfailing_append.mpr ⟨through, ⟨d'.report, reached ▸ answered⟩, trivial⟩
    have lined' : Lined d'.planner d'.store := Desk.pass_lined sound running.intact.commands passes
    have kept : d'.planner.trackers = d.planner.trackers := undisturbed.trackers.trans trackers
    refine Std.ExtTreeSet.ext_contains fun key => ?_
    calc d'.planner.active.contains key
        = d'.planner.wanted.contains key :=
          run_active grid initial most pacing margins builder world sim through' reached' rfl lined' key
      _ = d.planner.wanted.contains key := by rw [Planner.wanted_trackers kept]
      _ = d.planner.active.contains key :=
          (run_active grid initial most pacing margins builder world sim through reached running.present lined key).symm

/-- The body rests in a built cell, which an edit has put into the works again. -/
theorem repeated_passes_are_quiet_resting :
    let start := new (Grid.ofSize 2) (Store.ofLimits 1 1) Pacing.standard ⟨0, 0, 0, 16, 4096⟩
      (merge (limitOf usualLimit)) (Ground.ofTerrain (.floor ⟨Grid.ofSize 2, 1, ∅⟩)) Scene.empty
    let board := PoseBoard.publish ∅ 1 ⟨⟨⟨1, 1, 1⟩, ⟨1, 1, 1⟩⟩, ⟨0, 0, 0⟩⟩
    let before := [.send (.bodyAdded 1), .poses board, .pass, .supply 1, .drain 2, .send (.voxelEdited ⟨1, 1, 1⟩)]
    let after := [.supply 1, .send (.prioritized ⟨0⟩ .edit), .send (.claimAbandoned ⟨0⟩)]
    let p := (start.run before).pass.1.run after
    (∃ report, (start.run before).pass.2 = some (.ok report)) ∧ .pass ∉ after ∧ (∀ e ∈ p.batch, e.IsCalm) ∧
    (∀ planner, p.planner = some planner → planner.Rests p.poses.sample) ∧ start.Unfailing before ∧
    p.planner.any (·.active.contains ⟨0⟩) = true ∧
    ∃ planner planner' report, p.planner = some planner ∧ p.pass.1.planner = some planner' ∧
      p.pass.2 = some (.ok report) ∧
      report.acquired = 0 ∧ report.released = 0 ∧ report.activated = 0 ∧ report.deactivated = 0 ∧
      (∃ sent, p.pass.1.commands.letters.toList = p.commands.letters.toList ++ sent ∧
        ∀ c ∈ sent, ∀ key i enabled, c ≠ .toggle key i enabled) ∧
      (∀ key, p.pass.1.store.refsOf key = p.store.refsOf key) ∧
      (∀ key i, p.pass.1.store.indexOf key = some i → p.store.indexOf key = some i ∧
        p.pass.1.store.refs i = p.store.refs i ∧ p.pass.1.store.isActive i = p.store.isActive i ∧
        planner'.active.contains key = planner.active.contains key) ∧
      (start.Unfailing before → planner'.active = planner.active) := by
  intro start board before after p
  have passes : (start.run before).Unfailing [.pass] := by decide +kernel
  have passed : ∃ report, (start.run before).pass.2 = some (.ok report) := passes.1
  have idle : .pass ∉ after := by simp [after]
  have calm : ∀ e ∈ p.batch, e.IsCalm := by decide +kernel
  have rests : ∀ planner ∈ p.planner, planner.Rests p.poses.sample := by decide +kernel
  have unfailing : start.Unfailing before := by decide +kernel
  have active : p.planner.any (·.active.contains ⟨0⟩) = true := by decide +kernel
  have quiet := repeated_passes_are_quiet (Grid.ofSize 2) 1 1 Pacing.standard ⟨0, 0, 0, 16, 4096⟩
    (merge (limitOf usualLimit)) (Ground.ofTerrain (.floor ⟨Grid.ofSize 2, 1, ∅⟩)) Scene.empty before after
    passed idle calm rests
  -- Left as they are, the names would make the unifier run the pipeline.
  subst p start
  exact ⟨passed, idle, calm, rests, unfailing, active, quiet⟩

/-- After a pass for which the store had no room, the active cells need not agree with the ones wanted: they change in
a pass with nothing to do. The cell at the origin is requested once too often, so that its removal leaves a body in
want of it. -/
theorem active_cells_change_after_failure :
    let start := new (Grid.ofSize 8) (Store.ofLimits 1 1) ⟨50, 0, 0, 4, 0⟩ ⟨0, 0, 0, 16, 4096⟩
      (merge (limitOf usualLimit)) (Ground.ofTerrain (.floor ⟨Grid.ofSize 8, 1, ∅⟩)) Scene.empty
    let board := PoseBoard.publish ∅ 1 ⟨⟨⟨1, 1, 1⟩, ⟨2, 2, 2⟩⟩, ⟨0, 0, 0⟩⟩
    let crowd := (List.range 64).map fun i => .send (.requested (Coord.key ⟨i, 0, 5⟩))
    let before := crowd ++ [.pass, .send (.requested ⟨0⟩), .pass, .send (.released (Coord.key ⟨0, 0, 5⟩)), .pass,
      .pass, .send (.bodyAdded 1), .poses board, .pass, .send (.released ⟨0⟩), .pass]
    let p := (start.run before).pass.1
    (start.run before).Unfailing [.pass] ∧ (∀ e ∈ p.batch, e.IsCalm) ∧
    (∀ planner ∈ p.planner, planner.Rests p.poses.sample) ∧ p.Unfailing [.pass] ∧
    p.pass.1.planner.map (·.active) ≠ p.planner.map (·.active) := by
  decide +kernel

end Pipeline

end TerrainStream
