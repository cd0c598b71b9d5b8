import TerrainStream.Proofs.Pipeline.Run

/-! Pipelines around simulations that answer alike run alike: what a simulation keeps to itself, such as
a log of its calls, has no effect on anything else. -/

namespace TerrainStream

open Cell Store Shape Collision Build Residency Physics World

variable {σ τ ω : Type}

/-- A map between simulations under which calls and their answers agree. -/
structure Collision.Mirrors [Simulation σ] [Simulation τ] (f : σ → τ) : Prop where
  add : ∀ s key shape enabled, Simulation.addShape (f s) key shape enabled =
    ((Simulation.addShape s key shape enabled).1, f (Simulation.addShape s key shape enabled).2)
  remove : ∀ s handle, Simulation.removeShape (f s) handle = f (Simulation.removeShape s handle)
  enable : ∀ s handle enabled, Simulation.setEnabled (f s) handle enabled = f (Simulation.setEnabled s handle enabled)

/-- A site with its simulation seen through a map. -/
def Collision.Site.through (f : σ → τ) (site : Site σ) : Site τ := ⟨f site.sim, site.store, site.interludes⟩

namespace Collision.Mirrors

variable [Simulation σ] [Simulation τ] {f : σ → τ}

theorem commit (mirrors : Mirrors f) (site : Site σ) (d : Delivery) (shape : Option Handle) :
    (site.through f).commit d shape = ((site.commit d shape).1.through f, (site.commit d shape).2) := by
  simp only [Site.commit, Site.through]
  split
  · rename_i store previous finished
    cases previous with
    | none => rfl
    | some handle => simp [mirrors.remove]
  · rename_i store reason finished
    cases shape with
    | none => rfl
    | some handle => simp [mirrors.remove]

theorem present (mirrors : Mirrors f) (site : Site σ) (d : Delivery) :
    (site.through f).present d = ((site.present d).1.through f, (site.present d).2) := by
  simp only [Site.present, Site.through, mirrors.add]

theorem apply (mirrors : Mirrors f) (site : Site σ) (c : Command) :
    (site.through f).apply c = ((site.apply c).1.through f, (site.apply c).2) := by
  have store : (site.through f).store = site.store := rfl
  cases c with
  | install d =>
    simp only [Site.apply, Site.install, store]
    split
    · rfl
    · split
      · exact mirrors.commit site d none
      · rw [mirrors.present]
        exact mirrors.commit _ d _
  | remove key handle => simp [Site.apply, Site.through, mirrors.remove]
  | toggle key i enabled =>
    simp only [Site.apply, Site.toggle, store]
    split
    · split
      · simp [Site.through, mirrors.enable]
      · rfl
    · rfl

theorem applyAll (mirrors : Mirrors f) (site : Site σ) (commands : List Command) :
    (site.through f).applyAll commands = ((site.applyAll commands).1.through f, (site.applyAll commands).2) := by
  unfold Site.applyAll
  generalize Tally.zero = tally
  induction commands generalizing site tally with
  | nil => rfl
  | cons c commands ih =>
    simp only [List.foldl_cons, mirrors.apply]
    exact ih _ _

end Collision.Mirrors

namespace Pipeline

/-- A pipeline with its simulation seen through a map. -/
def through (f : σ → τ) (p : Pipeline σ ω) : Pipeline τ ω := { p with sim := f p.sim }

variable {f : σ → τ}

theorem submit_through (p : Pipeline σ ω) (job : Job) (lane : Lane) :
    (p.through f).submit job lane = (p.submit job lane).through f := by
  have parked : (p.through f).parked = p.parked := rfl
  simp only [submit, parked]
  split <;> rfl

theorem excuse_through (p : Pipeline σ ω) (r : Request) : (p.through f).excuse r = (p.excuse r).through f := by
  have store : (p.through f).store = p.store := rfl
  simp only [excuse, store]
  split <;> rfl

theorem serve_through [Supplier ω] (p : Pipeline σ ω) (r : Request) :
    (p.through f).serve r = ((p.serve r).1.through f, (p.serve r).2) := by
  have store : (p.through f).store = p.store := rfl
  have asked : (p.through f).ask r.key = ((p.ask r.key).1.through f, (p.ask r.key).2) := rfl
  simp only [serve, store, asked]
  split
  · rfl
  · split
    · rw [excuse_through]
    · generalize p.ask r.key = answer
      obtain ⟨next, snapshot | e⟩ := answer
      · rfl
      · exact congrArg (·, _) (submit_through _ _ _)

theorem supply_through [Supplier ω] (p : Pipeline σ ω) (most : Nat) :
    (p.through f).supply most = ((p.supply most).1.through f, (p.supply most).2) := by
  have onward (served : Pipeline σ ω × SupplyTally) (r : Request) :
      (((served.1.through f).serve r).1, served.2 + ((served.1.through f).serve r).2) =
        ((served.1.serve r).1.through f, served.2 + (served.1.serve r).2) := by
    rw [serve_through]
  exact @List.foldl_hom _ _ _ (fun served : Pipeline σ ω × SupplyTally => (served.1.through f, served.2)) _ _
    (p.requests.firsts most) ({ p with requests := p.requests.rest most }, SupplyTally.zero) onward

theorem openGate_through (p : Pipeline σ ω) : (p.through f).openGate = p.openGate.through f := by
  have runAll (waited : List (Job × Lane)) (p : Pipeline σ ω) :
      waited.foldl (fun p job => p.runJob job.1) (p.through f) =
        (waited.foldl (fun p job => p.runJob job.1) p).through f := by
    induction waited generalizing p with
    | nil => rfl
    | cons job waited ih => exact ih (p.runJob job.1)
  simp only [openGate, ← Array.foldl_toList]
  exact runAll _ { p with parked := none }

theorem build_through (p : Pipeline σ ω) (place : Nat) : (p.through f).build place = (p.build place).through f := by
  have parked : (p.through f).parked = p.parked := rfl
  simp only [build, parked]
  split <;> rfl

theorem pass_through (p : Pipeline σ ω) : (p.through f).pass = (p.pass.1.through f, p.pass.2) := by
  have planner : (p.through f).planner = p.planner := rfl
  have desk (planner : Planner) : (p.through f).desk planner = p.desk planner := rfl
  have letters : (p.through f).events.letters.toList = p.events.letters.toList := rfl
  have sample : (p.through f).poses.sample = p.poses.sample := rfl
  simp only [pass, planner, passWith, desk, letters, sample]
  split
  · rfl
  · split <;> rfl

variable [Simulation σ] [Simulation τ]

theorem drain_through (mirrors : Mirrors f) (p : Pipeline σ ω) (most : Nat) :
    (p.through f).drain most = ((p.drain most).1.through f, (p.drain most).2) := by
  have applied := mirrors.applyAll ⟨p.sim, p.store, p.interludes.addition⟩ (p.commands.firsts most)
  simp only [drain, Site.drain]
  rw [show (Site.mk (p.through f).sim (p.through f).store (p.through f).interludes.addition).applyAll
    ((p.through f).commands.firsts most) = _ from applied]
  rfl

theorem move_through [Supplier ω] (mirrors : Mirrors f) (p : Pipeline σ ω) (m : Move ω) :
    (p.through f).move m = (p.move m).through f := by
  cases m with
  | send | closeGate | world | poses => rfl
  | pass => exact congrArg Prod.fst p.pass_through
  | supply most => exact congrArg Prod.fst (p.supply_through most)
  | openGate => exact p.openGate_through
  | build place => exact p.build_through place
  | drain most => exact congrArg Prod.fst (p.drain_through mirrors most)

/-- Simulations that answer alike lead a pipeline through the same states. -/
theorem run_through [Supplier ω] (mirrors : Mirrors f) (p : Pipeline σ ω) (moves : List (Move ω)) :
    (p.through f).run moves = (p.run moves).through f := by
  induction moves generalizing p with
  | nil => rfl
  | cons m moves ih =>
    have first := p.move_through mirrors m
    exact (congrArg (·.run moves) first).trans (ih (p.move m))

end Pipeline

end TerrainStream
