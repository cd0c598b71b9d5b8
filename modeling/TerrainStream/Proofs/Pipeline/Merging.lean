import TerrainStream.Proofs.Pipeline.Journal
import TerrainStream.Proofs.Shape.Covering
import TerrainStream.Proofs.World.Supplier

/-! Pipelines that build by merging what a world supplies whole. A build that is coarse has a box all the same, so it
leaves a shape in its cell. -/

namespace TerrainStream

open Cell Store Shape Collision Build Residency Physics World

variable {σ ω : Type}

/-- Whether a coarse build is to bring a shape. -/
def Collision.Command.Boxed : Command → Prop
  | .install d => d.placeholder = true → d.shape.isEmpty = false
  | _ => True

theorem Shape.Shows.boxed {snap : Snapshot} {shape : Shape} {placeholder : Bool} (shows : Shows snap shape placeholder)
    (coarse : placeholder = true) : shape.isEmpty = false := by
  subst coarse
  obtain ⟨box, boxes, _⟩ : ∃ box, shape.boxes = #[box] ∧ Tight snap box := shows
  rw [Shape.isEmpty, boxes]
  rfl

namespace Pipeline

open Ledger

/-- A pipeline that builds by merging, in a world that is sane, while some requests and jobs have been taken from their
queues and not yet been dealt with. -/
structure Merging (sane : ω → Prop) (p : Pipeline σ ω) (planner : Planner) (taken : List Request) (begun : List Job) :
    Prop where
  intact : p.Intact
  merges : ∃ limit, p.builder = merge limit
  sane : sane p.world
  tracked : (p.ledger planner taken begun).Tracked
  whole : ∀ job ∈ begun ++ p.jobs, job.snapshot.Whole
  boxed : ∀ c ∈ p.commands.letters.toList, c.Boxed

namespace Merging

variable {sane : ω → Prop} {p : Pipeline σ ω} {planner : Planner} {taken : List Request} {begun : List Job}

theorem runJob [Simulation σ] {job : Job} (merging : p.Merging sane planner taken (job :: begun)) :
    (p.runJob job).Merging sane planner taken begun := by
  obtain ⟨intact, ⟨limit, merges⟩, sane, tracked, whole, boxed⟩ := merging
  have kept := runJob_intact intact job
  have still : ((p.runJob job).ledger planner taken begun).Tracked :=
    tracked.work (runJob_work intact planner taken begun (.refl _))
  rcases runJob_cases p intact.interludes job with
    ⟨_, outcomes, same⟩ | ⟨slot, shape, placeholder, scratch, outcomes, _, _, _, built, same⟩
  · rw [same] at kept still ⊢
    exact ⟨kept, ⟨limit, merges⟩, sane, still, fun job listed => whole job (List.mem_cons_of_mem _ listed), boxed⟩
  · have shows : Shows job.snapshot shape placeholder := by
      have made := built_shows (whole job List.mem_cons_self) limit p.scratch
      rwa [← merges, built] at made
    rw [same] at kept still ⊢
    refine ⟨kept, ⟨limit, merges⟩, sane, still, fun job listed => whole job (List.mem_cons_of_mem _ listed), ?_⟩
    rw [Mailbox.post_letters intact.commands]
    intro c listed
    rcases List.mem_append.mp listed with old | fresh
    · exact boxed c old
    · cases List.mem_singleton.mp fresh
      exact shows.boxed

theorem openGate [Simulation σ] (merging : p.Merging sane planner [] []) : p.openGate.Merging sane planner [] [] := by
  have ⟨⟨there, events, requests, commands, quiet⟩, merges, sound, tracked, whole, boxed⟩ := merging
  refine openGate_keeps (K := fun begun p => p.Merging sane planner [] begun) (fun p job begun => runJob) ?_
  refine ⟨⟨there, events, requests, commands, quiet⟩, merges, sound, p.ledger_opened planner ▸ tracked, ?_, boxed⟩
  simpa [jobs] using whole

theorem build [Simulation σ] (merging : p.Merging sane planner [] []) (place : Nat) :
    (p.build place).Merging sane planner [] [] := by
  have ⟨⟨there, events, requests, commands, quiet⟩, merges, sound, tracked, whole, boxed⟩ := merging
  rcases p.build_cases place with same | ⟨job, parked, same, listed⟩
  · rw [same]
    exact merging
  · rw [same]
    refine runJob ⟨⟨there, events, requests, commands, quiet⟩, merges, sound, ?_, ?_, boxed⟩
    · exact ⟨tracked.keyed, tracked.carried.perm ((listed.symm.map (·.claim)).append_left _)⟩
    · exact fun other member => whole other (listed.mem_iff.mpr member)

/-- A request that got its snapshot turns into a job for it, which is built at once if the gate is open. -/
private theorem submit [Simulation σ] {r : Request} (merging : p.Merging sane planner (r :: taken) [])
    {snapshot : Snapshot} (fits : snapshot.Whole) (lane : Lane) {job : Job}
    (same : job = ⟨r.key, r.index, r.version, r.initial, snapshot⟩) :
    (p.submit job lane).Merging sane planner taken [] := by
  have ⟨⟨there, events, requests, commands, quiet⟩, merges, sound, tracked, whole, boxed⟩ := merging
  have accepted (jobs : List Job) (added : jobs.Perm (job :: p.jobs)) :
      ({ p.ledger planner taken [] with jobs } : Ledger σ).Tracked := by
    subst same
    exact tracked.work (.accept rfl added)
  have wholes (other : Job) (member : other ∈ job :: p.jobs) : other.snapshot.Whole := by
    rcases List.mem_cons.mp member with rfl | old
    · exact same ▸ fits
    · exact whole other old
  unfold Pipeline.submit
  dsimp only
  split
  · rename_i waiting parked
    have added : ((waiting.push (job, lane)).toList.map (·.1)).Perm (job :: p.jobs) := by
      simp [jobs, parked]
    exact ⟨⟨there, events, requests, commands, quiet⟩, merges, sound, accepted _ added,
      fun other member => wholes other (added.mem_iff.mp member), boxed⟩
  · exact runJob ⟨⟨there, events, requests, commands, quiet⟩, merges, sound, accepted _ (.refl _), wholes, boxed⟩

variable [Simulation σ] [Supplier ω]

theorem serve {r : Request} (wholesome : Wholesome sane) (merging : p.Merging sane planner (r :: taken) []) :
    (p.serve r).1.Merging sane planner taken [] := by
  have ⟨⟨there, events, requests, commands, quiet⟩, merges, sound, tracked, whole, boxed⟩ := merging
  have given := tracked.work (.giveUp List.cons_append)
  have still := wholesome.lasting p.world r.key sound
  rcases serve_cases merging.intact tracked with
    ⟨_, served⟩ | ⟨_, world, snapshot, answer, served⟩ | ⟨_, world, e, answer, served⟩
  · rw [served]
    exact ⟨⟨there, (Mailbox.post_isOpen _ _).trans events, requests, commands, quiet⟩, merges, sound, given, whole, boxed⟩
  · have fits := wholesome.whole p.world r.key snapshot sound (congrArg Prod.snd answer)
    rw [answer] at still
    have asked : ({ p with world } : Pipeline σ ω).Merging sane planner (r :: taken) [] :=
      ⟨⟨there, events, requests, commands, quiet⟩, merges, still, tracked, whole, boxed⟩
    rw [served]
    exact asked.submit fits _ rfl
  · rw [answer] at still
    rw [served]
    exact ⟨⟨there, (Mailbox.post_isOpen _ _).trans events, requests, commands, quiet⟩, merges, still, given, whole, boxed⟩

theorem supply (wholesome : Wholesome sane) (merging : p.Merging sane planner [] []) (most : Nat) :
    (p.supply most).1.Merging sane planner [] [] := by
  have ⟨⟨there, events, requests, commands, quiet⟩, merges, sound, tracked, whole, boxed⟩ := merging
  refine supply_keeps (K := fun taken p => p.Merging sane planner taken []) (fun _ _ _ => serve wholesome) most ?_
  exact ⟨⟨there, events, requests, commands, quiet⟩, merges, sound, p.ledger_taken planner most ▸ tracked, whole, boxed⟩

omit [Supplier ω] in
theorem drain (merging : p.Merging sane planner [] []) (most : Nat) : (p.drain most).1.Merging sane planner [] [] := by
  have ⟨intact, merges, sound, tracked, whole, boxed⟩ := merging
  obtain ⟨kept, _, tracked, boxed⟩ := drain_keeps (K := fun _ l => l.Tracked ∧ ∀ c ∈ l.commands, c.Boxed)
    (fun l command taken commands listed ⟨tracked, boxed⟩ => by
      obtain ⟨sim, store, applied, work⟩ := apply_work l listed
      exact ⟨sim, store, applied, tracked.work work, fun c member => boxed c (listed ▸ List.mem_cons_of_mem _ member)⟩)
    intact planner most ⟨tracked, boxed⟩
  exact ⟨kept, merges, sound, tracked, whole, boxed⟩

omit [Simulation σ] [Supplier ω] in
theorem pass (merging : p.Merging sane planner [] []) {d : Desk}
    (ends : d = Desk.left ((p.desk planner).pass p.events.letters.toList p.poses.sample)) :
    (p.afterPass d).Merging sane d.planner [] [] := by
  have ⟨intact, merges, sound, tracked, whole, boxed⟩ := merging
  have acts := desk_acts p planner
  rw [← ends] at acts
  have start : (ofDesk (p.desk planner) p.jobs p.sim).Tracked := tracked
  have tracked := acts_keep (J := Tracked) (fun _ _ act ready tracked => tracked.act act ready) acts intact.commands start
  obtain ⟨sent, letters, plain⟩ := acts.sends intact.commands
  refine ⟨afterPass_intact intact acts, merges, sound, tracked, whole, fun c member => ?_⟩
  rcases List.mem_append.mp (letters ▸ member : c ∈ p.commands.letters.toList ++ sent) with old | fresh
  · exact boxed c old
  · cases c with
    | install delivery => exact absurd rfl (plain _ fresh delivery)
    | remove | toggle => trivial

theorem other (wholesome : Wholesome sane) (merging : p.Merging sane planner [] []) {m : Move ω} (passing : m ≠ .pass)
    (worlds : ∀ world, m = .world world → sane world) : (p.move m).Merging sane planner [] [] := by
  have ⟨intact, merges, sound, tracked, whole, boxed⟩ := merging
  obtain ⟨kept, _⟩ := move_works intact planner passing
  cases m with
  | pass => exact absurd rfl passing
  | supply most => exact merging.supply wholesome most
  | openGate => exact merging.openGate
  | build place => exact merging.build place
  | drain most => exact merging.drain most
  | send event => exact ⟨kept, merges, sound, tracked, whole, boxed⟩
  | closeGate => exact ⟨kept, merges, sound, tracked, whole, boxed⟩
  | world world => exact ⟨kept, merges, worlds world rfl, tracked, whole, boxed⟩
  | poses poses => exact ⟨kept, merges, sound, tracked, whole, boxed⟩

end Merging

theorem new_merging {sane : ω → Prop} (grid : Grid) (initial most : Nat) (pacing : Pacing) (margins : Margins)
    (limit : Nat) {world : ω} (begins : sane world) (sim : σ) :
    (new grid (Store.ofLimits initial most) pacing margins (merge limit) world sim).Merging sane
      (Planner.new grid pacing margins) [] [] :=
  ⟨new_intact _ _ _ _ _ _ _, ⟨limit, rfl⟩, begins, new_tracked _ _ _ _ _ _ _ _, fun _ listed => (nomatch listed),
    fun _ listed => (nomatch listed)⟩

end Pipeline

end TerrainStream
