import TerrainStream.Proofs.Pipeline.Album
import TerrainStream.Proofs.Pipeline.Journal
import TerrainStream.Proofs.Residency.Lineage
import TerrainStream.Proofs.World.Supplier

/-! The geometry in the simulation is the geometry of the snapshots. Whatever happens to claims and cells meanwhile,
the shape that a cell has shows the snapshot that its last build comes from. -/

namespace TerrainStream

open Cell Store Shape Collision Build Residency Physics World

variable {σ ω : Type}

namespace Pipeline

open Ledger

variable [Simulation σ] [Accountable σ]

/-- A pipeline that builds by merging, with its album, while some requests and jobs have been taken from their queues
and not yet been dealt with. -/
structure Exhibits (sane : ω → Prop) (p : Pipeline (Archive σ) ω) (planner : Planner) (taken : List Request)
    (begun : List Job) (a : Album) : Prop where
  intact : p.Intact
  merges : ∃ limit, p.builder = merge limit
  sane : sane p.world
  hung : (p.ledger planner taken begun).Hung a

variable {sane : ω → Prop} {p : Pipeline (Archive σ) ω} {planner : Planner} {taken : List Request} {begun : List Job}
  {a : Album}

theorem Exhibits.runJob {job : Job} (exhibits : p.Exhibits sane planner taken (job :: begun) a) :
    (p.runJob job).Exhibits sane planner taken begun a := by
  obtain ⟨intact, ⟨limit, merges⟩, sane, hung⟩ := exhibits
  have kept := runJob_intact intact job
  rcases runJob_cases p intact.interludes job with
    ⟨spent, _⟩ | ⟨slot, shape, placeholder, scratch, outcomes, found, stage, current, built, same⟩
  · have member : job.claim ∈ (p.ledger planner taken (job :: begun)).waits :=
      List.mem_append_right _ List.mem_cons_self
    exact absurd spent (hung.tracked.carried.borne_waiting member)
  · have shows (whole : job.snapshot.Whole) : Shows job.snapshot shape placeholder := by
      have made := built_shows whole limit p.scratch
      rwa [← merges, built] at made
    rw [same] at kept ⊢
    refine ⟨kept, ⟨limit, merges⟩, sane, ?_⟩
    simp only [ledger, Mailbox.post_letters intact.commands]
    exact hung.build (.refl _) found stage current shows

theorem Exhibits.openGate (exhibits : p.Exhibits sane planner [] [] a) : p.openGate.Exhibits sane planner [] [] a := by
  have ⟨⟨there, events, requests, commands, quiet⟩, merges, sound, hung⟩ := exhibits
  refine openGate_keeps (K := fun begun p => p.Exhibits sane planner [] begun a) (fun p job begun => Exhibits.runJob) ?_
  exact ⟨⟨there, events, requests, commands, quiet⟩, merges, sound, p.ledger_opened planner ▸ hung⟩

theorem Exhibits.build (exhibits : p.Exhibits sane planner [] [] a) (place : Nat) :
    (p.build place).Exhibits sane planner [] [] a := by
  have ⟨⟨there, events, requests, commands, quiet⟩, merges, sound, hung⟩ := exhibits
  rcases p.build_cases place with same | ⟨job, parked, same, taken⟩
  · rw [same]
    exact exhibits
  · rw [same]
    exact Exhibits.runJob ⟨⟨there, events, requests, commands, quiet⟩, merges, sound, hung.perm taken.symm⟩

/-- A request that got its snapshot turns into a job for it, which is built at once if the gate is open. -/
private theorem submit_exhibits {r : Request} (exhibits : p.Exhibits sane planner (r :: taken) [] a)
    {snapshot : Snapshot} (whole : snapshot.Whole) (lane : Lane) {job : Job}
    (same : job = ⟨r.key, r.index, r.version, r.initial, snapshot⟩) :
    (p.submit job lane).Exhibits sane planner taken [] (a.snap r.claim snapshot) := by
  obtain ⟨⟨there, events, requests, commands, quiet⟩, merges, sane, hung⟩ := exhibits
  subst same
  unfold submit
  dsimp only
  split
  · rename_i waiting parked
    have added : ((waiting.push (⟨r.key, r.index, r.version, r.initial, snapshot⟩, lane)).toList.map (·.1)).Perm
        (⟨r.key, r.index, r.version, r.initial, snapshot⟩ :: p.jobs) := by
      simp [jobs, parked]
    exact ⟨⟨there, events, requests, commands, quiet⟩, merges, sane, hung.accept rfl added whole⟩
  · exact Exhibits.runJob ⟨⟨there, events, requests, commands, quiet⟩, merges, sane, hung.accept rfl (.refl _) whole⟩

variable [Supplier ω]

theorem Exhibits.serve {r : Request} (wholesome : Wholesome sane)
    (exhibits : p.Exhibits sane planner (r :: taken) [] a) :
    (p.serve r).1.Exhibits sane planner taken [] (p.pasteServe a r) := by
  have ⟨⟨there, events, requests, commands, quiet⟩, merges, sound, hung⟩ := exhibits
  unfold pasteServe
  rcases serve_cases exhibits.intact hung.tracked with
    ⟨_, served⟩ | ⟨_, world, snapshot, answer, served⟩ | ⟨_, world, e, answer, served⟩
  · rw [served]
    exact ⟨⟨there, (Mailbox.post_isOpen _ _).trans events, requests, commands, quiet⟩, merges, sound, hung.giveUp rfl⟩
  · have still := wholesome.lasting p.world r.key sound
    have whole := wholesome.whole p.world r.key snapshot sound (congrArg Prod.snd answer)
    rw [answer] at still
    have asked : ({ p with world } : Pipeline (Archive σ) ω).Exhibits sane planner (r :: taken) [] a :=
      ⟨⟨there, events, requests, commands, quiet⟩, merges, still, hung⟩
    rw [served, if_pos rfl, answer]
    exact submit_exhibits asked whole _ rfl
  · have still := wholesome.lasting p.world r.key sound
    rw [answer] at still
    rw [served]
    exact ⟨⟨there, (Mailbox.post_isOpen _ _).trans events, requests, commands, quiet⟩, merges, still, hung.giveUp rfl⟩

theorem Exhibits.supply (wholesome : Wholesome sane) (exhibits : p.Exhibits sane planner [] [] a) (most : Nat) :
    (p.supply most).1.Exhibits sane planner [] [] (p.paste a (.supply most)) := by
  have ⟨⟨there, events, requests, commands, quiet⟩, merges, sound, hung⟩ := exhibits
  have taken : ({ p with requests := p.requests.rest most } : Pipeline (Archive σ) ω).Exhibits sane planner
      (p.requests.firsts most) [] a :=
    ⟨⟨there, events, requests, commands, quiet⟩, merges, sound, p.ledger_taken planner most ▸ hung⟩
  obtain ⟨a', exhibits, ended⟩ := supply_keeps (K := fun taken p' => ∃ a', p'.Exhibits sane planner taken [] a' ∧
    p'.pasteSupply a' taken = p.paste a (.supply most))
    (fun p' r taken ⟨a', exhibits, pasted⟩ => ⟨_, exhibits.serve wholesome, pasted⟩) most ⟨a, taken, rfl⟩
  exact ended ▸ exhibits

omit [Supplier ω] in
private theorem apply_hung {l : Ledger (Archive σ)} (hung : l.Hung a) {command : Command} {commands : List Command}
    (taken : l.commands = command :: commands) :
    ∃ sim store, (Site.apply ⟨l.sim, l.store, []⟩ command).1 = ⟨sim, store, []⟩ ∧
      Hung { l with commands, sim, store } (pasteApply ⟨l.sim, l.store, []⟩ a command) := by
  cases command with
  | install d =>
    obtain ⟨slot, found, stage, current⟩ := hung.tracked.delivered taken
    have applied : Site.apply ⟨l.sim, l.store, []⟩ (.install d) = _ := install_current l.sim found stage current
    refine ⟨_, _, congrArg Prod.fst applied, ?_⟩
    rw [pasteApply, applied, if_pos rfl]
    exact hung.install taken found stage current
  | remove key shape => exact ⟨_, _, rfl, hung.other taken rfl (.remove taken)⟩
  | toggle key i enabled =>
    obtain ⟨sim, store, applied, work⟩ := apply_work l taken
    have same : (Site.apply ⟨l.sim, l.store, []⟩ (.toggle key i enabled)).1.store = l.store ∧
        (Site.apply ⟨l.sim, l.store, []⟩ (.toggle key i enabled)).1.sim.given = l.sim.given := by
      simp only [Site.apply, Site.toggle]
      split
      · split <;> exact ⟨rfl, rfl⟩
      · exact ⟨rfl, rfl⟩
    rw [applied] at same
    obtain ⟨rfl, given⟩ : store = l.store ∧ sim.given = l.sim.given := same
    exact ⟨sim, _, applied, hung.other taken given work⟩

theorem Exhibits.drain (exhibits : p.Exhibits sane planner [] [] a) (most : Nat) :
    (p.drain most).1.Exhibits sane planner [] [] (p.paste a (.drain most)) := by
  have ⟨intact, merges, sound, hung⟩ := exhibits
  have none : p.interludes.addition = [] := by rw [intact.interludes]; rfl
  have start : pasteDrain ⟨p.sim, p.store, []⟩ a (p.commands.firsts most) = p.paste a (.drain most) := by
    rw [paste, none]
  obtain ⟨kept, _, a', hung, ended⟩ := drain_keeps (K := fun taken l => ∃ a', l.Hung a' ∧
    pasteDrain ⟨l.sim, l.store, []⟩ a' taken = p.paste a (.drain most)) (fun l command taken commands listed kept => by
      obtain ⟨a', hung, pasted⟩ := kept
      obtain ⟨sim, store, applied, next⟩ := apply_hung hung listed
      rw [pasteDrain, applied] at pasted
      exact ⟨sim, store, applied, _, next, pasted⟩)
    intact planner most ⟨a, hung, start⟩
  exact ⟨kept, merges, sound, ended ▸ hung⟩

omit [Supplier ω] in
/-- A pass, finished or not, leaves the builds of the cells that stay and forgets those of the cells that go. -/
private theorem afterPass_hung {d : Desk} (intact : p.Intact) (hung : (p.ledger planner [] []).Hung a)
    (ends : d = Desk.left ((p.desk planner).pass p.events.letters.toList p.poses.sample)) :
    ((p.afterPass d).ledger d.planner [] []).Hung (a.forget d.store) := by
  have acts := desk_acts p planner
  rw [← ends] at acts
  obtain ⟨tracked, owned⟩ : (ofDesk d p.jobs p.sim).Tracked ∧ (ofDesk d p.jobs p.sim).Owned :=
    acts_keep (J := fun l => l.Tracked ∧ l.Owned)
      (fun d d' act ready kept => ⟨kept.1.act act ready, kept.2.act act ready⟩) acts intact.commands
      ⟨hung.tracked, hung.owned⟩
  have queue (delivery : Delivery) (queued : Command.install delivery ∈ d.commands.letters.toList) :
      Command.install delivery ∈ p.commands.letters.toList := by
    obtain ⟨sent, letters, plain⟩ := acts.sends intact.commands
    rw [letters, List.mem_append] at queued
    exact queued.resolve_right fun listed => plain _ listed delivery rfl
  refine ⟨tracked, owned, hung.jobs, fun delivery queued => hung.builds delivery (queue delivery queued),
    fun i slot living done => ?_, fun key done => (Bool.and_eq_true_iff.mp done).1⟩
  have complete : a.complete slot.key = true := (Bool.and_eq_true_iff.mp done).2
  rw [ends] at living
  obtain ⟨old, before, owner, shape, flag⟩ :=
    Desk.pass_keeps_builds hung.owned.sound _ _ living (hung.present _ complete)
  obtain ⟨s, built, shows⟩ := hung.cells i old before (owner ▸ complete)
  refine ⟨s, owner ▸ built, ?_⟩
  rwa [Slot.Shows, shape, flag] at shows

omit [Supplier ω] in
theorem Exhibits.pass (exhibits : p.Exhibits sane planner [] [] a) (there : p.planner = some planner) :
    ∃ planner, p.pass.1.planner = some planner ∧ p.pass.1.Exhibits sane planner [] [] (a.forget p.pass.1.store) := by
  have ⟨intact, merges, sound, hung⟩ := exhibits
  have acts := desk_acts p planner
  have kept := afterPass_hung intact hung rfl
  rw [pass_left there]
  exact ⟨_, rfl, afterPass_intact intact acts, merges, sound, kept⟩

theorem Exhibits.move (wholesome : Wholesome sane) (exhibits : p.Exhibits sane planner [] [] a)
    (there : p.planner = some planner) {m : Move ω} (worlds : ∀ world, m = .world world → sane world) :
    ∃ planner, (p.move m).planner = some planner ∧ (p.move m).Exhibits sane planner [] [] (p.paste a m) := by
  have ⟨intact, merges, sound, hung⟩ := exhibits
  by_cases passing : m = .pass
  · subst m
    exact exhibits.pass there
  · obtain ⟨kept, same, _⟩ := move_works intact planner passing
    refine ⟨planner, same.trans there, ?_⟩
    cases m with
    | pass => exact absurd rfl passing
    | supply most => exact exhibits.supply wholesome most
    | openGate => exact exhibits.openGate
    | build place => exact exhibits.build place
    | drain most => exact exhibits.drain most
    | send event => exact ⟨kept, merges, sound, hung⟩
    | closeGate => exact ⟨kept, merges, sound, hung⟩
    | world world => exact ⟨kept, merges, worlds world rfl, hung⟩
    | poses poses => exact ⟨kept, merges, sound, hung⟩

theorem Exhibits.run (wholesome : Wholesome sane) (exhibits : p.Exhibits sane planner [] [] a)
    (there : p.planner = some planner) {moves : List (Move ω)} (worlds : ∀ world, .world world ∈ moves → sane world) :
    ∃ planner, (p.run moves).Exhibits sane planner [] [] (p.album a moves) := by
  induction moves generalizing p planner a with
  | nil => exact ⟨planner, exhibits⟩
  | cons m moves ih =>
    obtain ⟨next, there, kept⟩ := exhibits.move wholesome there (m := m)
      fun world same => worlds world (same ▸ List.mem_cons_self)
    exact ih kept there fun world listed => worlds world (List.mem_cons_of_mem _ listed)

omit [Supplier ω] in
theorem new_exhibits (grid : Grid) (initial most : Nat) (pacing : Pacing) (margins : Margins) (limit : Nat)
    {world : ω} (begins : sane world) {sim : σ} (valid : Accountable.proper sim)
    (bare : Accountable.holdings sim = []) :
    (new grid (Store.ofLimits initial most) pacing margins (merge limit) world (Archive.mk sim fun _ => none)).Exhibits
      sane (Planner.new grid pacing margins) [] [] .blank := by
  refine ⟨new_intact _ _ _ _ _ _ _, ⟨limit, rfl⟩, begins, new_tracked _ _ _ _ _ _ _ _,
    new_owned grid initial most pacing margins _ world valid bare, ?_, ?_, ?_, ?_⟩
  · intro job listed
    cases listed
  · intro d queued
    cases queued
  · intro i slot living done
    cases done
  · intro key done
    cases done

/-- A shape under the handle of a cell shows what the cell does. -/
private theorem shows_geometry {given : Handle → Option Shape} {slot : Slot} {s : Snapshot}
    (shows : slot.Shows given s) : (slot.placeholder = false →
      (∀ handle, slot.shape = some handle →
        ∃ shape, given handle = some shape ∧ ∀ spot, shape.hits spot = (s.fills spot).toNat) ∧
      (slot.shape = none ↔ s.isAllAir = true)) ∧
    (slot.placeholder = true →
      ∃ handle shape box, slot.shape = some handle ∧ given handle = some shape ∧ shape.boxes = #[box] ∧
        Tight s box) := by
  obtain ⟨shape, made, look⟩ := shows
  refine ⟨fun exact => ?_, fun coarse => ?_⟩
  · rw [exact] at made
    obtain ⟨hits, empty⟩ : Exact s shape := made
    rcases look with ⟨bare, air⟩ | ⟨handle, owns, given, full⟩
    · rw [bare]
      exact ⟨fun handle owns => (nomatch owns), fun _ => empty.mp air, fun _ => rfl⟩
    · rw [owns]
      refine ⟨fun other same => ⟨shape, Option.some.inj same ▸ given, hits⟩, fun none => (nomatch none), fun air => ?_⟩
      rw [empty.mpr air] at full
      cases full
  · rw [coarse] at made
    obtain ⟨box, boxes, tight⟩ : ∃ box, shape.boxes = #[box] ∧ Tight s box := made
    rcases look with ⟨_, air⟩ | ⟨handle, owns, given, _⟩
    · rw [Shape.isEmpty, boxes] at air
      cases air
    · exact ⟨handle, shape, box, owns, given, boxes, tight⟩

/-- In every state that a run comes to, each cell that has had a build completed since it entered the store shows the
snapshot that was taken for the last one. A full build has been given boxes at the solid voxels of the snapshot,
each in one box and no air in any, and there is no shape when all is air; a coarse one has been given the least box
around them. Passes may fail, and claims, cells and slots come and go. -/
theorem geometry_shows_snapshots (grid : Grid) (initial most : Nat) (pacing : Pacing) (margins : Margins) (limit : Nat)
    (world : ω) (sim : σ) (valid : Accountable.proper sim) (bare : Accountable.holdings sim = []) {sane : ω → Prop}
    (wholesome : Wholesome sane) (begins : sane world) (moves : List (Move ω))
    (worlds : ∀ world, .world world ∈ moves → sane world) :
    let p := (new grid (Store.ofLimits initial most) pacing margins (merge limit) world sim).run moves
    let start := new grid (Store.ofLimits initial most) pacing margins (merge limit) world
      (Archive.mk sim fun _ => none)
    let q := start.run moves
    let album := start.album .blank moves
    q.through Archive.sim = p ∧
    ∀ i slot, p.store.live? i = some slot → album.complete slot.key = true →
      ∃ s, album.built slot.key = some s ∧
        (slot.placeholder = false →
          (∀ handle, slot.shape = some handle →
            ∃ shape, q.sim.given handle = some shape ∧ ∀ spot, shape.hits spot = (s.fills spot).toNat) ∧
          (slot.shape = none ↔ s.isAllAir = true)) ∧
        (slot.placeholder = true →
          ∃ handle shape box, slot.shape = some handle ∧ q.sim.given handle = some shape ∧ shape.boxes = #[box] ∧
            Tight s box) := by
  intro p start q album
  have same : q.through Archive.sim = p := (run_through Archive.mirrors start moves).symm
  have begun := new_exhibits grid initial most pacing margins limit begins valid bare
  obtain ⟨planner, exhibits⟩ := begun.run wholesome rfl worlds
  refine ⟨same, fun i slot living done => ?_⟩
  have living : q.store.live? i = some slot := by rw [← same] at living; exact living
  obtain ⟨s, built, shows⟩ := exhibits.hung.cells i slot living done
  exact ⟨s, built, shows_geometry shows⟩

/-- A cell is built in full. Then an edit asks for more boxes than there may be, and the cell shows it coarsely. -/
theorem geometry_shows_snapshots_coarsely :
    let ground : Ground := .ofTerrain (.floor ⟨Grid.ofSize 2, 1, ∅⟩)
    let before : List (Move Ground) := [.send (.requested ⟨0⟩), .pass, .supply 1, .drain 1]
    let after := [.world (ground.set ⟨1, 0, 1⟩ ⟨0⟩), .send (.voxelEdited ⟨1, 0, 1⟩), .pass, .supply 1, .drain 1]
    let first := new (Grid.ofSize 2) (Store.ofLimits 1 1) Pacing.standard Margins.standard (merge 1) ground Scene.empty
    let start := new (Grid.ofSize 2) (Store.ofLimits 1 1) Pacing.standard Margins.standard (merge 1) ground
      (Archive.mk Scene.empty fun _ => none)
    let p := first.run (before ++ after)
    let q := start.run (before ++ after)
    let album := start.album .blank (before ++ after)
    ((first.run before).store.live? 0).any (fun slot => !slot.placeholder) = true ∧
    ∃ slot s handle shape box, p.store.live? 0 = some slot ∧ slot.placeholder = true ∧
      album.built slot.key = some s ∧ s.solidCount = 3 ∧ slot.shape = some handle ∧
      q.sim.given handle = some shape ∧ shape.boxes = #[box] ∧ Tight s box := by
  intro ground before after first start p q album
  have full : ((first.run before).store.live? 0).any (fun slot => !slot.placeholder) = true := by decide +kernel
  have look : (p.store.live? 0).any (fun slot => slot.placeholder && album.complete slot.key &&
      (album.built slot.key).any (·.solidCount = 3)) = true := by decide +kernel
  have fits : 0 < ground.grid.size ∧ ground.grid.size ≤ 65535 := by decide
  have worlds : ∀ world, .world world ∈ before ++ after → 0 < world.grid.size ∧ world.grid.size ≤ 65535 := by
    simp only [before, after, List.cons_append, List.nil_append, List.mem_cons, List.not_mem_nil, reduceCtorEq,
      or_false, false_or, Move.world.injEq]
    rintro _ rfl
    exact fits
  obtain ⟨_, cells⟩ := geometry_shows_snapshots (Grid.ofSize 2) 1 1 Pacing.standard Margins.standard 1 ground
    Scene.empty Scene.numbered_empty rfl Ground.wholesome fits (before ++ after) worlds
  refine ⟨full, ?_⟩
  -- The states are named before they are compared, lest they be computed.
  generalize left : album = finished at look ⊢
  generalize ended : q = last
  simp only [album, q, start] at left ended
  rw [left, ended] at cells
  obtain ⟨slot, living, seen⟩ := (Option.any_eq_true _ _).mp look
  simp only [Bool.and_eq_true] at seen
  obtain ⟨⟨coarse, done⟩, solid⟩ := seen
  obtain ⟨s, built, _, covered⟩ := cells 0 slot living done
  obtain ⟨handle, shape, box, owns, given, boxes, tight⟩ := covered coarse
  rw [built] at solid
  exact ⟨slot, s, handle, shape, box, living, coarse, built, of_decide_eq_true solid, owns, given, boxes, tight⟩

end Pipeline

end TerrainStream
