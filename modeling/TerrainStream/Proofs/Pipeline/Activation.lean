import TerrainStream.Proofs.Pipeline.References
import TerrainStream.Proofs.Pipeline.Shapes
import TerrainStream.Proofs.Residency.Activation

/-! Activation through a whole pipeline. What trackers want active is what the planner has active and what the
store has switched on; and once no command waits, it is what the simulation has enabled. -/

namespace TerrainStream

open Cell Store Shape Collision Build Residency Physics World Accountable

variable {σ ω : Type}

/-- What a simulation should hold for a cell. -/
def Store.Slot.shown (slot : Slot) : Option Holding := slot.shape.map fun shape => ⟨shape, slot.key, slot.active⟩

namespace Ledger

variable [Simulation σ] [Accountable σ]

/-- Planner, store and simulation agree about what is switched on. -/
structure Tuned (l : Ledger σ) : Prop where
  owned : l.Owned
  refs : ∀ key, l.store.refsOf key = l.planner.holders key
  lit : Lit l.planner l.store l.commands (holdings l.sim)
  wanted : ∀ key, l.planner.active.contains key = l.planner.wanted.contains key

variable {s : σ} {l l' : Ledger σ}

private theorem place_entries (valid : proper s) (d : Delivery) (enabled : Bool) {entry : Holding}
    (member : entry ∈ holdings (place s d enabled).2) :
    (entry ∈ holdings s ∧ (place s d enabled).1 ≠ some entry.handle) ∨
    (entry.cell = d.key ∧ entry.enabled = enabled ∧ entry.handle ∉ handles s) := by
  rcases (mem_place valid d enabled).mp member with before | ⟨handle, placed, rfl⟩
  · exact .inl ⟨before, fun same => place_fresh valid same (Accountable.held s valid entry before)⟩
  · exact .inr ⟨rfl, rfl, fun held => place_fresh valid placed (handles_issued valid held)⟩

private theorem Owned.agreed_install (owned : l.Owned) {d : Delivery} {commands : List Command} {slot : Slot}
    (taken : l.commands = .install d :: commands) (found : l.store.live? d.index = some slot)
    (owner : slot.key = d.key) (agreed : Agreed l.store l.commands (holdings l.sim)) :
    Agreed (l.store.put d.index
        { slot with shape := (place l.sim d slot.active).1, placeholder := d.placeholder, stage := .ready })
      commands
      (holdings (slot.shape.elim (place l.sim d slot.active).2
        (Simulation.removeShape (place l.sim d slot.active).2))) := by
  rw [taken] at agreed
  refine Agreed.installed (agreed.taken fun _ _ => rfl) found ?_ ?_ ?_ ?_
  · rfl
  · rfl
  · rfl
  · intro entry member
    have placed : entry ∈ holdings (place l.sim d slot.active).2 := by
      cases owns : slot.shape with
      | none => rwa [owns] at member
      | some handle =>
        rw [owns] at member
        obtain ⟨valid, held⟩ := owned.placed found owns d slot.active
        exact ((mem_holdings_remove valid held).mp member).1
    rcases place_entries owned.proper d slot.active placed with before | ⟨cell, flag, strange⟩
    · exact .inl before
    · refine .inr ⟨cell.trans owner.symm, flag, ?_⟩
      intro j other living owns
      exact strange (owned.has living owns)

private theorem Work.agreed (work : Work l l') (owned : l.Owned)
    (agreed : Agreed l.store l.commands (holdings l.sim)) : Agreed l'.store l'.commands (holdings l'.sim) := by
  cases work with
  | skip | accept | drop => exact agreed
  | giveUp =>
    rename_i r waiting taken
    exact agreed.alike (alike_outline (outline_abandon l.store r.index r.version))
  | build taken found stage current shape placeholder =>
    rename_i job jobs slot
    have alike : Alike l.store (l.store.put job.index { slot with stage := .generating }) := by
      refine alike_put found ?_ ?_ ?_ ?_ <;> rfl
    exact (agreed.alike alike).queued fun _ _ => rfl
  | refuse taken spent =>
    rw [taken] at agreed
    exact agreed.taken fun _ _ => rfl
  | install taken found stage current => exact owned.agreed_install taken found (congrArg Claim.key current) agreed
  | remove taken =>
    rename_i key handle commands
    rw [taken] at agreed
    have held : handle ∈ handles l.sim := by
      refine owned.held.mem_iff.mpr (List.mem_append_right _ ?_)
      rw [taken]
      exact List.mem_cons_self
    exact (agreed.taken fun _ _ => rfl).fewer fun entry member =>
      ((mem_holdings_remove owned.proper held).mp member).1
  | toggle taken found shape =>
    rename_i i enabled commands slot handle
    rw [taken] at agreed
    refine agreed.toggled owned.sound found shape ?_
    intro entry member
    obtain ⟨old, there, rfl⟩ := mem_handles.mp (owned.has found shape)
    obtain ⟨before, held, rfl⟩ := List.mem_map.mp ((switched l.sim enabled owned.proper old there).mem_iff.mp member)
    exact ⟨before, held, rfl⟩
  | ignore taken bare =>
    rw [taken] at agreed
    exact agreed.ignored bare

/-- Installs, removals and toggles keep planner, store and simulation in tune. -/
theorem Tuned.work (tuned : l.Tuned) (work : Work l l') : l'.Tuned := by
  have level := work.level tuned.owned.sound
  refine ⟨(tuned.owned.work lasting_proper tuned.owned.proper work).1, ?_, ⟨?_, ?_, ?_⟩, ?_⟩
  · intro key
    rw [level.refs, tuned.refs, level.planner]
  · intro key
    rw [level.planner, tuned.lit.flags, level.lit]
  · rw [level.planner]
    exact tuned.lit.fits
  · exact work.agreed tuned.owned tuned.lit.agreed
  · intro key
    rw [level.planner]
    exact tuned.wanted key

theorem Tuned.works (tuned : l.Tuned) (works : Works l l') : l'.Tuned := by
  induction works with
  | refl => exact tuned
  | tail _ work ih => exact ih.work work

omit [Simulation σ] [Accountable σ] in
private theorem shown_handles (slots : List Slot) :
    (slots.filterMap Slot.shown).map (·.handle) = slots.filterMap (·.shape) := by
  rw [List.map_filterMap]
  refine List.filterMap_congr fun slot _ => ?_
  cases owns : slot.shape <;> simp [Slot.shown, owns]

private theorem shown_enabled (slots : List Slot) :
    ((slots.filterMap Slot.shown).filter (·.enabled)).map (·.cell) =
      (slots.filter fun slot => slot.active && slot.shape.isSome).map (·.key) := by
  induction slots with
  | nil => rfl
  | cons slot slots ih =>
    cases owns : slot.shape with
    | none =>
      rw [List.filterMap_cons_none (by rw [Slot.shown, owns]; rfl), ih, List.filter_cons_of_neg (by simp [owns])]
    | some shape =>
      have first : slot.shown = some ⟨shape, slot.key, slot.active⟩ := by rw [Slot.shown, owns]; rfl
      rw [List.filterMap_cons_some first]
      cases active : slot.active with
      | false => rw [List.filter_cons_of_neg (by simp), ih, List.filter_cons_of_neg (by simp [active])]
      | true =>
        rw [List.filter_cons_of_pos (by simp), List.filter_cons_of_pos (by simp [active, owns]), List.map_cons, ih,
          List.map_cons]

/-- Once no command waits, the simulation holds for each cell the cell's shape, with the cell's flag. -/
theorem Tuned.shown (tuned : l.Tuned) (quiet : l.commands = []) :
    (holdings l.sim).Perm (l.store.tenants.filterMap Slot.shown) := by
  have owned := tuned.owned
  have shapes : l.shapes = l.store.shapes := by
    rw [Ledger.shapes, quiet]
    exact List.append_nil _
  have flag {i : Nat} {slot : Slot} (living : l.store.live? i = some slot) {entry : Holding}
      (member : entry ∈ holdings l.sim) (owns : slot.shape = some entry.handle) : slot.shown = some entry := by
    obtain ⟨cell, same⟩ := tuned.lit.agreed.entries i slot living entry member owns
    rw [quiet] at same
    have same : entry.enabled = slot.active := same
    rw [Slot.shown, owns, Option.map_some, ← cell, ← same]
  have once : ((l.store.tenants.filterMap Slot.shown).map (·.handle)).Nodup := by
    have once := owned.once
    rw [shapes] at once
    rw [shown_handles]
    exact once
  refine (List.perm_ext_iff_of_nodup (.of_map _ owned.distinct) (.of_map _ once)).mpr ?_
  intro entry
  rw [List.mem_filterMap]
  constructor
  · intro member
    have owns := owned.held.mem_iff.mp (mem_handles.mpr ⟨entry, member, rfl⟩)
    rw [shapes] at owns
    obtain ⟨slot, tenant, owns⟩ := List.mem_filterMap.mp owns
    obtain ⟨i, living⟩ := mem_tenants.mp tenant
    exact ⟨slot, tenant, flag living member owns⟩
  · rintro ⟨slot, tenant, shown⟩
    obtain ⟨i, living⟩ := mem_tenants.mp tenant
    obtain ⟨shape, owns, rfl⟩ := Option.map_eq_some_iff.mp shown
    obtain ⟨entry, member, same⟩ := mem_handles.mp (owned.has living owns)
    subst same
    have again := flag living member owns
    rw [shown, Option.some.injEq] at again
    rwa [again]

end Ledger

namespace Pipeline

open Ledger

section Runs

variable [Simulation σ] [Accountable σ]

theorem new_tuned (grid : Grid) (initial most : Nat) (pacing : Pacing) (margins : Margins) (builder : Builder)
    (world : ω) {sim : σ} (valid : proper sim) (bare : holdings sim = []) :
    ((new grid (Store.ofLimits initial most) pacing margins builder world sim).ledger
      (Planner.new grid pacing margins) [] []).Tuned := by
  have vacant := live?_ofLimits initial most
  refine ⟨new_owned grid initial most pacing margins builder world valid bare,
    (new_even grid initial most pacing margins builder world sim).refs, ⟨?_, ?_, ?_, ?_⟩, ?_⟩
  · intro key
    have absent : (Store.ofLimits initial most).index[key]? = none := by simp [Store.ofLimits]
    refine Eq.trans ?_ (isLit_absent absent).symm
    exact Std.ExtTreeSet.contains_empty
  · intro body tracker found
    simp [ledger, Planner.new] at found
  · intro key i enabled waits
    cases waits
  · intro i slot found
    have found : (Store.ofLimits initial most).live? i = some slot := found
    rw [vacant] at found
    cases found
  · intro key
    rw [Bool.eq_iff_iff, Planner.wanted_iff]
    simp [ledger, Planner.new]

variable {p : Pipeline σ ω} {planner : Planner}

theorem pass_tuned (tuned : (p.ledger planner [] []).Tuned) (intact : p.Intact) {d : Desk}
    (passed : (p.desk planner).pass p.events.letters.toList p.poses.sample = .ok d) :
    ((p.afterPass d).ledger d.planner [] []).Tuned := by
  have acts := desk_acts p planner
  rw [passed] at acts
  have owned : ((p.afterPass d).ledger d.planner [] []).Owned :=
    acts_keep (J := Ledger.Owned) (fun _ _ act ready owned => owned.act act ready) acts intact.commands tuned.owned
  have start : (p.desk planner).Tuned (holdings p.sim) := ⟨⟨tuned.owned.sound, tuned.refs⟩, tuned.lit, tuned.wanted⟩
  have after := Desk.pass_tuned start intact.commands passed
  exact ⟨owned, after.balanced.even, after.lit, after.wanted⟩

/-- A run without failures stays in tune. -/
theorem run_tuned [Supplier ω] (grid : Grid) (initial most : Nat) (pacing : Pacing) (margins : Margins)
    (builder : Builder) (world : ω) {sim : σ} (valid : proper sim) (bare : holdings sim = []) {moves : List (Move ω)}
    (unfailing : (new grid (Store.ofLimits initial most) pacing margins builder world sim).Unfailing moves) :
    let p := (new grid (Store.ofLimits initial most) pacing margins builder world sim).run moves
    ∃ planner, p.planner = some planner ∧ (p.ledger planner [] []).Tuned := by
  obtain ⟨planner, present, _, tuned⟩ := run_remembers (J := fun _ l => l.Tuned)
    (fun _ p planner d intact present passed tuned => pass_tuned tuned intact passed)
    (fun _ l l' work tuned => tuned.work work) (new_intact _ _ _ _ _ _ _) rfl []
    (new_tuned grid initial most pacing margins builder world valid bare) unfailing
  exact ⟨planner, present, tuned⟩

end Runs

/-- In every state that a run without failures comes to, the planner's active cells are those that some tracker
wants active, and the flag of each cell in the store tells whether it is active. Once no command waits, a
shape is enabled if its cell is switched on, so that the scene has enabled the active cells that own a shape. -/
theorem activation_agrees [Supplier ω] (grid : Grid) (initial most : Nat) (pacing : Pacing) (margins : Margins)
    (builder : Builder) (world : ω) (scene : Scene) (numbered : scene.Numbered) (bare : scene.entries = [])
    (moves : List (Move ω))
    (unfailing : (new grid (Store.ofLimits initial most) pacing margins builder world scene).Unfailing moves) :
    let p := (new grid (Store.ofLimits initial most) pacing margins builder world scene).run moves
    ∃ planner, p.planner = some planner ∧
      (∀ key, planner.active.contains key = true ↔ ∃ (body : BodyId) (tracker : Tracker),
        planner.trackers[body]? = some tracker ∧ tracker.cells.active.contains key = true) ∧
      (∀ (i : Nat) slot, p.store.live? i = some slot → slot.active = planner.active.contains slot.key) ∧
      (p.commands.letters = #[] →
        (∀ entry ∈ p.sim.entries, ∃ (i : Nat) (slot : Slot), p.store.live? i = some slot ∧
          slot.shape = some entry.handle ∧ slot.key = entry.cell ∧ entry.enabled = slot.active) ∧
        p.sim.enabledCells.Perm ((p.store.tenants.filter fun slot =>
          planner.active.contains slot.key && slot.shape.isSome).map (·.key))) := by
  intro p
  obtain ⟨planner, present, tuned⟩ := run_tuned grid initial most pacing margins builder world
    (show proper scene from numbered) bare unfailing
  have flags (i : Nat) (slot : Slot) (living : p.store.live? i = some slot) :
      slot.active = planner.active.contains slot.key := by
    have flag : planner.active.contains slot.key = p.store.isLit slot.key := tuned.lit.flags slot.key
    have sound : p.store.Sound := tuned.owned.sound
    rw [flag, isLit_live sound living]
  refine ⟨planner, present, ?_, flags, ?_⟩
  · intro key
    have wanted : planner.active.contains key = planner.wanted.contains key := tuned.wanted key
    rw [wanted, Planner.wanted_iff]
  · intro quiet
    have shown : p.sim.entries.Perm (p.store.tenants.filterMap Slot.shown) := by
      refine tuned.shown ?_
      change p.commands.letters.toList = []
      rw [quiet]
    refine ⟨?_, ?_⟩
    · intro entry member
      obtain ⟨slot, tenant, same⟩ := List.mem_filterMap.mp (shown.mem_iff.mp member)
      obtain ⟨i, living⟩ := mem_tenants.mp tenant
      obtain ⟨shape, owns, rfl⟩ := Option.map_eq_some_iff.mp same
      exact ⟨i, slot, living, owns, rfl, rfl⟩
    · have enabled := (shown.filter (·.enabled)).map (·.cell)
      rw [shown_enabled] at enabled
      have same : (p.store.tenants.filter fun slot => slot.active && slot.shape.isSome) =
          p.store.tenants.filter fun slot => planner.active.contains slot.key && slot.shape.isSome := by
        refine List.filter_congr fun slot tenant => ?_
        obtain ⟨i, living⟩ := mem_tenants.mp tenant
        rw [flags i slot living]
      rw [same] at enabled
      exact p.sim.enabledCells_perm.trans enabled

/-- A body rests in one built cell, and none is near another that is held: both own shapes, and only the first is
enabled. -/
theorem activation_agrees_built :
    let start := new (Grid.ofSize 2) (Store.ofLimits 1 1) Pacing.standard ⟨0, 0, 0, 16, 4096⟩
      (merge (limitOf usualLimit)) (Ground.ofTerrain (.floor ⟨Grid.ofSize 2, 1, ∅⟩)) Scene.empty
    let far := Coord.key ⟨5, 0, 0⟩
    let board := PoseBoard.publish ∅ 1 ⟨⟨⟨1, 1, 1⟩, ⟨1, 1, 1⟩⟩, ⟨0, 0, 0⟩⟩
    let moves := [.send (.requested far), .pass, .supply 1, .drain 1, .send (.bodyAdded 1), .poses board, .pass,
      .supply 1, .drain 2]
    let p := start.run moves
    Scene.Numbered Scene.empty ∧ Scene.entries Scene.empty = [] ∧ start.Unfailing moves ∧ p.commands.letters = #[] ∧
      p.sim.entries = [⟨⟨1⟩, far, false⟩, ⟨⟨2⟩, ⟨0⟩, true⟩] ∧
      ∃ planner, p.planner = some planner ∧ planner.active.contains ⟨0⟩ = true ∧ planner.active.contains far = false ∧
        (∀ entry ∈ p.sim.entries, ∃ (i : Nat) (slot : Slot), p.store.live? i = some slot ∧
          slot.shape = some entry.handle ∧ slot.key = entry.cell ∧ entry.enabled = slot.active) ∧
        p.sim.enabledCells.Perm ((p.store.tenants.filter fun slot =>
          planner.active.contains slot.key && slot.shape.isSome).map (·.key)) := by
  intro start far board moves p
  have unfailing : start.Unfailing moves := by decide +kernel
  have quiet : p.commands.letters = #[] := Array.eq_empty_of_size_eq_zero (by decide +kernel)
  have entries : p.sim.entries = [⟨⟨1⟩, far, false⟩, ⟨⟨2⟩, ⟨0⟩, true⟩] := by decide +kernel
  have near : ∀ planner ∈ p.planner, planner.active.contains ⟨0⟩ = true ∧ planner.active.contains far = false := by
    decide +kernel
  have agreed := activation_agrees (Grid.ofSize 2) 1 1 Pacing.standard ⟨0, 0, 0, 16, 4096⟩
    (merge (limitOf usualLimit)) (Ground.ofTerrain (.floor ⟨Grid.ofSize 2, 1, ∅⟩)) Scene.empty Scene.numbered_empty rfl
    moves unfailing
  -- Left as they are, the names would make the unifier run the pipeline.
  subst p start
  obtain ⟨planner, present, _, _, agree⟩ := agreed
  obtain ⟨active, idle⟩ := near planner present
  exact ⟨Scene.numbered_empty, rfl, unfailing, quiet, entries, planner, present, active, idle, agree quiet⟩

end Pipeline

end TerrainStream
