import TerrainStream.Physics.Scene
import TerrainStream.Proofs.Pipeline.Ledger
import TerrainStream.Proofs.Store.Builds

/-! Installs while others work on the store. Between the check of a claim and its commit anything may become of the
slot; a build goes in whole or comes out whole, and no shape is left without an owner. -/

namespace TerrainStream

open Cell Store Shape Collision Ledger

namespace Store

/-- The shape that an operation puts in, if it is granted. -/
def Operation.brings : Operation → Option Handle
  | .finish _ _ _ shape _ => shape
  | _ => none

/-- Whether every shape that operations put in is without an owner when they do, and is not a given one. -/
def Ownerless (s : Store) (given : Option Handle) : List Operation → Prop
  | [] => True
  | operation :: rest =>
    (∀ handle ∈ operation.brings, handle ∉ s.shapes ∧ handle ∉ given) ∧ (s.perform operation).Ownerless given rest

instance decideOwnerless (s : Store) (given : Option Handle) :
    (work : List Operation) → Decidable (s.Ownerless given work)
  | [] => .isTrue trivial
  | operation :: rest =>
    have := decideOwnerless (s.perform operation) given rest
    inferInstanceAs (Decidable ((∀ handle ∈ operation.brings, handle ∉ s.shapes ∧ handle ∉ given) ∧
      (s.perform operation).Ownerless given rest))

variable {s : Store} {given : Option Handle} {work : List Operation} {handle : Handle}

theorem mem_shapes : handle ∈ s.shapes ↔ ∃ i slot, s.live? i = some slot ∧ slot.shape = some handle := by
  simp only [shapes, List.mem_filterMap, mem_tenants]
  constructor
  · rintro ⟨slot, ⟨i, found⟩, owns⟩
    exact ⟨i, slot, found, owns⟩
  · rintro ⟨i, slot, found, owns⟩
    exact ⟨slot, ⟨i, found⟩, owns⟩

/-- An operation without news about any slot moves no shape. -/
private theorem quiet_shapes (sound : s.Sound) {operation : Operation} (letsIn : ∀ key, operation ≠ .add key)
    (turnsOut : ∀ key, operation ≠ .remove key) (quiet : ∀ i, s.news? i operation = none) :
    (s.perform operation).shapes.Perm s.shapes := by
  have rewrite := s.perform_rewrite letsIn turnsOut
  have changes (i : Nat) := perform_change sound i operation
  generalize s.perform operation = s' at rewrite changes ⊢
  cases rewrite with
  | same => exact .refl _
  | put found kept owner =>
    rename_i i slot fresh
    have change := changes i
    rw [found, quiet, live?_put found kept, if_pos rfl] at change
    obtain ⟨_, same, _, shape, _⟩ := change.quiet
    cases same
    exact shapes_kept found kept shape

/-- After an operation tenants own what they owned before, or what it has put in. -/
theorem perform_shapes (sound : s.Sound) (operation : Operation) :
    (s.perform operation).shapes.Subperm (operation.brings.toList ++ s.shapes) := by
  have kept {shapes : List Handle} (same : shapes.Perm s.shapes) :
      shapes.Subperm (operation.brings.toList ++ s.shapes) :=
    same.subperm.trans (List.sublist_append_right _ _).subperm
  cases operation with
  | add key =>
    rw [perform]
    rcases add_cases sound key with ⟨i, _, step⟩ | ⟨s', i, step, admitted, _⟩ | ⟨fault, step⟩
    · rw [step]
      exact kept (.refl _)
    · rw [step]
      exact kept admitted.shapes
    · rw [step]
      exact kept (.refl _)
  | remove key =>
    rw [perform]
    rcases remove_cases sound key with ⟨s', i, slot, step, _, departed, _⟩ | ⟨_, step⟩
    · rw [step]
      exact ((List.sublist_append_right _ _).subperm.trans departed.shapes.symm.subperm)
    · rw [step]
      exact kept (.refl _)
  | finish i key version shape placeholder =>
    rw [perform]
    rcases finish_cases s i key version shape placeholder with ⟨slot, found, _, _, _, step⟩ | ⟨reason, step⟩
    · rw [step]
      obtain ⟨others, before, after⟩ : ∃ others, s.shapes.Perm (slot.shape.toList ++ others) ∧
          (s.put i { slot with shape, placeholder, stage := .ready }).shapes.Perm (shape.toList ++ others) :=
        shapes_rewrite found rfl
      refine after.subperm.trans (List.Subperm.trans ?_ (before.symm.append_left _).subperm)
      exact ((List.sublist_append_right _ _).append_left _).subperm
    · rw [step]
      exact kept (.refl _)
  | _ => exact kept (quiet_shapes sound (by simp) (by simp) fun _ => rfl)

/-- Operations that put in shapes without owners leave a given shape without one, and no shape with two. -/
theorem Ownerless.after (sound : s.Sound) (ownerless : s.Ownerless given work) :
    (∀ handle ∈ given, handle ∉ s.shapes → handle ∉ (s.after work).shapes) ∧
      (s.shapes.Nodup → (s.after work).shapes.Nodup) := by
  induction work generalizing s with
  | nil => exact ⟨fun _ _ => id, id⟩
  | cons operation rest ih =>
    obtain ⟨brought, later⟩ := ownerless
    obtain ⟨spared, once⟩ := ih ((perform_outcome sound operation).sound sound) later
    have shapes := perform_shapes sound operation
    refine ⟨fun handle listed free => spared handle listed fun owned => ?_, fun distinct => once ?_⟩
    · rcases List.mem_append.mp (shapes.subset owned) with put | kept
      · exact (brought handle (Option.mem_toList.mp put)).2 listed
      · exact free kept
    · obtain ⟨listed, same, within⟩ := shapes
      refine same.nodup_iff.mp (.sublist within (List.nodup_append.mpr ⟨by cases operation.brings <;> simp, distinct, ?_⟩))
      rintro handle put other owned rfl
      exact (brought handle (Option.mem_toList.mp put)).1 owned

end Store

namespace Collision

variable {σ : Type} [Simulation σ]

/-- The build is in, where its claim still stood, and the shape that it replaces is taken out, once. -/
structure Entered (d : Delivery) (shape : Option Handle) (sim : σ) (left : Store) (site : Site σ) (tally : Tally) :
    Prop where
  counted : tally.installed = 1 ∧ tally.stale = 0
  slot : ∃ slot, left.live? d.index = some slot ∧ slot.key = d.key ∧ slot.version = d.version ∧
    slot.stage = .generating ∧
    site.store.live? d.index = some { slot with shape, placeholder := d.placeholder, stage := .ready }
  others : ∀ j, d.index ≠ j → site.store.live? j = left.live? j
  index : site.store.index = left.index
  removed : site.sim = (left.shape d.index).elim sim (Simulation.removeShape sim)

/-- The build is out, since its claim no longer stood, and its shape is taken out again. -/
structure Refused (d : Delivery) (shape : Option Handle) (sim : σ) (left : Store) (site : Site σ) (tally : Tally) :
    Prop where
  counted : tally = { Tally.zero with stale := 1 }
  rejected : ∃ reason, left.checkInstall d.index d.key d.version = .error reason
  store : site.store = left
  removed : site.sim = shape.elim sim (Simulation.removeShape sim)

theorem Site.commit_cases (site : Site σ) (d : Delivery) (shape : Option Handle) :
    Entered d shape site.sim site.store (site.commit d shape).1 (site.commit d shape).2 ∨
      Refused d shape site.sim site.store (site.commit d shape).1 (site.commit d shape).2 := by
  unfold commit
  rcases finish_cases site.store d.index d.key d.version shape d.placeholder with
    ⟨slot, found, owner, current, stage, step⟩ | ⟨reason, step⟩
  · rw [step]
    have sees (j : Nat) : (site.store.put d.index { slot with shape, placeholder := d.placeholder, stage := .ready }).live? j =
        if d.index = j then some { slot with shape, placeholder := d.placeholder, stage := .ready }
        else site.store.live? j := live?_put found rfl
    have owned : site.store.shape d.index = slot.shape := by rw [Store.shape, found, Option.bind_some]
    refine .inl ⟨⟨rfl, rfl⟩, ⟨slot, found, owner, current, stage, ?_⟩, fun j other => ?_, rfl, by rw [owned]⟩
    · exact (sees d.index).trans (if_pos rfl)
    · exact (sees j).trans (if_neg other)
  · rw [step]
    refine .inr ⟨rfl, ?_, rfl, rfl⟩
    rcases checkInstall_cases site.store d.index d.key d.version with
      ⟨slot, found, owner, current, stage, _⟩ | rejected
    · rw [← owner, ← current, finish_current found stage] at step
      cases congrArg Prod.snd step
    · exact rejected

/-- A simulation with the handles of the shapes that it was given and has not been told to take out. -/
structure Stocked (σ : Type) where
  sim : σ
  stock : List Handle

instance : Simulation (Stocked σ) where
  addShape s key shape enabled :=
    ((Simulation.addShape s.sim key shape enabled).1,
      ⟨(Simulation.addShape s.sim key shape enabled).2, (Simulation.addShape s.sim key shape enabled).1 :: s.stock⟩)
  removeShape s handle := ⟨Simulation.removeShape s.sim handle, s.stock.filter (· ≠ handle)⟩
  setEnabled s handle enabled := ⟨Simulation.setEnabled s.sim handle enabled, s.stock⟩

variable {sim : Stocked σ} {d : Delivery} {handle : Handle}

private theorem mem_discarded {previous : Option Handle} :
    handle ∈ (previous.elim sim (Simulation.removeShape sim)).stock ↔ handle ∈ sim.stock ∧ handle ∉ previous := by
  cases previous with
  | none => simp
  | some previous =>
    change handle ∈ sim.stock.filter (· ≠ previous) ↔ _
    rw [List.mem_filter, decide_eq_true_eq, Option.mem_some_iff, eq_comm (a := previous)]

private theorem mem_placed {enabled : Bool} :
    handle ∈ (place sim d enabled).2.stock ↔ handle ∈ (place sim d enabled).1 ∨ handle ∈ sim.stock := by
  unfold place
  split
  · simp
  · exact List.mem_cons.trans (or_congr_left (Option.mem_some_iff.trans eq_comm).symm)

/-- What an install from a site comes to, with the store as others have left it by its commit. The build goes in or
comes out; a shape without an owner was there before and had lost its owner by then; and the shapes of all tenants are
there, unless they were missing before. -/
structure Whole (site : Site (Stocked σ)) (left : Store) (d : Delivery) (result : Site (Stocked σ) × Tally) : Prop where
  ends : let placed := place site.sim d (site.store.isActive d.index)
    Entered d placed.1 placed.2 left result.1 result.2 ∨ Refused d placed.1 placed.2 left result.1 result.2
  owned : ∀ handle ∈ result.1.sim.stock,
    handle ∈ result.1.store.shapes ∨ handle ∈ site.sim.stock ∧ handle ∉ left.shapes
  held : site.store.shapes.Nodup → ∀ handle ∈ result.1.store.shapes,
    handle ∈ result.1.sim.stock ∨ handle ∈ left.shapes ∧ handle ∉ site.sim.stock

section Ends

variable {shape : Option Handle} {sim' : Stocked σ} {left : Store} {site : Site (Stocked σ)} {tally : Tally}

private theorem Entered.owned (entered : Entered d shape sim' left site tally)
    (placed : ∀ handle, handle ∈ sim'.stock ↔ handle ∈ shape ∨ handle ∈ sim.stock)
    (listed : handle ∈ site.sim.stock) : handle ∈ site.store.shapes ∨ handle ∈ sim.stock ∧ handle ∉ left.shapes := by
  rw [entered.removed, mem_discarded, placed] at listed
  obtain ⟨listed, kept⟩ := listed
  obtain ⟨slot, found, _, _, _, filled⟩ := entered.slot
  rcases listed with given | before
  · exact .inl (mem_shapes.mpr ⟨d.index, _, filled, given⟩)
  · refine or_iff_not_imp_right.mpr fun lost => ?_
    obtain ⟨j, owner, there, owns⟩ := mem_shapes.mp (not_not.mp fun free => lost ⟨before, free⟩)
    by_cases here : d.index = j
    · subst here
      refine absurd ?_ kept
      rw [Store.shape, there]
      exact owns
    · exact mem_shapes.mpr ⟨j, owner, (entered.others j here).trans there, owns⟩

private theorem Entered.held (entered : Entered d shape sim' left site tally)
    (placed : ∀ handle, handle ∈ sim'.stock ↔ handle ∈ shape ∨ handle ∈ sim.stock)
    (unowned : ∀ handle ∈ shape, handle ∉ left.shapes) (once : left.shapes.Nodup)
    (owned : handle ∈ site.store.shapes) : handle ∈ site.sim.stock ∨ handle ∈ left.shapes ∧ handle ∉ sim.stock := by
  obtain ⟨slot, found, _, _, _, filled⟩ := entered.slot
  have replaced (previous : handle ∈ left.shape d.index) : slot.shape = some handle := by
    rw [Store.shape, found] at previous
    exact previous
  obtain ⟨j, owner, there, owns⟩ := mem_shapes.mp owned
  rw [entered.removed, mem_discarded, placed]
  by_cases here : d.index = j
  · subst here
    obtain rfl : _ = owner := Option.some.inj (filled.symm.trans there)
    refine .inl ⟨.inl owns, fun previous => unowned handle owns ?_⟩
    exact mem_shapes.mpr ⟨d.index, slot, found, replaced previous⟩
  · rw [entered.others j here] at there
    by_cases before : handle ∈ sim.stock
    · exact .inl ⟨.inr before, fun previous => here (shapes_apart once found there (replaced previous) owns)⟩
    · exact .inr ⟨mem_shapes.mpr ⟨j, owner, there, owns⟩, before⟩

private theorem Refused.stock (refused : Refused d shape sim' left site tally)
    (placed : ∀ handle, handle ∈ sim'.stock ↔ handle ∈ shape ∨ handle ∈ sim.stock)
    (unheld : ∀ handle ∈ shape, handle ∉ sim.stock) : handle ∈ site.sim.stock ↔ handle ∈ sim.stock := by
  rw [refused.removed, mem_discarded, placed]
  constructor
  · rintro ⟨given | before, kept⟩
    · exact absurd given kept
    · exact before
  · exact fun before => ⟨.inr before, fun given => unheld handle given before⟩

end Ends

/-- A commit is whole, whatever store it meets, as long as the shape that was added is a new one. -/
theorem Whole.commit {site : Site (Stocked σ)} {left : Store} (rest : List Interlude)
    (unheld : ∀ handle ∈ (place site.sim d (site.store.isActive d.index)).1, handle ∉ site.sim.stock)
    (unowned : ∀ handle ∈ (place site.sim d (site.store.isActive d.index)).1, handle ∉ left.shapes)
    (once : site.store.shapes.Nodup → left.shapes.Nodup) :
    Whole site left d ((⟨(place site.sim d (site.store.isActive d.index)).2, left, rest⟩ : Site (Stocked σ)).commit d
      (place site.sim d (site.store.isActive d.index)).1) := by
  have placed (handle : Handle) : handle ∈ (place site.sim d (site.store.isActive d.index)).2.stock ↔
      handle ∈ (place site.sim d (site.store.isActive d.index)).1 ∨ handle ∈ site.sim.stock := mem_placed
  have ends := Site.commit_cases (⟨(place site.sim d (site.store.isActive d.index)).2, left, rest⟩ : Site (Stocked σ)) d
    (place site.sim d (site.store.isActive d.index)).1
  refine ⟨ends, fun handle listed => ?_, fun distinct handle owned => ?_⟩
  · rcases ends with entered | refused
    · exact entered.owned placed listed
    · rw [refused.store]
      exact or_iff_not_imp_left.mpr fun free => ⟨(refused.stock placed unheld).mp listed, free⟩
  · rcases ends with entered | refused
    · exact entered.held placed unowned (once distinct) owned
    · rw [refused.store] at owned
      rw [refused.stock placed unheld]
      exact or_iff_not_imp_left.mpr fun missing => ⟨owned, missing⟩

/-- An install of a build, in any store that operations have led to, while others work on the store between its check
and its commit. The shape that the simulation gives is a new one, and the others put in only shapes without an owner.
If the check turns the build away, nothing changes. Otherwise the build goes in whole, and the shape that it replaces
is taken out, or the store stays as the others have left it, and the shape is taken out again; either way the install
leaves no shape in the simulation without an owner and no tenant without its shape. A build of air alone, which adds no
shape, fares the same at its commit. -/
theorem installs_are_all_or_nothing (initial most : Nat) (history work : List Operation) (sim : Stocked σ)
    (d : Delivery) (rest : List Interlude) :
    let store := (Store.ofLimits initial most).after history
    let left := store.after work
    let site : Site (Stocked σ) := ⟨sim, store, (·.after work) :: rest⟩
    let placed := place sim d (store.isActive d.index)
    (∀ handle ∈ placed.1, handle ∉ sim.stock ∧ handle ∉ store.shapes) → store.Ownerless placed.1 work →
    (∀ reason, store.checkInstall d.index d.key d.version = .error reason →
      site.install d = (site, { Tally.zero with stale := 1 })) ∧
    (store.checkInstall d.index d.key d.version = .ok () →
      Whole site (if d.shape.isEmpty then store else left) d (site.install d) ∧
      Whole site left d ((⟨placed.2, left, rest⟩ : Site (Stocked σ)).commit d placed.1)) := by
  intro store left site placed fresh ownerless
  have sound : store.Sound :=
    (after_keeps (fun _ => True) (sound_ofLimits initial most) trivial (fun _ _ _ _ _ => trivial) history).1
  obtain ⟨spared, once⟩ := ownerless.after sound
  have met : Whole site left d ((⟨placed.2, left, rest⟩ : Site (Stocked σ)).commit d placed.1) :=
    .commit rest (fun handle given => (fresh handle given).1) (fun handle given => spared handle given (fresh handle given).2)
      once
  refine ⟨fun reason turned => ?_, fun passed => ⟨?_, met⟩⟩
  · rw [Site.install, turned]
  · rw [Site.install, passed]
    by_cases bare : d.shape.isEmpty = true
    · have added : place sim d (store.isActive d.index) = (none, sim) := if_pos bare
      have alone : Whole site store d ((⟨placed.2, store, (·.after work) :: rest⟩ : Site (Stocked σ)).commit d placed.1) :=
        .commit _ (fun handle given => (fresh handle given).1) (fun handle given => (fresh handle given).2) id
      simp only [placed, added] at alone
      simpa only [bare, if_true] using alone
    · simp only [placed, place, bare, Bool.false_eq_true, if_false] at met ⊢
      exact met

/-- While the shape is added, the claim is given up, a build of a later one goes in, and the cell leaves its slot to
another that is being built. The shape comes out again, and the one that was there before awaits its removal. -/
theorem installs_are_all_or_nothing_overtaken :
    let history := [.add ⟨1⟩, .schedule 0, .begin 0 1, .finish 0 ⟨1⟩ 1 (some ⟨1⟩) false, .schedule 0, .begin 0 2]
    let work := [.abandon 0 2, .schedule 0, .begin 0 3, .finish 0 ⟨1⟩ 3 (some ⟨9⟩) true, .remove ⟨1⟩, .add ⟨2⟩,
      .schedule 0, .begin 0 5]
    let store := (Store.ofLimits 1 1).after history
    let left := store.after work
    let slab : Shape := ⟨⟨0, 0, 0⟩, 2, #[⟨⟨0, 0, 0⟩, ⟨2, 1, 2⟩⟩]⟩
    let sim : Stocked Physics.Scene := ⟨(Simulation.addShape Physics.Scene.empty ⟨1⟩ slab false).2, [⟨1⟩]⟩
    let d : Delivery := ⟨⟨1⟩, 0, 2, slab, false, false⟩
    let site : Site (Stocked Physics.Scene) := ⟨sim, store, [(·.after work)]⟩
    let placed := place sim d (store.isActive d.index)
    (∀ handle ∈ placed.1, handle ∉ sim.stock ∧ handle ∉ store.shapes) ∧ store.Ownerless placed.1 work ∧
    store.checkInstall d.index d.key d.version = .ok () ∧ Whole site left d (site.install d) ∧
    (site.install d).2.stale = 1 ∧ placed.1 = some ⟨2⟩ ∧ (site.install d).1.sim.stock = [⟨1⟩] := by
  intro history work store left slab sim d site placed
  have fresh : ∀ handle ∈ placed.1, handle ∉ sim.stock ∧ handle ∉ store.shapes := by decide +kernel
  have ownerless : store.Ownerless placed.1 work := by decide +kernel
  have passed : store.checkInstall d.index d.key d.version = .ok () := by decide +kernel
  have whole := ((installs_are_all_or_nothing 1 1 history work sim d [] fresh ownerless).2 passed).1
  exact ⟨fresh, ownerless, passed, whole, by decide +kernel, by decide +kernel, by decide +kernel⟩

end Collision

end TerrainStream
