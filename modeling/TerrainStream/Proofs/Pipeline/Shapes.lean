import TerrainStream.Proofs.Collision.Accountable
import TerrainStream.Proofs.Physics.Scene
import TerrainStream.Proofs.Pipeline.Ledger
import TerrainStream.Proofs.Pipeline.Mirror

/-! Who owns a shape. Each shape that the simulation holds is owned by one cell or awaits its removal in
the queue, and nothing else is owned. -/

namespace TerrainStream

open Cell Store Shape Collision Build Residency Physics World

variable {σ ω : Type}

/-- The shape that a command is to remove, if it is to remove one. -/
def Collision.Command.shape? : Command → Option Handle
  | .remove _ shape => some shape
  | _ => none

namespace Residency.Desk

/-- The shapes that cells own, and after them those that await removal. -/
def shapes (d : Desk) : List Handle := d.store.shapes ++ d.commands.letters.toList.filterMap (·.shape?)

variable {d d' : Desk}

private theorem removals_post {box : Mailbox Command} (ready : box.isOpen = true) (c : Command) :
    (box.post c).letters.toList.filterMap (·.shape?) = box.letters.toList.filterMap (·.shape?) ++ c.shape?.toList := by
  rw [Mailbox.post_letters ready, List.filterMap_append]
  cases c <;> rfl

/-- No act of a planner adds a shape or loses one. -/
theorem Act.shapes (act : Act d d') (sound : d.store.Sound) (ready : d.commands.isOpen = true) :
    d'.store.Sound ∧ d'.shapes.Perm d.shapes := by
  cases act with
  | count act =>
    obtain ⟨kept, alike⟩ := act.alike sound
    rw [Desk.shapes, act.quiet.1]
    exact ⟨kept, alike.shapes.append_right _⟩
  | light => exact ⟨sound, .refl _⟩
  | switch enabled key =>
    rcases switch_cases sound enabled key with ⟨i, slot, report, found, _, step, _⟩ | ⟨_, step⟩
    · have same : (d.store.put i { slot with active := enabled }).shapes.Perm d.store.shapes :=
        shapes_kept found rfl rfl
      have queued : (d.commands.post (.toggle key i enabled)).letters.toList.filterMap (·.shape?) = _ :=
        (removals_post ready _).trans (List.append_nil _)
      rw [step, Desk.shapes, queued]
      exact ⟨sound.put found rfl rfl, same.append_right _⟩
    · rw [step]
      exact ⟨sound, .refl _⟩
  | evict found unreferenced retired =>
    rename_i key index store
    obtain ⟨s', slot, report, departed, kept, _, _, step, _⟩ := evict_cases sound found retired
    have owned := departed.shapes
    rw [step]
    refine ⟨kept, ?_⟩
    cases shape : slot.shape with
    | none =>
      rw [shape] at owned
      exact owned.symm.append_right _
    | some handle =>
      rw [shape] at owned
      have queued := removals_post ready (.remove key handle)
      simp only [Option.elim_some, Desk.shapes, queued]
      have last : (s'.shapes ++ (d.commands.letters.toList.filterMap (·.shape?) ++ [handle])).Perm
          ([handle] ++ s'.shapes ++ d.commands.letters.toList.filterMap (·.shape?)) := by
        rw [← List.append_assoc, List.append_assoc [handle]]
        exact List.perm_append_comm
      exact last.trans (owned.symm.append_right _)

end Residency.Desk

namespace Ledger

open Accountable

variable [Simulation σ] [Accountable σ]

/-- The shapes that cells own, and after them those that await removal. -/
def shapes (l : Ledger σ) : List Handle := l.store.shapes ++ l.commands.filterMap (·.shape?)

/-- What the simulation holds is owned, and owned once. -/
structure Owned (l : Ledger σ) : Prop where
  sound : l.store.Sound
  proper : proper l.sim
  held : (handles l.sim).Perm l.shapes
  once : l.shapes.Nodup

/-- A property of simulations that calls keep if they name shapes that are held. -/
structure Lasting (P : σ → Prop) : Prop where
  added : ∀ s key shape enabled, Accountable.proper s → P s → P (Simulation.addShape s key shape enabled).2
  removed : ∀ s handle, Accountable.proper s → handle ∈ handles s → P s → P (Simulation.removeShape s handle)
  switched : ∀ s handle enabled, Accountable.proper s → handle ∈ handles s → P s →
    P (Simulation.setEnabled s handle enabled)

variable {P : σ → Prop} {s : σ} {l l' : Ledger σ}

theorem lasting_proper : Lasting (σ := σ) Accountable.proper where
  added s key shape enabled valid _ := proper_added s key shape enabled valid
  removed s handle valid held _ := by
    obtain ⟨entry, member, rfl⟩ := mem_handles.mp held
    exact proper_removed s valid entry member
  switched s handle enabled valid held _ := by
    obtain ⟨entry, member, rfl⟩ := mem_handles.mp held
    exact proper_switched s enabled valid entry member

/-- A shape that the simulation was handed is held beside those that it held before. -/
theorem place_held (lasting : Lasting P) (valid : Accountable.proper s) (distinct : (handles s).Nodup) (keeps : P s)
    (d : Delivery) (enabled : Bool) :
    Accountable.proper (place s d enabled).2 ∧
    (handles (place s d enabled).2).Perm ((place s d enabled).1.toList ++ handles s) ∧
    (handles (place s d enabled).2).Nodup ∧ P (place s d enabled).2 := by
  unfold place
  split
  · exact ⟨valid, .refl _, distinct, keeps⟩
  · have listed := handles_add valid d.key d.shape enabled
    have fresh := fresh_handle valid d.key d.shape enabled
    exact ⟨proper_added s d.key d.shape enabled valid, listed, listed.nodup_iff.mpr (List.nodup_cons.mpr ⟨fresh, distinct⟩),
      lasting.added s d.key d.shape enabled valid keeps⟩

theorem place_fresh (valid : Accountable.proper s) {d : Delivery} {enabled : Bool} {handle : Handle}
    (placed : (place s d enabled).1 = some handle) : ¬ issued s handle := by
  unfold place at placed
  split at placed
  · cases placed
  · cases placed
    exact fresh s d.key d.shape enabled valid

/-- What is held once a shape was handed over: what was held before, and the new shape with the flag given. -/
theorem mem_place (valid : Accountable.proper s) (d : Delivery) (enabled : Bool) {entry : Holding} :
    entry ∈ holdings (place s d enabled).2 ↔
      entry ∈ holdings s ∨ ∃ handle, (place s d enabled).1 = some handle ∧ entry = ⟨handle, d.key, enabled⟩ := by
  unfold place
  split
  · simp
  · rw [(added s d.key d.shape enabled valid).mem_iff, List.mem_cons]
    simp [or_comm]

/-- A shape that was replaced, if there was one, is given up, and nothing else is. -/
theorem discard_held (lasting : Lasting P) (valid : Accountable.proper s) (distinct : (handles s).Nodup) (keeps : P s)
    (previous : Option Handle) {rest : List Handle} (listed : (handles s).Perm (previous.toList ++ rest)) :
    Accountable.proper (previous.elim s (Simulation.removeShape s)) ∧
    (handles (previous.elim s (Simulation.removeShape s))).Perm rest ∧
    P (previous.elim s (Simulation.removeShape s)) := by
  cases previous with
  | none => exact ⟨valid, listed, keeps⟩
  | some handle =>
    have held : handle ∈ handles s := listed.mem_iff.mpr List.mem_cons_self
    exact ⟨lasting_proper.removed s handle valid held valid, handles_remove valid distinct listed,
      lasting.removed s handle valid held keeps⟩

omit [Simulation σ] [Accountable σ] in
private theorem shapes_taken {c : Command} {commands : List Command} (taken : l.commands = c :: commands) :
    l.shapes = l.store.shapes ++ (c.shape?.toList ++ commands.filterMap (·.shape?)) := by
  rw [shapes, taken, List.filterMap_cons]
  cases c <;> rfl

/-- The simulation holds the shapes that cells own. -/
theorem Owned.has (owned : l.Owned) {i : Nat} {slot : Slot} (found : l.store.live? i = some slot) {shape : Handle}
    (owns : slot.shape = some shape) : shape ∈ handles l.sim := by
  refine owned.held.mem_iff.mpr (List.mem_append_left _ ?_)
  exact List.mem_filterMap.mpr ⟨slot, mem_tenants.mpr ⟨i, found⟩, owns⟩

theorem Owned.distinct (owned : l.Owned) : (handles l.sim).Nodup := owned.held.nodup_iff.mpr owned.once

/-- Once a new shape was handed over, what cells own is held as before. -/
theorem Owned.placed (owned : l.Owned) {i : Nat} {slot : Slot} (found : l.store.live? i = some slot) {shape : Handle}
    (owns : slot.shape = some shape) (d : Delivery) (enabled : Bool) :
    Accountable.proper (place l.sim d enabled).2 ∧ shape ∈ handles (place l.sim d enabled).2 := by
  obtain ⟨valid, listed, _, _⟩ := place_held lasting_proper owned.proper owned.distinct owned.proper d enabled
  exact ⟨valid, listed.mem_iff.mpr (List.mem_append_right _ (owned.has found owns))⟩

/-- An install trades the old shape of its cell for the new one. -/
private theorem Owned.install (owned : l.Owned) (lasting : Lasting P) (keeps : P l.sim) {d : Delivery}
    {commands : List Command} {slot : Slot} (taken : l.commands = .install d :: commands)
    (found : l.store.live? d.index = some slot) :
    Owned { l with
      commands
      store := l.store.put d.index
        { slot with shape := (place l.sim d slot.active).1, placeholder := d.placeholder, stage := .ready }
      sim := slot.shape.elim (place l.sim d slot.active).2 (Simulation.removeShape (place l.sim d slot.active).2) } ∧
    P (slot.shape.elim (place l.sim d slot.active).2 (Simulation.removeShape (place l.sim d slot.active).2)) := by
  obtain ⟨valid, listed, distinct, keeps⟩ := place_held lasting owned.proper owned.distinct keeps d slot.active
  generalize place l.sim d slot.active = placed at *
  obtain ⟨shape, sim⟩ := placed
  obtain ⟨others, before, after⟩ : ∃ others, l.store.shapes.Perm (slot.shape.toList ++ others) ∧
      (l.store.put d.index { slot with shape, placeholder := d.placeholder, stage := .ready }).shapes.Perm
        (shape.toList ++ others) := shapes_rewrite found rfl
  have trade : (handles sim).Perm (slot.shape.toList ++ (shape.toList ++ others ++ commands.filterMap (·.shape?))) := by
    have stock : (handles l.sim).Perm (slot.shape.toList ++ (others ++ commands.filterMap (·.shape?))) := by
      rw [← List.append_assoc]
      exact (owned.held.trans (.of_eq (shapes_taken taken))).trans (before.append_right _)
    refine (listed.trans (stock.append_left _)).trans ?_
    rw [List.append_assoc shape.toList]
    exact List.perm_append_comm_assoc _ _ _
  obtain ⟨valid, left, keeps⟩ := discard_held lasting valid distinct keeps slot.shape trade
  have owns : (l.store.put d.index { slot with shape, placeholder := d.placeholder, stage := .ready }).shapes ++
      commands.filterMap (·.shape?) |>.Perm (shape.toList ++ others ++ commands.filterMap (·.shape?)) :=
    after.append_right _
  have once := (List.nodup_append.mp (trade.nodup_iff.mp distinct)).2.1
  exact ⟨⟨owned.sound.put found rfl rfl, valid, left.trans owns.symm, owns.nodup_iff.mpr once⟩, keeps⟩

/-- Whatever is done, shapes stay owned, and every call names a shape that is held. -/
theorem Owned.work (owned : l.Owned) (lasting : Lasting P) (keeps : P l.sim) (work : Work l l') :
    l'.Owned ∧ P l'.sim := by
  have rewritten {store : Store} (sound : store.Sound) (same : store.shapes.Perm l.store.shapes)
      {commands : List Command} (queue : commands.filterMap (·.shape?) = l.commands.filterMap (·.shape?))
      (waiting : List Request) (jobs : List Job) : Owned ⟨l.planner, store, waiting, jobs, commands, l.sim⟩ := by
    have owns : (store.shapes ++ commands.filterMap (·.shape?)).Perm l.shapes := by
      rw [queue]
      exact same.append_right _
    exact ⟨sound, owned.proper, owned.held.trans owns.symm, owns.nodup_iff.mpr owned.once⟩
  cases work with
  | skip => exact ⟨rewritten owned.sound (.refl _) rfl _ _, keeps⟩
  | giveUp =>
    rename_i r waiting taken
    have same := outline_abandon l.store r.index r.version
    exact ⟨rewritten (owned.sound.of_outline same) (alike_outline same).shapes rfl _ _, keeps⟩
  | accept => exact ⟨rewritten owned.sound (.refl _) rfl _ _, keeps⟩
  | drop => exact ⟨rewritten owned.sound (.refl _) rfl _ _, keeps⟩
  | build taken found stage current shape placeholder =>
    rename_i job jobs slot
    have sound : (l.store.put job.index { slot with stage := .generating }).Sound := owned.sound.put found rfl rfl
    have same : (l.store.put job.index { slot with stage := .generating }).shapes.Perm l.store.shapes :=
      shapes_kept found rfl rfl
    refine ⟨rewritten sound same ?_ _ _, keeps⟩
    rw [List.filterMap_append]
    exact List.append_nil _
  | refuse taken spent => exact ⟨rewritten owned.sound (.refl _) (by rw [taken]; rfl) _ _, keeps⟩
  | install taken found stage current => exact owned.install lasting keeps taken found
  | remove taken =>
    rename_i key handle commands
    have listed : (handles l.sim).Perm (handle :: (l.store.shapes ++ commands.filterMap (·.shape?))) := by
      refine (owned.held.trans (.of_eq (shapes_taken taken))).trans ?_
      exact List.perm_middle
    obtain ⟨valid, left, keeps⟩ := discard_held lasting owned.proper owned.distinct keeps (some handle) listed
    have once := (List.nodup_cons.mp (listed.nodup_iff.mp owned.distinct)).2
    exact ⟨⟨owned.sound, valid, left, once⟩, keeps⟩
  | toggle taken found shape =>
    rename_i i enabled commands slot handle
    have held := owned.has found shape
    have same : l.shapes = l.store.shapes ++ commands.filterMap (·.shape?) := shapes_taken taken
    have still := (handles_enable owned.proper held enabled).trans owned.held
    have once := owned.once
    rw [same] at still once
    exact ⟨⟨owned.sound, lasting_proper.switched _ _ enabled owned.proper held owned.proper, still, once⟩,
      lasting.switched _ _ enabled owned.proper held keeps⟩
  | ignore taken bare => exact ⟨rewritten owned.sound (.refl _) (by rw [taken]; rfl) _ _, keeps⟩

theorem Owned.after (owned : l.Owned) (work : Work l l') : l'.Owned :=
  (owned.work lasting_proper owned.proper work).1

theorem Owned.act {d d' : Desk} {jobs : List Job} {sim : σ} (owned : (ofDesk d jobs sim).Owned) (act : Desk.Act d d')
    (ready : d.commands.isOpen = true) : (ofDesk d' jobs sim).Owned := by
  obtain ⟨sound, same⟩ := act.shapes owned.sound ready
  exact ⟨sound, owned.proper, owned.held.trans same.symm, same.nodup_iff.mpr owned.once⟩

end Ledger

section Logs

open Accountable

variable [Simulation σ] [Accountable σ]

theorem Collision.Logged.mirrors : Mirrors (Logged.sim : Logged σ → σ) where
  add _ _ _ _ := rfl
  remove _ _ := rfl
  enable _ _ _ := rfl

theorem Collision.Logged.orderly_lasting : Ledger.Lasting (Logged.Orderly : Logged σ → Prop) where
  added s key shape enabled valid orderly := by
    refine ⟨orderly.owned, orderly.once, ?_⟩
    intro removal member
    obtain ⟨given, gone⟩ := orderly.gone removal member
    refine ⟨(issued_added s.sim key shape enabled _ valid).mpr (.inl given), ?_⟩
    intro held
    rcases List.mem_cons.mp ((handles_add valid key shape enabled).mem_iff.mp held) with same | held
    · exact fresh s.sim key shape enabled valid (same ▸ given)
    · exact gone held
  removed s handle valid held orderly := by
    have held : handle ∈ handles s.sim := held
    have issue (other : Handle) : issued (Simulation.removeShape s.sim handle) other ↔ issued s.sim other := by
      obtain ⟨entry, member, rfl⟩ := mem_handles.mp held
      exact issued_removed s.sim valid entry member other
    have calls : (Simulation.removeShape s handle).removals = s.removals ++ [(handle, true)] := by
      change s.removals ++ [(handle, decide (handle ∈ handles s.sim))] = _
      rw [decide_eq_true held]
    have earlier {removal : Handle × Bool} (member : removal ∈ s.removals ++ [(handle, true)]) :
        removal ∈ s.removals ∨ removal = (handle, true) := by simpa using member
    refine ⟨?_, ?_, ?_⟩ <;> rw [calls]
    · intro removal member
      rcases earlier member with before | rfl
      · exact orderly.owned removal before
      · rfl
    · rw [List.map_append, List.nodup_append]
      refine ⟨orderly.once, List.nodup_singleton _, ?_⟩
      rintro other member _ last rfl
      obtain ⟨removal, before, rfl⟩ := List.mem_map.mp member
      have same : removal.1 = handle := by simpa using last
      exact (orderly.gone removal before).2 (same ▸ held)
    · intro removal member
      rcases earlier member with before | rfl
      · obtain ⟨given, gone⟩ := orderly.gone removal before
        exact ⟨(issue _).mpr given, fun still => gone ((mem_handles_remove valid held).mp still).1⟩
      · exact ⟨(issue _).mpr (handles_issued valid held), fun still => ((mem_handles_remove valid held).mp still).2 rfl⟩
  switched s handle enabled valid held orderly := by
    have held : handle ∈ handles s.sim := held
    have issue (other : Handle) : issued (Simulation.setEnabled s.sim handle enabled) other ↔ issued s.sim other := by
      obtain ⟨entry, member, rfl⟩ := mem_handles.mp held
      exact issued_switched s.sim enabled valid entry member other
    refine ⟨orderly.owned, orderly.once, ?_⟩
    intro removal member
    obtain ⟨given, gone⟩ := orderly.gone removal member
    exact ⟨(issue _).mpr given, fun still => gone ((handles_enable valid held enabled).mem_iff.mp still)⟩

end Logs

namespace Pipeline

open Accountable

variable [Simulation σ] [Accountable σ] [Supplier ω]

/-- The shapes that commands in the queue are to remove. -/
def removals (p : Pipeline σ ω) : List Handle := p.commands.letters.toList.filterMap (·.shape?)

omit [Supplier ω] in
theorem new_owned (grid : Grid) (initial most : Nat) (pacing : Pacing) (margins : Margins) (builder : Builder)
    (world : ω) {sim : σ} (valid : proper sim) (bare : holdings sim = []) :
    ((new grid (Store.ofLimits initial most) pacing margins builder world sim).ledger
      (Planner.new grid pacing margins) [] []).Owned := by
  have nothing : handles sim = [] := by rw [handles, bare]; rfl
  exact ⟨sound_ofLimits initial most, valid, .of_eq nothing, List.nodup_nil⟩

theorem run_owned (grid : Grid) (initial most : Nat) (pacing : Pacing) (margins : Margins) (builder : Builder)
    (world : ω) (sim : σ) (valid : proper sim) (bare : holdings sim = []) {P : σ → Prop} (lasting : Ledger.Lasting P)
    (keeps : P sim) (moves : List (Move ω)) :
    let p := (new grid (Store.ofLimits initial most) pacing margins builder world sim).run moves
    ∃ planner, (p.ledger planner [] []).Owned ∧ P p.sim := by
  have start := new_owned grid initial most pacing margins builder world valid bare
  obtain ⟨planner, _, kept⟩ := run_keeps (J := fun l => l.Owned ∧ P l.sim)
    (fun d d' jobs sim act ready kept => ⟨kept.1.act act ready, kept.2⟩)
    (fun l l' work kept => kept.1.work lasting kept.2 work) (new_intact _ _ _ _ _ _ _) rfl ⟨start, keeps⟩ moves
  exact ⟨planner, kept⟩

/-- In every state that a run comes to, the simulation holds the shapes that cells own and those that queued
removals name, each once. So it is only told to remove what it holds, each shape once at most, and
holds nothing but the shapes of cells whenever the queue is empty. -/
theorem shapes_have_one_owner (grid : Grid) (initial most : Nat) (pacing : Pacing) (margins : Margins)
    (builder : Builder) (world : ω) (sim : σ) (valid : proper sim) (bare : holdings sim = [])
    (moves : List (Move ω)) :
    let p := (new grid (Store.ofLimits initial most) pacing margins builder world sim).run moves
    let q := (new grid (Store.ofLimits initial most) pacing margins builder world (Logged.mk sim [])).run moves
    (handles p.sim).Perm (p.store.shapes ++ p.removals) ∧
    (p.store.shapes ++ p.removals).Nodup ∧
    (∀ (i : Nat) slot, p.store.slots[i]? = some slot → slot.live = false → slot.shape = none) ∧
    (p.commands.letters = #[] → (handles p.sim).Perm p.store.shapes) ∧
    q.through Logged.sim = p ∧
    (∀ removal ∈ q.sim.removals, removal.2 = true) ∧
    (q.sim.removals.map (·.1)).Nodup := by
  intro p q
  obtain ⟨_, ⟨sound, _, held, once⟩, _⟩ := run_owned grid initial most pacing margins builder world sim valid bare
    Ledger.lasting_proper valid moves
  have same : q.through Logged.sim = p := (run_through Logged.mirrors _ moves).symm
  obtain ⟨_, _, orderly⟩ := run_owned grid initial most pacing margins builder world (Logged.mk sim [])
    valid bare Logged.orderly_lasting ⟨by simp, by simp, by simp⟩ moves
  refine ⟨held, once, sound.bare, ?_, same, orderly.owned, orderly.once⟩
  intro quiet
  have none : p.removals = [] := by rw [removals, quiet]; rfl
  rw [← List.append_nil p.store.shapes, ← none]
  exact held

/-- A cell is held, built, let go and swept away: its shape passes from the cell to the queue. -/
theorem shapes_have_one_owner_swept :
    let p := (small Scene.empty).run [.send (.requested ⟨0⟩), .pass, .supply 1, .drain 1, .send (.released ⟨0⟩),
      .pass, .pass]
    Scene.Numbered Scene.empty ∧ Scene.entries Scene.empty = [] ∧ p.store.shapes = [] ∧ p.removals = [⟨1⟩] ∧
      (handles p.sim).Perm (p.store.shapes ++ p.removals) :=
  ⟨Scene.numbered_empty, rfl, by decide +kernel, by decide +kernel,
    (shapes_have_one_owner _ _ _ _ _ _ _ _ Scene.numbered_empty rfl _).1⟩

end Pipeline

end TerrainStream
