import Mathlib.Data.List.Nodup
import TerrainStream.Collision.Simulation

/-! Simulations that can be asked what they hold. Adding, removing and switching change the answer as
their names say, and no two shapes are ever given one handle. -/

namespace TerrainStream.Collision

open Cell Store Shape

/-- A shape that a simulation holds, with the cell that it was added for. -/
structure Holding where
  handle : Handle
  cell : Key
  enabled : Bool
deriving DecidableEq

/-- The entry once a shape has been switched. -/
def Holding.switched (entry : Holding) (handle : Handle) (enabled : Bool) : Holding :=
  if entry.handle = handle then { entry with enabled } else entry

@[simp] theorem Holding.switched_handle (entry : Holding) (handle : Handle) (enabled : Bool) :
    (entry.switched handle enabled).handle = entry.handle := by
  unfold switched
  split <;> rfl

@[simp] theorem Holding.switched_cell (entry : Holding) (handle : Handle) (enabled : Bool) :
    (entry.switched handle enabled).cell = entry.cell := by
  unfold switched
  split <;> rfl

/-- Nothing is asked of calls for handles that the simulation does not hold. -/
class Accountable (σ : Type) [Simulation σ] where
  /-- The states that a simulation can come to. -/
  proper : σ → Prop
  holdings : σ → List Holding
  /-- Whether a handle has been given out, be its shape still held or not. -/
  issued : σ → Handle → Prop
  held : ∀ s, proper s → ∀ entry ∈ holdings s, issued s entry.handle
  fresh : ∀ s key shape enabled, proper s → ¬ issued s (Simulation.addShape s key shape enabled).1
  proper_added : ∀ s key shape enabled, proper s → proper (Simulation.addShape s key shape enabled).2
  added : ∀ s key shape enabled, proper s → (holdings (Simulation.addShape s key shape enabled).2).Perm
    (⟨(Simulation.addShape s key shape enabled).1, key, enabled⟩ :: holdings s)
  issued_added : ∀ s key shape enabled handle, proper s →
    (issued (Simulation.addShape s key shape enabled).2 handle ↔
      issued s handle ∨ handle = (Simulation.addShape s key shape enabled).1)
  proper_removed : ∀ s, proper s → ∀ entry ∈ holdings s, proper (Simulation.removeShape s entry.handle)
  removed : ∀ s, proper s → ∀ entry ∈ holdings s, (holdings (Simulation.removeShape s entry.handle)).Perm
    ((holdings s).filter (·.handle ≠ entry.handle))
  issued_removed : ∀ s, proper s → ∀ entry ∈ holdings s, ∀ handle,
    (issued (Simulation.removeShape s entry.handle) handle ↔ issued s handle)
  proper_switched : ∀ s enabled, proper s → ∀ entry ∈ holdings s,
    proper (Simulation.setEnabled s entry.handle enabled)
  switched : ∀ s enabled, proper s → ∀ entry ∈ holdings s,
    (holdings (Simulation.setEnabled s entry.handle enabled)).Perm
      ((holdings s).map (·.switched entry.handle enabled))
  issued_switched : ∀ s enabled, proper s → ∀ entry ∈ holdings s, ∀ handle,
    (issued (Simulation.setEnabled s entry.handle enabled) handle ↔ issued s handle)

namespace Accountable

variable {σ : Type} [Simulation σ] [Accountable σ] {s : σ} {handle : Handle}

/-- The handles of the shapes held. -/
def handles (s : σ) : List Handle := (holdings s).map (·.handle)

theorem mem_handles : handle ∈ handles s ↔ ∃ entry ∈ holdings s, entry.handle = handle := List.mem_map

theorem handles_issued (valid : proper s) (held : handle ∈ handles s) : issued s handle := by
  obtain ⟨entry, member, rfl⟩ := mem_handles.mp held
  exact Accountable.held s valid entry member

theorem handles_add (valid : proper s) (key : Key) (shape : Shape) (enabled : Bool) :
    (handles (Simulation.addShape s key shape enabled).2).Perm
      ((Simulation.addShape s key shape enabled).1 :: handles s) :=
  (added s key shape enabled valid).map _

theorem fresh_handle (valid : proper s) (key : Key) (shape : Shape) (enabled : Bool) :
    (Simulation.addShape s key shape enabled).1 ∉ handles s :=
  fun held => fresh s key shape enabled valid (handles_issued valid held)

theorem handles_enable (valid : proper s) (held : handle ∈ handles s) (enabled : Bool) :
    (handles (Simulation.setEnabled s handle enabled)).Perm (handles s) := by
  obtain ⟨entry, member, rfl⟩ := mem_handles.mp held
  have listed := (switched s enabled valid entry member).map (·.handle)
  simpa only [handles, List.map_map, Function.comp_def, Holding.switched_handle] using listed

private theorem handles_others (entry : Handle) (entries : List Holding) :
    (entries.filter (·.handle ≠ entry)).map (·.handle) = (entries.map (·.handle)).filter (· ≠ entry) := by
  rw [List.filter_map]
  rfl

theorem mem_handles_remove (valid : proper s) (held : handle ∈ handles s) {other : Handle} :
    other ∈ handles (Simulation.removeShape s handle) ↔ other ∈ handles s ∧ other ≠ handle := by
  obtain ⟨entry, member, rfl⟩ := mem_handles.mp held
  have left := (removed s valid entry member).map (·.handle)
  rw [handles_others] at left
  refine left.mem_iff.trans ?_
  rw [List.mem_filter, decide_eq_true_eq]
  rfl

theorem mem_holdings_remove (valid : proper s) (held : handle ∈ handles s) {entry : Holding} :
    entry ∈ holdings (Simulation.removeShape s handle) ↔ entry ∈ holdings s ∧ entry.handle ≠ handle := by
  obtain ⟨old, member, rfl⟩ := mem_handles.mp held
  rw [(removed s valid old member).mem_iff, List.mem_filter, decide_eq_true_eq]

/-- A shape that is removed is the only one to go. -/
theorem handles_remove (valid : proper s) {rest : List Handle} (distinct : (handles s).Nodup)
    (listed : (handles s).Perm (handle :: rest)) : (handles (Simulation.removeShape s handle)).Perm rest := by
  obtain ⟨entry, member, rfl⟩ := mem_handles.mp (listed.mem_iff.mpr List.mem_cons_self)
  have apart : entry.handle ∉ rest := (List.nodup_cons.mp (listed.nodup_iff.mp distinct)).1
  have left := (removed s valid entry member).map (·.handle)
  rw [handles_others] at left
  have others : (entry.handle :: rest).filter (· ≠ entry.handle) = rest := by
    rw [List.filter_cons_of_neg (by simp)]
    refine List.filter_eq_self.mpr fun other member => ?_
    simp only [decide_eq_true_eq]
    rintro rfl
    exact apart member
  exact left.trans ((listed.filter _).trans (.of_eq others))

end Accountable

/-- A simulation with a log of its removals: the handle, and whether the simulation held it then. -/
structure Logged (σ : Type) where
  sim : σ
  removals : List (Handle × Bool)

namespace Logged

variable {σ : Type} [Simulation σ] [Accountable σ]

instance : Simulation (Logged σ) where
  addShape s key shape enabled :=
    ((Simulation.addShape s.sim key shape enabled).1, ⟨(Simulation.addShape s.sim key shape enabled).2, s.removals⟩)
  removeShape s handle :=
    ⟨Simulation.removeShape s.sim handle, s.removals ++ [(handle, decide (handle ∈ Accountable.handles s.sim))]⟩
  setEnabled s handle enabled := ⟨Simulation.setEnabled s.sim handle enabled, s.removals⟩

instance : Accountable (Logged σ) where
  proper s := Accountable.proper s.sim
  holdings s := Accountable.holdings s.sim
  issued s := Accountable.issued s.sim
  held s := Accountable.held s.sim
  fresh s := Accountable.fresh s.sim
  proper_added s := Accountable.proper_added s.sim
  added s := Accountable.added s.sim
  issued_added s := Accountable.issued_added s.sim
  proper_removed s := Accountable.proper_removed s.sim
  removed s := Accountable.removed s.sim
  issued_removed s := Accountable.issued_removed s.sim
  proper_switched s := Accountable.proper_switched s.sim
  switched s := Accountable.switched s.sim
  issued_switched s := Accountable.issued_switched s.sim

/-- Every removal so far was of a shape that was held, and no handle was removed twice. -/
structure Orderly (s : Logged σ) : Prop where
  owned : ∀ removal ∈ s.removals, removal.2 = true
  once : (s.removals.map (·.1)).Nodup
  gone : ∀ removal ∈ s.removals, Accountable.issued s.sim removal.1 ∧ removal.1 ∉ Accountable.handles s.sim

end Logged

/-- A simulation with an archive of the shapes that it was given, each under its handle. -/
structure Archive (σ : Type) where
  sim : σ
  given : Handle → Option Shape

namespace Archive

variable {σ : Type} [Simulation σ] [Accountable σ]

instance : Simulation (Archive σ) where
  addShape s key shape enabled :=
    ((Simulation.addShape s.sim key shape enabled).1,
      ⟨(Simulation.addShape s.sim key shape enabled).2, fun handle =>
        if handle = (Simulation.addShape s.sim key shape enabled).1 then some shape else s.given handle⟩)
  removeShape s handle := ⟨Simulation.removeShape s.sim handle, s.given⟩
  setEnabled s handle enabled := ⟨Simulation.setEnabled s.sim handle enabled, s.given⟩

instance : Accountable (Archive σ) where
  proper s := Accountable.proper s.sim
  holdings s := Accountable.holdings s.sim
  issued s := Accountable.issued s.sim
  held s := Accountable.held s.sim
  fresh s := Accountable.fresh s.sim
  proper_added s := Accountable.proper_added s.sim
  added s := Accountable.added s.sim
  issued_added s := Accountable.issued_added s.sim
  proper_removed s := Accountable.proper_removed s.sim
  removed s := Accountable.removed s.sim
  issued_removed s := Accountable.issued_removed s.sim
  proper_switched s := Accountable.proper_switched s.sim
  switched s := Accountable.switched s.sim
  issued_switched s := Accountable.issued_switched s.sim

omit [Accountable σ] in
theorem given_discard (s : Archive σ) (previous : Option Handle) :
    (previous.elim s (Simulation.removeShape s)).given = s.given := by
  cases previous <;> rfl

/-- What is given later goes under another handle than what is held. -/
theorem given_held {s : Archive σ} {handle : Handle} (valid : Accountable.proper s)
    (held : handle ∈ Accountable.handles s) (key : Key) (shape : Shape) (enabled : Bool) :
    (Simulation.addShape s key shape enabled).2.given handle = s.given handle := by
  refine if_neg ?_
  rintro rfl
  exact Accountable.fresh_handle valid key shape enabled held

end Archive

end TerrainStream.Collision
