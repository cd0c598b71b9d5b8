import TerrainStream.Collision.Command
import TerrainStream.Proofs.Collision.Accountable
import TerrainStream.Proofs.Store.Alike

/-! The flags of cells in the store and the flags of shapes in the simulation. Between the two stands the
queue: the last toggle that waits for a cell already says what the store says. -/

namespace TerrainStream

open Cell Store Collision

/-- What a command switches a cell to, if it is a toggle for the cell of that key in that slot. -/
def Collision.Command.toggled? (key : Key) (i : Nat) : Command → Option Bool
  | .toggle other j enabled => if other = key ∧ j = i then some enabled else none
  | _ => none

/-- What the last of some commands that switches a cell switches it to. -/
def Collision.standing (commands : List Command) (key : Key) (i : Nat) : Option Bool :=
  (commands.filterMap (·.toggled? key i)).getLast?

namespace Collision

variable {key : Key} {i : Nat} {command : Command}

theorem standing_append (commands : List Command) (command : Command) (key : Key) (i : Nat) :
    standing (commands ++ [command]) key i = (command.toggled? key i).or (standing commands key i) := by
  rw [standing, List.filterMap_append, List.getLast?_append]
  cases said : command.toggled? key i <;> simp [said, standing]

theorem standing_cons (command : Command) (commands : List Command) (key : Key) (i : Nat) :
    standing (command :: commands) key i = (standing commands key i).or (command.toggled? key i) := by
  rw [standing, List.filterMap_cons]
  cases said : command.toggled? key i with
  | none => simp [standing]
  | some enabled => simp [standing, List.getLast?_cons]

theorem standing_toggle (key : Key) (i : Nat) (enabled : Bool) (commands : List Command) (other : Key) (j : Nat) :
    standing (.toggle key i enabled :: commands) other j =
      (standing commands other j).or (if key = other ∧ i = j then some enabled else none) := standing_cons _ _ _ _

end Collision

/-- The last toggle that waits for a cell says what the store says; and so does the flag of the shape that a cell
owns, unless a toggle waits for the cell. -/
structure Agreed (s : Store) (commands : List Command) (held : List Holding) : Prop where
  toggles : ∀ key i enabled, standing commands key i = some enabled → s.lights key i = enabled
  entries : ∀ (i : Nat) slot, s.live? i = some slot → ∀ entry ∈ held, slot.shape = some entry.handle →
    entry.cell = slot.key ∧ (standing commands slot.key i).getD entry.enabled = slot.active

namespace Agreed

variable {s s' : Store} {commands : List Command} {held held' : List Holding} {i : Nat} {slot : Slot}

theorem alike (agreed : Agreed s commands held) (alike : Store.Alike s s') : Agreed s' commands held := by
  refine ⟨?_, ?_⟩
  · intro key i enabled waits
    rw [alike.lights]
    exact agreed.toggles key i enabled waits
  · intro i slot living entry member owned
    obtain ⟨old, before, key, shape, active⟩ := alike.owners i slot entry.handle living owned
    rw [← key, ← active]
    exact agreed.entries i old before entry member shape

private theorem restanding {commands' : List Command} (agreed : Agreed s commands held)
    (same : ∀ key i, standing commands' key i = standing commands key i) : Agreed s commands' held := by
  refine ⟨?_, ?_⟩
  · intro key i
    rw [same]
    exact agreed.toggles key i
  · intro i slot living entry member owned
    rw [same]
    exact agreed.entries i slot living entry member owned

/-- A command that switches nothing may be queued. -/
theorem queued (agreed : Agreed s commands held) {command : Command}
    (silent : ∀ key i, command.toggled? key i = none) : Agreed s (commands ++ [command]) held := by
  apply agreed.restanding
  intro key i
  rw [standing_append, silent, Option.none_or]

/-- A command that switches nothing may be taken. -/
theorem taken {command : Command} (agreed : Agreed s (command :: commands) held)
    (silent : ∀ key i, command.toggled? key i = none) : Agreed s commands held := by
  apply agreed.restanding
  intro key i
  rw [standing_cons, silent, Option.or_none]

/-- A cell is switched, and its toggle is queued. -/
theorem switched (agreed : Agreed s commands held) (found : s.live? i = some slot) (enabled : Bool) :
    Agreed (s.put i { slot with active := enabled }) (commands ++ [.toggle slot.key i enabled]) held := by
  have sees (j : Nat) : (s.put i { slot with active := enabled }).live? j =
      if i = j then some { slot with active := enabled } else s.live? j := live?_put found rfl
  have last : standing (commands ++ [.toggle slot.key i enabled]) slot.key i = some enabled := by
    rw [standing_append]
    simp [Command.toggled?]
  have others {key : Key} {j : Nat} (apart : ¬ (slot.key = key ∧ i = j)) :
      standing (commands ++ [.toggle slot.key i enabled]) key j = standing commands key j := by
    rw [standing_append]
    simp [Command.toggled?, apart]
  refine ⟨?_, ?_⟩
  · intro key j flag waits
    by_cases here : slot.key = key ∧ i = j
    · obtain ⟨rfl, rfl⟩ := here
      rw [last] at waits
      rw [Store.lights, sees, if_pos rfl]
      simpa using waits
    · rw [others here] at waits
      have before := agreed.toggles key j flag waits
      by_cases same : i = j
      · subst j
        have different : slot.key ≠ key := fun name => here ⟨name, rfl⟩
        rw [Store.lights_live found] at before
        rw [Store.lights, sees, if_pos rfl]
        simpa [different] using before
      · rw [Store.lights, sees, if_neg same]
        exact before
  · intro j other living entry member owned
    rw [sees] at living
    split at living
    · rename_i here
      subst j
      cases living
      obtain ⟨cell, _⟩ := agreed.entries i slot found entry member owned
      refine ⟨cell, ?_⟩
      dsimp only
      rw [last]
      rfl
    · rename_i apart
      rw [others fun here => apart here.2]
      exact agreed.entries j other living entry member owned

/-- A cell that is switched off may leave. -/
theorem departed (agreed : Agreed s commands held) {key : Key} (departed : Store.Departed s key s' i slot)
    (off : slot.active = false) : Agreed s' commands held := by
  refine ⟨?_, ?_⟩
  · intro other j enabled waits
    have before := agreed.toggles other j enabled waits
    rw [Store.lights, departed.sees]
    split
    · rename_i here
      subst j
      rw [Store.lights_live departed.found, off, Bool.and_false] at before
      exact before
    · exact before
  · intro j other living entry member owned
    rw [departed.sees] at living
    split at living
    · cases living
    · exact agreed.entries j other living entry member owned

/-- The simulation may give up what it holds. -/
theorem fewer (agreed : Agreed s commands held) (fewer : ∀ entry ∈ held', entry ∈ held) : Agreed s commands held' :=
  ⟨agreed.toggles, fun i slot living entry member => agreed.entries i slot living entry (fewer entry member)⟩

/-- A cell trades its shape for one that the simulation has been handed with the flag of the cell. -/
theorem installed (agreed : Agreed s commands held) (found : s.live? i = some slot) {fresh : Slot}
    (kept : fresh.live = slot.live) (key : fresh.key = slot.key) (active : fresh.active = slot.active)
    (entries : ∀ entry ∈ held', (entry ∈ held ∧ fresh.shape ≠ some entry.handle) ∨
      (entry.cell = slot.key ∧ entry.enabled = slot.active ∧
        ∀ j other, s.live? j = some other → other.shape ≠ some entry.handle)) :
    Agreed (s.put i fresh) commands held' := by
  have lights (other : Key) (j : Nat) : (s.put i fresh).lights other j = s.lights other j := by
    rw [Store.lights, live?_put found kept]
    split
    · rename_i here
      subst j
      rw [Store.lights_live found, Option.any_some, key, active]
    · rfl
  refine ⟨?_, ?_⟩
  · intro other j enabled waits
    rw [lights]
    exact agreed.toggles other j enabled waits
  · intro j other living entry member owned
    rw [live?_put found kept] at living
    split at living
    · rename_i here
      subst j
      cases living
      rcases entries entry member with ⟨_, different⟩ | ⟨cell, flag, _⟩
      · exact absurd owned different
      · refine ⟨cell.trans key.symm, ?_⟩
        rw [key, flag, active]
        cases waits : standing commands slot.key i with
        | none => rfl
        | some enabled =>
          have said := agreed.toggles slot.key i enabled waits
          rw [Store.lights_live found] at said
          simpa using said.symm
    · rcases entries entry member with ⟨before, _⟩ | ⟨_, _, strange⟩
      · exact agreed.entries j other living entry before owned
      · exact absurd owned (strange j other living)

/-- A toggle reaches the shape of its cell. -/
theorem toggled (sound : s.Sound) {enabled : Bool} {shape : Handle}
    (agreed : Agreed s (.toggle slot.key i enabled :: commands) held) (found : s.live? i = some slot)
    (owned : slot.shape = some shape)
    (entries : ∀ entry ∈ held', ∃ old ∈ held, entry = old.switched shape enabled) : Agreed s commands held' := by
  refine ⟨?_, ?_⟩
  · intro key j flag waits
    refine agreed.toggles key j flag ?_
    rw [standing_toggle, waits, Option.some_or]
  · intro j other living entry member has
    obtain ⟨old, before, rfl⟩ := entries entry member
    rw [Holding.switched_handle] at has
    obtain ⟨named, said⟩ := agreed.entries j other living old before has
    refine ⟨(old.switched_cell shape enabled).trans named, ?_⟩
    rw [standing_toggle] at said
    by_cases here : old.handle = shape
    · have same : i = j := by
        obtain ⟨name, _⟩ := agreed.entries i slot found old before (here ▸ owned)
        exact sound.alone found living (name.symm.trans named)
      subst j
      obtain rfl : slot = other := Option.some.inj (found.symm.trans living)
      have flag : (old.switched shape enabled).enabled = enabled := by rw [Holding.switched, if_pos here]
      rw [flag]
      cases waits : standing commands slot.key i with
      | none => simpa [waits] using said
      | some enabled => simpa [waits] using said
    · have untouched : old.switched shape enabled = old := if_neg here
      have apart : ¬ (slot.key = other.key ∧ i = j) := by
        rintro ⟨_, rfl⟩
        obtain rfl : slot = other := Option.some.inj (found.symm.trans living)
        rw [owned, Option.some.injEq] at has
        exact here has.symm
      rw [if_neg apart, Option.or_none] at said
      rw [untouched]
      exact said

/-- A toggle whose cell is gone or has no shape changes nothing. -/
theorem ignored {key : Key} {enabled : Bool} (agreed : Agreed s (.toggle key i enabled :: commands) held)
    (bare : ∀ slot, s.live? i = some slot → slot.key = key → slot.shape = none) : Agreed s commands held := by
  refine ⟨?_, ?_⟩
  · intro other j flag waits
    refine agreed.toggles other j flag ?_
    rw [standing_toggle, waits, Option.some_or]
  · intro j slot living entry member owned
    have said := agreed.entries j slot living entry member owned
    have apart : ¬ (key = slot.key ∧ i = j) := by
      rintro ⟨name, rfl⟩
      rw [bare slot living name.symm] at owned
      cases owned
    rw [standing_toggle, if_neg apart, Option.or_none] at said
    exact said

end Agreed

end TerrainStream
