import TerrainStream.Physics.Scene
import TerrainStream.Proofs.Cell.Table
import TerrainStream.Proofs.Collision.Accountable

/-! A scene can be asked what it holds: handles are numbered on, so that no number comes twice. -/

namespace TerrainStream.Physics.Scene

open Cell Store Shape Collision

/-- What a scene holds, by ascending number. -/
def entries (s : Scene) : List Holding := s.shapes.toList.map fun (id, held) => ⟨⟨id⟩, held.key, held.enabled⟩

/-- Every number in use was given out. -/
def Numbered (s : Scene) : Prop := ∀ id : Nat, id ∈ s.shapes → id < s.nextHandle

variable {s : Scene}

theorem mem_entries {entry : Holding} :
    entry ∈ s.entries ↔ ∃ held : Installed, s.shapes[entry.handle.id]? = some held ∧ held.key = entry.cell ∧
      held.enabled = entry.enabled := by
  simp only [entries, List.mem_map, Prod.exists, Table.mem_toList]
  constructor
  · rintro ⟨id, held, found, rfl⟩
    exact ⟨held, found, rfl, rfl⟩
  · rintro ⟨held, found, cell, enabled⟩
    exact ⟨entry.handle.id, held, found, by rw [cell, enabled]⟩

theorem Numbered.below (numbered : s.Numbered) {entry : Holding} (member : entry ∈ s.entries) :
    entry.handle.id < s.nextHandle := by
  obtain ⟨held, found, _⟩ := mem_entries.mp member
  exact numbered _ (Std.ExtTreeMap.mem_iff_isSome_getElem?.mpr (by rw [found]; rfl))

theorem entries_addShape (numbered : s.Numbered) (key : Key) (shape : Shape) (enabled : Bool) :
    (s.addShape key shape enabled).2.entries.Perm (⟨⟨s.nextHandle⟩, key, enabled⟩ :: s.entries) := by
  have absent : s.shapes[s.nextHandle]? = none :=
    Std.ExtTreeMap.getElem?_eq_none fun used => Nat.lt_irrefl _ (numbered _ used)
  have listed := Table.toList_insert s.shapes s.nextHandle ⟨key, shape, shape.worldBoxes, enabled⟩
  rw [Table.erase_absent absent] at listed
  exact listed.map _

theorem enabledCells_perm (s : Scene) : s.enabledCells.Perm ((s.entries.filter (·.enabled)).map (·.cell)) := by
  have same : s.enabledShapes.map (·.key) = (s.entries.filter (·.enabled)).map (·.cell) := by
    simp only [enabledShapes, entries, List.filter_map, List.map_map]
    rfl
  exact (List.mergeSort_perm _ _).trans (.of_eq same)

theorem handles_nodup (s : Scene) : (s.entries.map (·.handle)).Nodup := by
  rw [entries, List.map_map]
  refine List.Pairwise.map _ ?_ Std.ExtTreeMap.distinct_keys_toList
  intro a b distinct same
  have ids : a.1 = b.1 := congrArg Handle.id same
  exact distinct (by rw [ids]; exact Std.ReflCmp.compare_self)

private theorem perm_of_mem {left right : List Holding} (first : (left.map (·.handle)).Nodup)
    (second : (right.map (·.handle)).Nodup) (same : ∀ entry, entry ∈ left ↔ entry ∈ right) : left.Perm right :=
  (List.perm_ext_iff_of_nodup (.of_map _ first) (.of_map _ second)).mpr same

private theorem id_ne {first second : Handle} : first.id ≠ second.id ↔ second ≠ first := by
  cases first; cases second
  simp only [ne_eq, Handle.mk.injEq, not_iff_not]
  exact eq_comm

theorem entries_removeShape {entry : Holding} (member : entry ∈ s.entries) :
    (s.removeShape entry.handle).entries.Perm (s.entries.filter (·.handle ≠ entry.handle)) := by
  have used : s.shapes.contains entry.handle.id = true := by
    obtain ⟨held, found, _⟩ := mem_entries.mp member
    rw [Std.ExtTreeMap.contains_eq_isSome_getElem?, found]
    rfl
  have distinct : ((s.entries.filter (·.handle ≠ entry.handle)).map (·.handle)).Nodup :=
    s.handles_nodup.sublist (List.filter_sublist.map _)
  refine perm_of_mem (handles_nodup _) distinct fun other => ?_
  rw [List.mem_filter, mem_entries, mem_entries, removeShape, if_pos used]
  simp only [decide_eq_true_eq, ← id_ne, Table.getElem?_erase]
  by_cases here : entry.handle.id = other.handle.id
  · simp [here]
  · simp [here]

theorem entries_setEnabled (s : Scene) (handle : Handle) (enabled : Bool) :
    (s.setEnabled handle enabled).entries.Perm (s.entries.map (·.switched handle enabled)) := by
  have distinct : ((s.entries.map (·.switched handle enabled)).map (·.handle)).Nodup := by
    simpa only [List.map_map, Function.comp_def, Holding.switched_handle] using s.handles_nodup
  refine perm_of_mem (handles_nodup _) distinct fun other => ?_
  rw [List.mem_map, mem_entries]
  simp only [setEnabled, Std.ExtTreeMap.getElem?_modify, Std.LawfulEqCmp.compare_eq_iff_eq]
  constructor
  · rintro ⟨held, found, cell, flag⟩
    split at found
    · rename_i here
      obtain ⟨before, kept, rfl⟩ := Option.map_eq_some_iff.mp found
      refine ⟨⟨other.handle, before.key, before.enabled⟩, mem_entries.mpr ⟨before, here ▸ kept, rfl, rfl⟩, ?_⟩
      have same : other.handle = handle := by
        by_contra different
        exact id_ne.mpr different here
      subst same
      obtain ⟨_, _, _⟩ := other
      cases cell
      cases flag
      exact if_pos rfl
    · rename_i elsewhere
      refine ⟨other, mem_entries.mpr ⟨held, found, cell, flag⟩, ?_⟩
      exact if_neg (id_ne.mp elsewhere)
  · rintro ⟨entry, member, rfl⟩
    obtain ⟨held, found, cell, flag⟩ := mem_entries.mp member
    rw [Holding.switched_handle]
    split
    · rename_i here
      have same : entry.handle = handle := by
        by_contra different
        exact id_ne.mpr different here
      subst same
      exact ⟨{ held with enabled }, by rw [found]; rfl, by simp [Holding.switched, cell], by simp [Holding.switched]⟩
    · rename_i elsewhere
      have untouched : entry.switched handle enabled = entry := if_neg (id_ne.mp elsewhere)
      rw [untouched]
      exact ⟨held, found, cell, flag⟩

theorem Numbered.addShape (numbered : s.Numbered) (key : Key) (shape : Shape) (enabled : Bool) :
    (s.addShape key shape enabled).2.Numbered := by
  intro id used
  rcases Std.ExtTreeMap.mem_insert.mp used with same | used
  · obtain rfl := Std.LawfulEqCmp.eq_of_compare same
    exact Nat.lt_succ_self _
  · exact Nat.lt_succ_of_lt (numbered id used)

theorem Numbered.removeShape (numbered : s.Numbered) (handle : Handle) : (s.removeShape handle).Numbered := by
  unfold Scene.removeShape
  split
  · intro id used
    exact numbered id (Std.ExtTreeMap.mem_of_mem_erase used)
  · exact numbered

theorem Numbered.setEnabled (numbered : s.Numbered) (handle : Handle) (enabled : Bool) :
    (s.setEnabled handle enabled).Numbered := by
  intro id used
  exact numbered id (Std.ExtTreeMap.mem_modify.mp used)

theorem numbered_empty : Numbered empty := fun _ used => absurd used Std.ExtTreeMap.not_mem_empty

theorem removeShape_nextHandle (s : Scene) (handle : Handle) : (s.removeShape handle).nextHandle = s.nextHandle := by
  unfold removeShape
  split <;> rfl

instance : Accountable Scene where
  proper := Numbered
  holdings := entries
  issued s handle := handle.id < s.nextHandle
  held _ numbered _ member := numbered.below member
  fresh s _ _ _ _ := Nat.lt_irrefl s.nextHandle
  proper_added _ key shape enabled numbered := numbered.addShape key shape enabled
  added _ key shape enabled numbered := entries_addShape numbered key shape enabled
  issued_added s _ _ _ handle _ := by
    change handle.id < s.nextHandle + 1 ↔ handle.id < s.nextHandle ∨ handle = ⟨s.nextHandle⟩
    cases handle
    simp only [Handle.mk.injEq]
    omega
  proper_removed _ numbered entry _ := numbered.removeShape entry.handle
  removed _ _ _ member := entries_removeShape member
  issued_removed s _ entry _ handle := by
    change handle.id < (s.removeShape entry.handle).nextHandle ↔ handle.id < s.nextHandle
    rw [removeShape_nextHandle]
  proper_switched _ enabled numbered entry _ := numbered.setEnabled entry.handle enabled
  switched s enabled _ entry _ := s.entries_setEnabled entry.handle enabled
  issued_switched _ _ _ _ _ _ := Iff.rfl

end TerrainStream.Physics.Scene
