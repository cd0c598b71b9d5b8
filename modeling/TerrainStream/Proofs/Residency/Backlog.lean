import TerrainStream.Proofs.Cell.Table
import TerrainStream.Residency.Request

/-! The backlog as the list of its requests: what goes in, what comes out, and what is left. -/

namespace TerrainStream.Residency.Backlog

open Cell

variable {b : Backlog} {key : Key} {r : Request} {drop : Request → Bool}

/-- Every request is filed under its own key. -/
def Keyed (b : Backlog) : Prop := ∀ (key : Key) (r : Request), b.byKey[key]? = some r → r.key = key

theorem mem_toList : r ∈ b.toList ↔ ∃ key : Key, b.byKey[key]? = some r := by
  simp only [toList, List.mem_map, Prod.exists, exists_eq_right, Table.mem_toList]

theorem Keyed.get? (keyed : b.Keyed) (member : r ∈ b.toList) : b.get? r.key = some r := by
  obtain ⟨key, filed⟩ := mem_toList.mp member
  rw [keyed key r filed]
  exact filed

theorem keyed_empty : empty.Keyed := by
  intro key r filed
  simp [empty] at filed

theorem Keyed.insert (keyed : b.Keyed) (r : Request) : Keyed ⟨b.byKey.insert r.key r⟩ := by
  intro key other filed
  rw [Table.getElem?_insert] at filed
  split at filed
  · cases filed
    assumption
  · exact keyed key other filed

theorem Keyed.erase (keyed : b.Keyed) (key : Key) : Keyed ⟨b.byKey.erase key⟩ := by
  intro other r filed
  rw [Table.getElem?_erase] at filed
  split at filed
  · cases filed
  · exact keyed other r filed

theorem toList_erase (found : b.get? key = some r) : b.toList.Perm (r :: toList ⟨b.byKey.erase key⟩) :=
  (Table.toList_erase found).map _

theorem toList_insert (b : Backlog) (key : Key) (r : Request) :
    (toList ⟨b.byKey.insert key r⟩).Perm (r :: toList ⟨b.byKey.erase key⟩) :=
  (Table.toList_insert b.byKey key r).map _

/-- A request for a cell that none waits for goes in as it is. -/
theorem record_new (absent : b.get? r.key = none) : (b.record r).toList.Perm (r :: b.toList) := by
  have put : b.record r = ⟨b.byKey.insert r.key r⟩ := by simp [record, absent]
  rw [put]
  have inserted := b.toList_insert r.key r
  rwa [Table.erase_absent absent] at inserted

theorem Keyed.record (keyed : b.Keyed) (absent : b.get? r.key = none) : (b.record r).Keyed := by
  have put : b.record r = ⟨b.byKey.insert r.key r⟩ := by simp [Backlog.record, absent]
  rw [put]
  exact keyed.insert r

/-- Raising changes the priority of one request at most. -/
theorem raise_cases (b : Backlog) (key : Key) (priority : Priority) :
    (∃ r, b.get? key = some r ∧
      b.raise key priority = (⟨b.byKey.insert key { r with priority := r.priority.max priority }⟩, true)) ∨
    b.raise key priority = (b, false) := by
  unfold raise
  split
  · rename_i r found
    exact .inl ⟨r, found, rfl⟩
  · exact .inr rfl

theorem get?_record (b : Backlog) (r : Request) (key : Key) :
    ((b.record r).get? key).isSome = (decide (r.key = key) || (b.get? key).isSome) := by
  rw [record, get?, Table.getElem?_insert]
  by_cases same : r.key = key
  · simp [same]
  · rw [if_neg same, decide_eq_false same, Bool.false_or]
    rfl

theorem get?_raise (b : Backlog) (key : Key) (priority : Priority) (other : Key) :
    ((b.raise key priority).1.get? other).isSome = (b.get? other).isSome := by
  rcases raise_cases b key priority with ⟨r, found, raised⟩ | raised
  · rw [raised, get?, Table.getElem?_insert]
    split
    · rename_i same
      rw [← same, found]
      rfl
    · rfl
  · rw [raised]

/-- Raising answers whether a request waits. -/
theorem raise_answer (b : Backlog) (key : Key) (priority : Priority) :
    (b.raise key priority).2 = (b.get? key).isSome := by
  unfold raise
  split <;> rename_i found <;> rw [found] <;> rfl

theorem Keyed.isSome_get? (keyed : b.Keyed) (key : Key) :
    (b.get? key).isSome = b.toList.any fun r => decide (r.key = key) := by
  rw [Bool.eq_iff_iff, List.any_eq_true]
  constructor
  · intro waits
    obtain ⟨r, filed⟩ := Option.isSome_iff_exists.mp waits
    exact ⟨r, mem_toList.mpr ⟨key, filed⟩, decide_eq_true (keyed key r filed)⟩
  · rintro ⟨r, listed, name⟩
    obtain rfl := of_decide_eq_true name
    rw [keyed.get? listed]
    rfl

/-- What is picked and what stays make up the backlog. -/
theorem extract_perm (b : Backlog) (drop : Request → Bool) :
    b.toList.Perm ((b.extract drop).2 ++ (b.extract drop).1.toList) := by
  have left : (b.extract drop).1.toList = b.toList.filter fun r => !drop r := by
    simp [extract, toList, Std.ExtTreeMap.toList_filter, List.filter_map, Function.comp_def]
  rw [left]
  exact (List.filter_append_perm drop b.toList).symm

theorem get?_extract (b : Backlog) (drop : Request → Bool) (key : Key) :
    (b.extract drop).1.get? key = (b.get? key).filter fun r => !drop r := by
  simp only [extract, get?, Std.ExtTreeMap.getElem?_filter']

theorem mem_extract : r ∈ (b.extract drop).2 ↔ r ∈ b.toList ∧ drop r = true := List.mem_filter

theorem Keyed.extract (keyed : b.Keyed) (drop : Request → Bool) : (b.extract drop).1.Keyed := by
  intro key r filed
  simp only [Backlog.extract, Std.ExtTreeMap.getElem?_filter', Option.filter_eq_some_iff] at filed
  exact keyed key r filed.1

private theorem eraseAll (keyed : b.Keyed) {taken rest : List Request} (listed : b.toList.Perm (taken ++ rest)) :
    Keyed ⟨taken.foldl (fun m r => m.erase r.key) b.byKey⟩ ∧
    (toList ⟨taken.foldl (fun m r => m.erase r.key) b.byKey⟩).Perm rest := by
  induction taken generalizing b with
  | nil => exact ⟨keyed, listed⟩
  | cons r taken ih =>
    have found := keyed.get? (listed.mem_iff.mpr List.mem_cons_self)
    have left := ((toList_erase found).symm.trans listed).cons_inv
    exact ih (keyed.erase r.key) left

theorem ranked_perm (b : Backlog) : b.ranked.Perm b.toList := List.mergeSort_perm _ _

/-- The requests taken and those that stay make up the backlog. -/
theorem takeRanked_perm (keyed : b.Keyed) (most : Nat) :
    (b.takeRanked most).1.Keyed ∧ b.toList.Perm ((b.takeRanked most).2 ++ (b.takeRanked most).1.toList) := by
  have listed : b.toList.Perm (b.ranked.take most ++ b.ranked.drop most) := by
    rw [List.take_append_drop]
    exact b.ranked_perm.symm
  obtain ⟨kept, left⟩ := eraseAll keyed listed
  exact ⟨kept, listed.trans (left.symm.append_left _)⟩

end TerrainStream.Residency.Backlog
