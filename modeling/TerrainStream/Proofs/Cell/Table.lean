import Mathlib.Data.List.Perm.Basic
import TerrainStream.Cell.Key

/-! Listings of tables and sets. A change to a table is a change to its listing up to order, which is
all that counting entries needs. -/

namespace TerrainStream.Cell.Table

variable {α β : Type} [Ord α] [Std.TransOrd α] [Std.LawfulEqOrd α]

theorem nodup_toList (table : Std.ExtTreeMap α β) : table.toList.Nodup := by
  refine Std.ExtTreeMap.distinct_keys_toList.imp ?_
  rintro a b distinct rfl
  exact distinct Std.ReflCmp.compare_self

theorem nodup_listed (set : Std.ExtTreeSet α) : set.toList.Nodup := by
  refine Std.ExtTreeSet.distinct_toList.imp ?_
  rintro a b distinct rfl
  exact distinct Std.ReflCmp.compare_self

theorem mem_toList {table : Std.ExtTreeMap α β} {key : α} {value : β} :
    (key, value) ∈ table.toList ↔ table[key]? = some value :=
  Std.ExtTreeMap.mem_toList_iff_getElem?_eq_some

theorem toList_bare {table : Std.ExtTreeMap α β} (bare : ∀ key : α, table[key]? = none) : table.toList = [] := by
  rw [List.eq_nil_iff_forall_not_mem]
  rintro ⟨key, value⟩ listed
  rw [mem_toList, bare] at listed
  cases listed

theorem isEmpty_bare {table : Std.ExtTreeMap α β} (bare : ∀ key : α, table[key]? = none) : table.isEmpty = true := by
  rw [← Std.ExtTreeMap.isEmpty_toList, toList_bare bare]
  rfl

omit [Std.LawfulEqOrd α] in
theorem bare_isEmpty {table : Std.ExtTreeMap α β} (empty : table.isEmpty = true) (key : α) : table[key]? = none := by
  rw [Std.ExtTreeMap.isEmpty_iff.mp empty, Std.ExtTreeMap.getElem?_empty]

/-- A table has no more entries than another one in which each of its keys is found. -/
theorem size_le {table other : Std.ExtTreeMap α β} (found : ∀ key : α, (table[key]?).isSome → (other[key]?).isSome) :
    table.size ≤ other.size := by
  rw [← Std.ExtTreeMap.length_keys, ← Std.ExtTreeMap.length_keys]
  refine (List.subperm_of_subset Std.ExtTreeMap.nodup_keys fun key listed => ?_).length_le
  rw [Std.ExtTreeMap.mem_keys, Std.ExtTreeMap.mem_iff_isSome_getElem?] at *
  exact found key listed

theorem listed_bare {set : Std.ExtTreeSet α} (bare : ∀ key, set.contains key = false) : set.toList = [] := by
  rw [List.eq_nil_iff_forall_not_mem]
  intro key listed
  rw [Std.ExtTreeSet.mem_toList, ← Std.ExtTreeSet.contains_iff_mem, bare] at listed
  cases listed

theorem getElem?_insert [DecidableEq α] (table : Std.ExtTreeMap α β) (key other : α) (value : β) :
    (table.insert key value)[other]? = if key = other then some value else table[other]? := by
  simp [Std.ExtTreeMap.getElem?_insert]

theorem getElem?_erase [DecidableEq α] (table : Std.ExtTreeMap α β) (key other : α) :
    (table.erase key)[other]? = if key = other then none else table[other]? := by
  simp [Std.ExtTreeMap.getElem?_erase]

/-- The entry under a key stands beside what is left without it. -/
theorem toList_erase {table : Std.ExtTreeMap α β} {key : α} {value : β} (found : table[key]? = some value) :
    table.toList.Perm ((key, value) :: (table.erase key).toList) := by
  classical
  have absent : (key, value) ∉ (table.erase key).toList := by simp
  refine (List.perm_ext_iff_of_nodup (nodup_toList table) (List.nodup_cons.mpr ⟨absent, nodup_toList _⟩)).mpr ?_
  rintro ⟨other, entry⟩
  simp only [List.mem_cons, mem_toList, getElem?_erase, Prod.mk.injEq]
  by_cases same : key = other
  · subst other
    simp only [found, Option.some.injEq, true_and, ↓reduceIte, reduceCtorEq, or_false]
    exact eq_comm
  · simp [same, Ne.symm same]

/-- An entry put in stands beside what the table holds under other keys. -/
theorem toList_insert (table : Std.ExtTreeMap α β) (key : α) (value : β) :
    (table.insert key value).toList.Perm ((key, value) :: (table.erase key).toList) := by
  classical
  have found : (table.insert key value)[key]? = some value := by simp
  have rest : (table.insert key value).erase key = table.erase key := by
    apply Std.ExtTreeMap.ext_getElem?
    intro other
    simp only [getElem?_erase, getElem?_insert]
    split <;> rfl
  simpa only [rest] using toList_erase found

/-- Nothing is erased under a key that the table does not hold. -/
theorem erase_absent {table : Std.ExtTreeMap α β} {key : α} (absent : table[key]? = none) :
    table.erase key = table := by
  classical
  apply Std.ExtTreeMap.ext_getElem?
  intro other
  rw [getElem?_erase]
  split
  · rename_i same
    rw [← same, absent]
  · rfl

theorem insertIfNew_absent {table : Std.ExtTreeMap α β} {key : α} (absent : table[key]? = none) (value : β) :
    table.insertIfNew key value = table.insert key value := by
  classical
  apply Std.ExtTreeMap.ext_getElem?
  intro other
  have outside : key ∉ table := by
    rw [Std.ExtTreeMap.mem_iff_isSome_getElem?, absent]
    exact Bool.false_ne_true
  rw [Std.ExtTreeMap.getElem?_insertIfNew, getElem?_insert]
  by_cases same : key = other
  · subst other
    simp [outside]
  · simp [same]

theorem insertIfNew_present {table : Std.ExtTreeMap α β} {key : α} {held : β} (found : table[key]? = some held)
    (value : β) : table.insertIfNew key value = table := by
  classical
  apply Std.ExtTreeMap.ext_getElem?
  intro other
  have inside : key ∈ table := Std.ExtTreeMap.mem_iff_isSome_getElem?.mpr (by rw [found]; rfl)
  rw [Std.ExtTreeMap.getElem?_insertIfNew, if_neg fun absent => absent.2 inside]

/-- Putting in what is there changes nothing. -/
theorem insert_same {table : Std.ExtTreeMap α β} {key : α} {value : β} (found : table[key]? = some value) :
    table.insert key value = table := by
  classical
  apply Std.ExtTreeMap.ext_getElem?
  intro other
  rw [getElem?_insert]
  split
  · rename_i same
    rw [← same, found]
  · rfl

variable [DecidableEq α]

theorem contains_insert (set : Std.ExtTreeSet α) (key other : α) :
    (set.insert key).contains other = (decide (key = other) || set.contains other) := by
  rw [Bool.eq_iff_iff]
  simp

theorem contains_erase (set : Std.ExtTreeSet α) (key other : α) :
    (set.erase key).contains other = (!decide (key = other) && set.contains other) := by
  rw [Bool.eq_iff_iff]
  simp

/-- A set lists each of its members once. -/
theorem count_listed (set : Std.ExtTreeSet α) (key : α) :
    set.toList.count key = (set.contains key).toNat := by
  rw [(nodup_listed set).count]
  simp only [Std.ExtTreeSet.mem_toList, ← Std.ExtTreeSet.contains_iff_mem]
  cases set.contains key <;> rfl

end TerrainStream.Cell.Table
