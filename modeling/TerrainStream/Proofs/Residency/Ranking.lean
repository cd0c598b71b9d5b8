import TerrainStream.Proofs.Residency.Backlog

/-! The rank of requests. Of two requests for different cells one outranks the other, and what is taken from a
backlog outranks what is left in it, which is as it was. -/

namespace TerrainStream.Residency

open Cell

theorem Priority.eq_iff {p q : Priority} : p = q ↔ p.level = q.level := by
  obtain ⟨level⟩ := p
  rw [mk.injEq]

namespace Request

/-- One request is served before another: a higher priority comes first, then a later version, then a lower key. -/
def Outranks (a b : Request) : Prop :=
  b.priority.level < a.priority.level ∨
    (a.priority = b.priority ∧ (b.version < a.version ∨ (a.version = b.version ∧ a.key.raw < b.key.raw)))

instance (a b : Request) : Decidable (a.Outranks b) := inferInstanceAs (Decidable (_ ∨ _))

variable {a b : Request}

theorem outranks_iff : a.Outranks b ↔ b.priority.level < a.priority.level ∨
    (a.priority.level = b.priority.level ∧ (b.version.toNat < a.version.toNat ∨
      (a.version.toNat = b.version.toNat ∧ a.key.raw.toNat < b.key.raw.toNat))) := by
  rw [Outranks, Priority.eq_iff, UInt32.lt_iff_toNat_lt, ← UInt32.toNat_inj, UInt64.lt_iff_toNat_lt]

/-- A request ranks with another unless that one is served before it. -/
theorem ranks_iff : a.ranks b = true ↔ ¬ b.Outranks a := by
  rw [outranks_iff, ranks]
  split
  case isTrue apart =>
    rw [Ne, Priority.eq_iff] at apart
    rw [decide_eq_true_iff]
    omega
  case isFalse level =>
    rw [Ne, not_not, Priority.eq_iff] at level
    split
    case isTrue apart =>
      rw [Ne, ← UInt32.toNat_inj] at apart
      rw [decide_eq_true_iff, UInt32.lt_iff_toNat_lt]
      omega
    case isFalse version =>
      rw [Ne, not_not, ← UInt32.toNat_inj] at version
      rw [decide_eq_true_iff, UInt64.le_iff_toNat_le]
      omega

/-- Of two requests for different cells one outranks the other. -/
theorem Outranks.total (apart : a.key ≠ b.key) : a.Outranks b ∨ b.Outranks a := by
  have raws : a.key.raw.toNat ≠ b.key.raw.toNat := fun same => apart (by
    cases ha : a.key
    cases hb : b.key
    simp_all [UInt64.toNat_inj])
  rw [outranks_iff, outranks_iff]
  omega

theorem Outranks.asymm (above : a.Outranks b) : ¬ b.Outranks a := by
  rw [outranks_iff] at *
  omega

theorem ranks_trans (a b c : Request) (first : a.ranks b = true) (second : b.ranks c = true) : a.ranks c = true := by
  rw [ranks_iff, outranks_iff] at *
  omega

theorem ranks_total (a b : Request) : (a.ranks b || b.ranks a) = true := by
  rw [Bool.or_eq_true, ranks_iff, ranks_iff, outranks_iff, outranks_iff]
  omega

end Request

namespace Backlog

variable {b : Backlog} {key : Key} {r other : Request} {most : Nat}

/-- No two requests wait for one cell. -/
theorem Keyed.apart (keyed : b.Keyed) : b.toList.Pairwise fun a b => a.key ≠ b.key := by
  rw [toList, List.pairwise_map]
  refine Std.ExtTreeMap.distinct_keys_toList.imp_of_mem ?_
  rintro ⟨key, r⟩ ⟨key', r'⟩ listed listed' distinct same
  refine distinct ?_
  rw [← keyed key r (Table.mem_toList.mp listed), ← keyed key' r' (Table.mem_toList.mp listed'), same]
  exact Std.ReflCmp.compare_self

/-- The ranked requests outrank each other in turn. -/
theorem Keyed.ranked (keyed : b.Keyed) : b.ranked.Pairwise Request.Outranks := by
  have apart := keyed.apart.perm b.ranked_perm.symm fun apart => apart.symm
  have sorted : b.ranked.Pairwise fun a b => a.ranks b = true :=
    List.pairwise_mergeSort Request.ranks_trans Request.ranks_total b.toList
  refine apart.imp₂ (fun a b apart ranks => ?_) sorted
  exact (Request.Outranks.total apart).resolve_right (Request.ranks_iff.mp ranks)

theorem takeRanked_length (b : Backlog) (most : Nat) : (b.takeRanked most).2.length = min most b.size := by
  rw [takeRanked, List.length_take, b.ranked_perm.length_eq, toList, List.length_map, Std.ExtTreeMap.length_toList]
  rfl

/-- The requests that are not taken are left. -/
theorem Keyed.takeRanked_size (keyed : b.Keyed) (most : Nat) :
    (b.takeRanked most).1.size = b.size - min most b.size := by
  have count (b : Backlog) : b.toList.length = b.size := by
    rw [toList, List.length_map, Std.ExtTreeMap.length_toList]
    rfl
  have parts := (takeRanked_perm keyed most).2.length_eq
  rw [List.length_append, takeRanked_length, count, count] at parts
  omega

/-- The requests taken are in the order in which they are served. -/
theorem Keyed.takeRanked_pairwise (keyed : b.Keyed) (most : Nat) :
    (b.takeRanked most).2.Pairwise Request.Outranks := keyed.ranked.take

/-- Taking requests leaves the others as they were. -/
theorem get?_takeRanked (b : Backlog) (most : Nat) (key : Key) : (b.takeRanked most).1.get? key =
    if key ∈ (b.takeRanked most).2.map (·.key) then none else b.get? key := by
  have erased (taken : List Request) (byKey : KeyMap Request) :
      (taken.foldl (fun m r => m.erase r.key) byKey)[key]? =
        if key ∈ taken.map (·.key) then none else byKey[key]? := by
    induction taken generalizing byKey with
    | nil => simp
    | cons r taken ih =>
      rw [List.foldl_cons, ih, Table.getElem?_erase, List.map_cons]
      by_cases here : r.key = key
      · simp [here]
      · have elsewhere : key ≠ r.key := Ne.symm here
        simp [here, elsewhere]
  exact erased _ b.byKey

theorem Keyed.takeRanked_listed (keyed : b.Keyed) (taken : r ∈ (b.takeRanked most).2) : b.get? r.key = some r :=
  keyed.get? (b.ranked_perm.mem_iff.mp (List.mem_of_mem_take taken))

/-- Every request taken outranks every request that is left. -/
theorem Keyed.takeRanked_outranks (keyed : b.Keyed) (taken : r ∈ (b.takeRanked most).2)
    (left : (b.takeRanked most).1.get? key = some other) : r.Outranks other := by
  have split : (b.ranked.take most ++ b.ranked.drop most).Pairwise Request.Outranks := by
    rw [List.take_append_drop]
    exact keyed.ranked
  rw [get?_takeRanked] at left
  split at left
  · cases left
  · rename_i absent
    have listed : other ∈ b.ranked.take most ++ b.ranked.drop most := by
      rw [List.take_append_drop]
      exact b.ranked_perm.mem_iff.mpr (mem_toList.mpr ⟨key, left⟩)
    refine (List.pairwise_append.mp split).2.2 r taken other ((List.mem_append.mp listed).resolve_left fun same => ?_)
    exact absent (keyed key other left ▸ List.mem_map_of_mem same)

/-- What is left ranks as it did before the others were taken. -/
theorem Keyed.takeRanked_ranked (keyed : b.Keyed) (most : Nat) :
    (b.takeRanked most).1.ranked = b.ranked.drop most := by
  obtain ⟨kept, parts⟩ := takeRanked_perm keyed most
  have listed : (b.ranked.take most ++ b.ranked.drop most).Perm (b.ranked.take most ++ (b.takeRanked most).1.ranked) := by
    rw [List.take_append_drop]
    exact b.ranked_perm.trans (parts.trans ((ranked_perm _).symm.append_left _))
  apply List.Perm.eq_of_pairwise
  · intro r other _ _ (above : r.Outranks other) below
    exact (above.asymm below).elim
  · exact kept.ranked
  · exact keyed.ranked.drop
  · exact ((List.perm_append_left_iff _).mp listed).symm

/-- What is taken in two goes is what is taken in one, and so is what is left. -/
theorem Keyed.takeRanked_takeRanked (keyed : b.Keyed) (most more : Nat) :
    b.takeRanked (most + more) = (((b.takeRanked most).1.takeRanked more).1,
      (b.takeRanked most).2 ++ ((b.takeRanked most).1.takeRanked more).2) := by
  simp only [takeRanked.eq_1 _ (most + more), takeRanked.eq_1 _ more, keyed.takeRanked_ranked, List.take_add,
    List.foldl_append]
  rfl

end Backlog

end TerrainStream.Residency
