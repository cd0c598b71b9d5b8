import TerrainStream.Proofs.Shape.Partition

/-! No two boxes of a decomposition can be made one. A block ends along an axis where the next layer has a spot that is
air or that a block before it holds, and no block after it can hold that whole layer. -/

namespace TerrainStream

open Cell Shape

namespace Cell

/-! ### Axes -/

inductive Axis
  | x
  | y
  | z
deriving DecidableEq, Repr

namespace Spot

def along (p : Spot) : Axis → Nat
  | .x => p.x
  | .y => p.y
  | .z => p.z

/-- The spot moved along an axis to another place. -/
def moved (p : Spot) (axis : Axis) (place : Nat) : Spot :=
  match axis with
  | .x => { p with x := place }
  | .y => { p with y := place }
  | .z => { p with z := place }

variable {p q : Spot} {axis other : Axis} {place : Nat}

theorem along_moved : (p.moved axis place).along axis = place := by cases axis <;> rfl

theorem along_moved_of_ne (apart : other ≠ axis) : (p.moved axis place).along other = p.along other := by
  cases axis <;> cases other <;> first | rfl | exact absurd rfl apart

theorem ext_along (same : ∀ axis, p.along axis = q.along axis) : p = q := by
  obtain ⟨x, y, z⟩ := p
  obtain ⟨x', y', z'⟩ := q
  obtain rfl : x = x' := same .x
  obtain rfl : y = y' := same .y
  obtain rfl : z = z' := same .z
  rfl

theorem within_iff_along {n : Nat} : p.within n = true ↔ ∀ axis, p.along axis < n := by
  rw [within_iff]
  constructor
  · rintro ⟨x, y, z⟩ (_ | _ | _)
    · exact x
    · exact y
    · exact z
  · intro all
    exact ⟨all .x, all .y, all .z⟩

/-- A spot that lies further on along one axis, and nowhere further back, comes later. -/
theorem before_of_along (further : p.along axis < q.along axis)
    (level : ∀ other, other ≠ axis → p.along other = q.along other) : p.Before q := by
  cases axis with
  | x => exact .inr ⟨level .y nofun, .inr ⟨level .z nofun, further⟩⟩
  | y => exact .inl further
  | z => exact .inr ⟨level .y nofun, .inl further⟩

/-- A spot that comes earlier lies further back along some axis. -/
theorem Before.exists_along (before : p.Before q) : ∃ axis, p.along axis < q.along axis := by
  rcases before with layer | ⟨_, row | ⟨_, place⟩⟩
  · exact ⟨.y, layer⟩
  · exact ⟨.z, row⟩
  · exact ⟨.x, place⟩

theorem Before.asymm (before : p.Before q) : ¬ q.Before p := by
  unfold Before at *
  omega

end Spot

end Cell

namespace Shape

variable {snap : Snapshot} {marks : Array Bool} {a b c : Block} {p q : Spot} {axis : Axis} {n : Nat}

/-! ### Blocks along an axis -/

theorem Block.contains_iff_along :
    b.contains p = true ↔ ∀ axis, b.lo.along axis ≤ p.along axis ∧ p.along axis < b.hi.along axis := by
  rw [contains_iff]
  constructor
  · rintro ⟨x, y, z⟩ (_ | _ | _)
    · exact x
    · exact y
    · exact z
  · intro all
    exact ⟨all .x, all .y, all .z⟩

/-- A block with spots in it. -/
def Block.Filled (b : Block) : Prop := ∀ axis, b.lo.along axis < b.hi.along axis

theorem Block.Regular.filled (regular : b.Regular n) : b.Filled := by
  rintro (_ | _ | _)
  · exact regular.wide
  · exact regular.high
  · exact regular.deep

theorem Block.Inside.along (inside : b.Inside n) : ∀ axis, b.hi.along axis ≤ n := by
  rintro (_ | _ | _)
  · exact inside.x
  · exact inside.y
  · exact inside.z

theorem Block.Filled.lo (filled : b.Filled) : b.contains b.lo = true :=
  contains_iff_along.mpr fun axis => ⟨Nat.le_refl _, filled axis⟩

/-- The last spot of a block. -/
def Block.last (b : Block) : Spot := ⟨b.hi.x - 1, b.hi.y - 1, b.hi.z - 1⟩

theorem Block.along_last (b : Block) (axis : Axis) : b.last.along axis = b.hi.along axis - 1 := by cases axis <;> rfl

theorem Block.Filled.last (filled : b.Filled) : b.contains b.last = true := by
  refine contains_iff_along.mpr fun axis => ?_
  have extent := filled axis
  rw [along_last]
  omega

theorem Block.filled_of_contains (holds : b.contains p = true) : b.Filled := fun axis =>
  Nat.lt_of_le_of_lt (contains_iff_along.mp holds axis).1 (contains_iff_along.mp holds axis).2

/-- The layer of spots that comes after a block along an axis. -/
def Block.ahead (b : Block) (axis : Axis) : Block :=
  ⟨b.lo.moved axis (b.hi.along axis), b.hi.moved axis (b.hi.along axis + 1)⟩

theorem Block.contains_ahead : (b.ahead axis).contains p = true ↔ p.along axis = b.hi.along axis ∧
    ∀ other, other ≠ axis → b.lo.along other ≤ p.along other ∧ p.along other < b.hi.along other := by
  rw [contains_iff_along, ahead]
  constructor
  · intro all
    refine ⟨?_, fun other apart => ?_⟩
    · have here := all axis
      rw [Spot.along_moved, Spot.along_moved] at here
      omega
    · have there := all other
      rwa [Spot.along_moved_of_ne apart, Spot.along_moved_of_ne apart] at there
  · rintro ⟨here, there⟩ other
    by_cases same : other = axis
    · subst other
      rw [Spot.along_moved, Spot.along_moved]
      omega
    · rw [Spot.along_moved_of_ne same, Spot.along_moved_of_ne same]
      exact there other same

/-- A block that another one continues along an axis: the first ends where the second starts, and both reach equally far
along the other axes. -/
structure Block.Adjoins (a b : Block) (axis : Axis) : Prop where
  touch : a.hi.along axis = b.lo.along axis
  lo : ∀ other, other ≠ axis → a.lo.along other = b.lo.along other
  hi : ∀ other, other ≠ axis → a.hi.along other = b.hi.along other

/-- The block that continues another one holds the whole layer after it. -/
theorem Block.Adjoins.holds (adjoins : a.Adjoins b axis) (filled : b.Filled)
    (next : (a.ahead axis).contains p = true) : b.contains p = true := by
  obtain ⟨here, there⟩ := contains_ahead.mp next
  refine contains_iff_along.mpr fun other => ?_
  by_cases same : other = axis
  · subst other
    rw [here, adjoins.touch]
    exact ⟨Nat.le_refl _, filled axis⟩
  · rw [← adjoins.lo other same, ← adjoins.hi other same]
    exact there other same

/-! ### Blocks that are one together -/

/-- Of two blocks that make up a block together, the first reaches as far as the second across the axis that parts
them. -/
private theorem reaches (union : ∀ p, c.contains p = (a.contains p || b.contains p)) (first : a.Filled)
    (apart : ∀ p, a.contains p = true → ∀ q, b.contains q = true → p.along axis ≠ q.along axis)
    (holds : b.contains q = true) (other : Axis) (across : other ≠ axis) :
    a.lo.along other ≤ q.along other ∧ q.along other < a.hi.along other := by
  have both : c.contains a.lo = true ∧ c.contains q = true := by
    rw [union, union, first.lo, holds, Bool.or_true]
    exact ⟨rfl, rfl⟩
  -- A block holds with two spots also the second one moved next to the first.
  have mixed : c.contains (q.moved axis (a.lo.along axis)) = true := by
    refine Block.contains_iff_along.mpr fun other => ?_
    by_cases same : other = axis
    · subst other
      rw [Spot.along_moved]
      exact Block.contains_iff_along.mp both.1 axis
    · rw [Spot.along_moved_of_ne same]
      exact Block.contains_iff_along.mp both.2 other
  rw [union, Bool.or_eq_true] at mixed
  rcases mixed with here | there
  · have reach := Block.contains_iff_along.mp here other
    rwa [Spot.along_moved_of_ne across] at reach
  · exact absurd Spot.along_moved.symm (apart a.lo first.lo _ there)

private theorem adjoins_of_le (union : ∀ p, c.contains p = (a.contains p || b.contains p)) (first : a.Filled)
    (second : b.Filled) (parted : a.hi.along axis ≤ b.lo.along axis) : a.Adjoins b axis := by
  have apart (p : Spot) (left : a.contains p = true) (q : Spot) (right : b.contains q = true) :
      p.along axis ≠ q.along axis := by
    have below := (Block.contains_iff_along.mp left axis).2
    have above := (Block.contains_iff_along.mp right axis).1
    omega
  have swapped (p : Spot) : c.contains p = (b.contains p || a.contains p) := by rw [union, Bool.or_comm]
  have forth (q : Spot) := reaches (q := q) union first apart
  have back (q : Spot) := reaches (q := q) swapped second fun p left q right => (apart q right p left).symm
  refine ⟨Nat.le_antisymm parted ?_, fun other across => ?_, fun other across => ?_⟩
  · -- The spot right after the first block, in line with the second, would be in the gap between them.
    by_contra gap
    have both : c.contains a.lo = true ∧ c.contains b.lo = true := by
      rw [union, union, first.lo, second.lo, Bool.or_true]
      exact ⟨rfl, rfl⟩
    have lost : c.contains (b.lo.moved axis (a.hi.along axis)) = true := by
      refine Block.contains_iff_along.mpr fun other => ?_
      have left := Block.contains_iff_along.mp both.1 other
      have right := Block.contains_iff_along.mp both.2 other
      by_cases same : other = axis
      · subst other
        have extent := first axis
        rw [Spot.along_moved]
        omega
      · rwa [Spot.along_moved_of_ne same]
    rw [union, Bool.or_eq_true] at lost
    rcases lost with here | there
    · have reach := Block.contains_iff_along.mp here axis
      rw [Spot.along_moved] at reach
      omega
    · have reach := Block.contains_iff_along.mp there axis
      rw [Spot.along_moved] at reach
      omega
  · exact Nat.le_antisymm (forth _ second.lo other across).1 (back _ first.lo other across).1
  · have far := (forth _ second.last other across).2
    have near := (back _ first.last other across).2
    rw [Block.along_last] at far near
    have extent := first other
    have extent' := second other
    omega

/-- Two blocks without a common spot that make up a block together adjoin. -/
theorem Block.adjoins_of_union (union : ∀ p, c.contains p = (a.contains p || b.contains p)) (first : a.Filled)
    (second : b.Filled) (disjoint : ∀ p, a.contains p = true → b.contains p = false) :
    ∃ axis, a.Adjoins b axis ∨ b.Adjoins a axis := by
  have swapped (p : Spot) : c.contains p = (b.contains p || a.contains p) := by rw [union, Bool.or_comm]
  by_cases parted : ∃ axis, a.hi.along axis ≤ b.lo.along axis ∨ b.hi.along axis ≤ a.lo.along axis
  · obtain ⟨axis, left | right⟩ := parted
    · exact ⟨axis, .inl (adjoins_of_le union first second left)⟩
    · exact ⟨axis, .inr (adjoins_of_le swapped second first right)⟩
  · -- Blocks that overlap along every axis have the spot where both have started.
    simp only [not_exists, not_or, Nat.not_le] at parted
    have common (axis : Axis) : (Spot.mk (max a.lo.x b.lo.x) (max a.lo.y b.lo.y) (max a.lo.z b.lo.z)).along axis =
        max (a.lo.along axis) (b.lo.along axis) := by cases axis <;> rfl
    have left : a.contains ⟨max a.lo.x b.lo.x, max a.lo.y b.lo.y, max a.lo.z b.lo.z⟩ = true := by
      refine contains_iff_along.mpr fun axis => ?_
      have extent := first axis
      have overlap := parted axis
      rw [common]
      omega
    have right : b.contains ⟨max a.lo.x b.lo.x, max a.lo.y b.lo.y, max a.lo.z b.lo.z⟩ = true := by
      refine contains_iff_along.mpr fun axis => ?_
      have extent := second axis
      have overlap := parted axis
      rw [common]
      omega
    rw [disjoint _ left] at right
    cases right

/-! ### Where growing stops -/

theorem advance_stops (f : Nat → Bool) (start count : Nat) (short : advance f start count < start + count) :
    f (advance f start count) = false := by
  induction count generalizing start with
  | zero => exact absurd short (Nat.lt_irrefl _)
  | succ count ih =>
    unfold advance at short ⊢
    split
    · rename_i here
      rw [if_pos here] at short
      exact ih (start + 1) (by omega)
    · rename_i shut
      exact Bool.not_eq_true _ ▸ shut

theorem allBetween_false {start stop : Nat} {f : Nat → Bool} (fails : allBetween start stop f = false) :
    ∃ k, start ≤ k ∧ k < stop ∧ f k = false := by
  rw [← Bool.not_eq_true, allBetween_iff] at fails
  push Not at fails
  obtain ⟨k, from', below, wrong⟩ := fails
  exact ⟨k, from', below, Bool.not_eq_true _ ▸ wrong⟩

/-- A block that does not reach the end of its cell along an axis has stopped at a spot that is not open. -/
theorem grow_stops (inside : p.within snap.size = true) (axis : Axis)
    (short : (grow snap marks p).hi.along axis < snap.size) :
    ∃ q, ((grow snap marks p).ahead axis).contains q = true ∧ isOpen snap marks q = false := by
  obtain ⟨wide, high, deep⟩ := Spot.within_iff.mp inside
  simp only [Block.contains_ahead]
  unfold grow at short ⊢
  dsimp only at short ⊢
  obtain ⟨widened, _, _⟩ :=
    advance_spec (fun x => isOpen snap marks ⟨x, p.y, p.z⟩) (p.x + 1) (snap.size - (p.x + 1))
  have row := advance_stops (fun x => isOpen snap marks ⟨x, p.y, p.z⟩) (p.x + 1) (snap.size - (p.x + 1))
  generalize advance (fun x => isOpen snap marks ⟨x, p.y, p.z⟩) (p.x + 1) (snap.size - (p.x + 1)) = x at *
  obtain ⟨deepened, _, _⟩ := advance_spec
    (fun z => allBetween p.x x fun x => isOpen snap marks ⟨x, p.y, z⟩) (p.z + 1) (snap.size - (p.z + 1))
  have layer := advance_stops
    (fun z => allBetween p.x x fun x => isOpen snap marks ⟨x, p.y, z⟩) (p.z + 1) (snap.size - (p.z + 1))
  generalize advance (fun z => allBetween p.x x fun x => isOpen snap marks ⟨x, p.y, z⟩) (p.z + 1)
    (snap.size - (p.z + 1)) = z at *
  obtain ⟨heightened, _, _⟩ := advance_spec
    (fun y => allBetween p.z z fun z => allBetween p.x x fun x => isOpen snap marks ⟨x, y, z⟩)
    (p.y + 1) (snap.size - (p.y + 1))
  have stack := advance_stops
    (fun y => allBetween p.z z fun z => allBetween p.x x fun x => isOpen snap marks ⟨x, y, z⟩)
    (p.y + 1) (snap.size - (p.y + 1))
  generalize advance (fun y => allBetween p.z z fun z => allBetween p.x x fun x => isOpen snap marks ⟨x, y, z⟩)
    (p.y + 1) (snap.size - (p.y + 1)) = y at *
  cases axis with
  | x =>
    refine ⟨⟨x, p.y, p.z⟩, ⟨rfl, ?_⟩, row (by simp only [Spot.along] at short; omega)⟩
    rintro (_ | _ | _) apart
    · exact absurd rfl apart
    · exact ⟨Nat.le_refl _, heightened⟩
    · exact ⟨Nat.le_refl _, deepened⟩
  | z =>
    obtain ⟨k, left, right, shut⟩ := allBetween_false (layer (by simp only [Spot.along] at short; omega))
    refine ⟨⟨k, p.y, z⟩, ⟨rfl, ?_⟩, shut⟩
    rintro (_ | _ | _) apart
    · exact ⟨left, right⟩
    · exact ⟨Nat.le_refl _, heightened⟩
    · exact absurd rfl apart
  | y =>
    obtain ⟨m, front, back, blocked⟩ := allBetween_false (stack (by simp only [Spot.along] at short; omega))
    obtain ⟨k, left, right, shut⟩ := allBetween_false blocked
    refine ⟨⟨k, y, m⟩, ⟨rfl, ?_⟩, shut⟩
    rintro (_ | _ | _) apart
    · exact ⟨left, right⟩
    · exact absurd rfl apart
    · exact ⟨front, back⟩

/-- A block of solid spots that the blocks before it have left over, and that cannot go on: along each axis it reaches
the end of the cell, or the next layer has a spot that is air or that a block before it holds. -/
structure Halted (snap : Snapshot) (before : List Block) (b : Block) : Prop where
  solid : ∀ p, b.contains p = true → snap.solidAt p = true
  fresh : ∀ p, b.contains p = true → ∀ earlier ∈ before, earlier.contains p = false
  stopped : ∀ axis, b.hi.along axis < snap.size →
    ∃ p, (b.ahead axis).contains p = true ∧ (snap.solidAt p = false ∨ ∃ earlier ∈ before, earlier.contains p = true)

/-- While the marks show the blocks so far, what grows next is halted by them. -/
private theorem grow_halted {before : List Block} (inside : p.within snap.size = true)
    (here : isOpen snap marks p = true)
    (shown : ∀ q, q.within snap.size = true → covered snap marks q = before.any (·.contains q)) :
    Halted snap before (grow snap marks p) := by
  have regular := grow_regular inside here
  obtain ⟨_, _, _, _, _, unused⟩ := grow_spec inside here
  refine ⟨fun q holds => (isOpen_iff.mp (unused q holds)).1, fun q holds earlier listed => ?_, fun axis short => ?_⟩
  · have bare := (isOpen_iff.mp (unused q holds)).2
    rw [shown q (regular.toInside.within holds), List.any_eq_false] at bare
    exact Bool.not_eq_true _ ▸ bare earlier listed
  · obtain ⟨q, next, shut⟩ := grow_stops inside axis short
    refine ⟨q, next, ?_⟩
    have there : q.within snap.size = true := by
      obtain ⟨place, others⟩ := Block.contains_ahead.mp next
      refine Spot.within_iff_along.mpr fun other => ?_
      by_cases same : other = axis
      · rw [same, place]
        exact short
      · exact Nat.lt_of_lt_of_le (others other same).2 (regular.toInside.along other)
    cases solid : snap.solidAt q with
    | false => exact .inl rfl
    | true =>
      have marked : covered snap marks q = true := by
        by_contra bare
        exact absurd (isOpen_iff.mpr ⟨solid, Bool.not_eq_true _ ▸ bare⟩) (by rw [shut]; nofun)
      rw [shown q there, List.any_eq_true] at marked
      exact .inr marked

private theorem blocks_halted (spots : List Spot) (earlier : List Block)
    (within : ∀ p ∈ spots, p.within snap.size = true) (sized : marks.size = snap.size * snap.size * snap.size)
    (shown : ∀ q, q.within snap.size = true → covered snap marks q = earlier.any (·.contains q))
    {before after : List Block} (cut : blocks snap spots marks = before ++ b :: after) :
    Halted snap (earlier ++ before) b := by
  induction spots generalizing marks earlier before with
  | nil => simp [blocks] at cut
  | cons p rest ih =>
    have inside := within p List.mem_cons_self
    have later (q : Spot) (listed : q ∈ rest) : q.within snap.size = true := within q (List.mem_cons_of_mem _ listed)
    unfold blocks at cut
    split at cut
    · rename_i here
      cases before with
      | nil =>
        obtain ⟨rfl, _⟩ := List.cons.inj cut
        rw [List.append_nil]
        exact grow_halted inside here shown
      | cons first before =>
        obtain ⟨rfl, rest⟩ := List.cons.inj cut
        obtain ⟨resized, covers⟩ := mark_spec (grow_regular inside here).toInside sized
        rw [List.append_cons]
        refine ih _ later resized (fun q there => ?_) rest
        rw [covers q there, shown q there, List.any_append, List.any_cons, List.any_nil, Bool.or_false, Bool.or_comm]
    · exact ih earlier later sized shown cut

/-- Each block of a decomposition is halted by those before it. -/
theorem decomposition_halted {before after : List Block} (cut : decomposition snap = before ++ b :: after) :
    Halted snap before b := by
  refine blocks_halted (Spot.cube snap.size) [] (fun _ => Spot.mem_cube.mp) Array.size_replicate (fun q _ => ?_) cut
  rw [covered, Array.getD_eq_getD_getElem?, Array.getElem?_replicate]
  split <;> rfl

/-! ### Two blocks of a decomposition -/

private theorem parted {α : Type} {xs : List α} {x y : α} (left : x ∈ xs) (right : y ∈ xs) (apart : x ≠ y) :
    ∃ before middle after, xs = before ++ x :: middle ++ y :: after ∨ xs = before ++ y :: middle ++ x :: after := by
  obtain ⟨before, after, rfl⟩ := List.append_of_mem left
  rcases List.mem_append.mp right with early | late
  · obtain ⟨first, middle, rfl⟩ := List.append_of_mem early
    exact ⟨first, middle, after, .inr (by simp)⟩
  · obtain ⟨middle, last, rfl⟩ := List.append_of_mem ((List.mem_cons.mp late).resolve_left apart.symm)
    exact ⟨before, middle, last, .inl (by simp)⟩

/-- Two different blocks have no spot in common. -/
theorem decomposition_disjoint (left : a ∈ decomposition snap) (right : b ∈ decomposition snap) (apart : a ≠ b) (p : Spot)
    (holds : a.contains p = true) : b.contains p = false := by
  obtain ⟨before, middle, after, cut | cut⟩ := parted left right apart
  · by_contra both
    have unused := (decomposition_halted cut).fresh p (Bool.not_eq_false _ ▸ both) a (by simp)
    rw [holds] at unused
    cases unused
  · exact (decomposition_halted cut).fresh p holds b (by simp)

/-- No block is continued by another one. -/
theorem decomposition_unadjoined (left : a ∈ decomposition snap) (right : b ∈ decomposition snap) (axis : Axis) :
    ¬ a.Adjoins b axis := by
  intro adjoins
  have first := (decomposition_regular a left).filled
  have second := decomposition_regular b right
  have further : a.lo.along axis < b.lo.along axis := adjoins.touch ▸ first axis
  have apart : a ≠ b := fun same => absurd further (same ▸ Nat.lt_irrefl _)
  have sorted := decomposition_sorted snap
  obtain ⟨before, middle, after, cut | cut⟩ := parted left right apart
  · have halted : Halted snap before a := decomposition_halted (cut.trans (List.append_assoc _ _ _))
    have short : a.hi.along axis < snap.size :=
      adjoins.touch ▸ Nat.lt_of_lt_of_le (second.filled axis) (second.toInside.along axis)
    obtain ⟨p, next, stop⟩ := halted.stopped axis short
    have holds := adjoins.holds second.filled next
    have later := decomposition_halted cut
    rcases stop with air | ⟨earlier, listed, taken⟩
    · rw [later.solid p holds] at air
      cases air
    · rw [later.fresh p holds earlier (by simp [listed])] at taken
      cases taken
  · rw [cut] at sorted
    have back : b.lo.Before a.lo := (List.pairwise_append.mp sorted).2.2 b (by simp) a (by simp)
    exact back.asymm (Spot.before_of_along further adjoins.lo)

/-! ### A cell filled by one block -/

/-- Every filled spot is in some block. -/
theorem decomposition_covers (whole : snap.Whole) (filled : snap.fills p = true) :
    ∃ b ∈ decomposition snap, b.contains p = true := by
  have outcome := merge_outcome whole (decomposition snap).length .empty
  rw [if_pos (Nat.le_refl _)] at outcome
  rcases merge_spec whole (decomposition snap).length .empty with ⟨_, shape, ended, exact⟩ | ⟨_, _, ended, _⟩
  · rw [ended] at outcome
    cases outcome
    have hit := exact.hits p
    rw [filled, Shape.hits] at hit
    have some : 0 < (((decomposition snap).map Block.toBox).toArray).countP (·.contains p) := by
      rw [hit]
      exact Nat.one_pos
    obtain ⟨box, listed, holds⟩ := Array.countP_pos_iff.mp some
    obtain ⟨b, there, rfl⟩ := List.mem_map.mp (List.mem_toArray.mp listed)
    refine ⟨b, there, ?_⟩
    rw [← (decomposition_regular b there).block_toBox whole.bounded]
    exact holds
  · rw [ended] at outcome
    cases outcome

/-- A block within another one reaches no further along any axis. -/
theorem Block.bounds_of_within (filled : b.Filled) (within : ∀ p, b.contains p = true → c.contains p = true)
    (axis : Axis) : c.lo.along axis ≤ b.lo.along axis ∧ b.hi.along axis ≤ c.hi.along axis := by
  have first := (contains_iff_along.mp (within b.lo filled.lo) axis).1
  have last := (contains_iff_along.mp (within b.last filled.last) axis).2
  have extent := filled axis
  rw [along_last] at last
  omega

/-- As long as it falls short, so does the layer that comes next to it. -/
theorem Block.ahead_of_within (filled : b.Filled) (within : ∀ p, b.contains p = true → c.contains p = true)
    (short : b.hi.along axis < c.hi.along axis) (next : (b.ahead axis).contains p = true) : c.contains p = true := by
  obtain ⟨place, others⟩ := contains_ahead.mp next
  refine contains_iff_along.mpr fun other => ?_
  have bounds := bounds_of_within filled within other
  by_cases here : other = axis
  · subst other
    have extent := filled axis
    omega
  · have inside := others other here
    omega

/-- The first block of a decomposition goes as far as the filled spots do. -/
private theorem Halted.full (halted : Halted snap [] b) (filled : b.Filled)
    (within : ∀ p, b.contains p = true → c.contains p = true) (same : ∀ p, snap.fills p = c.contains p)
    (filling : c.Filled) : b.hi = c.hi := by
  refine Spot.ext_along fun axis => ?_
  have bounds := Block.bounds_of_within filled within axis
  by_contra apart
  have inside := Spot.within_iff_along.mp (Snapshot.fills_iff.mp ((same c.last).trans filling.last)).1 axis
  rw [Block.along_last] at inside
  obtain ⟨p, next, air | ⟨_, none, _⟩⟩ := halted.stopped axis (by omega)
  · have solid := Block.ahead_of_within filled within (by omega) next
    rw [← same, Snapshot.fills_iff, air] at solid
    cases solid.2
  · exact absurd none List.not_mem_nil

/-- A cell whose filled spots are those of one block is decomposed into that block. -/
theorem decomposition_block (whole : snap.Whole) (filled : c.Filled) (same : ∀ p, snap.fills p = c.contains p) :
    decomposition snap = [c] := by
  obtain ⟨b, listed, holds⟩ := decomposition_covers whole ((same c.lo).trans filled.lo)
  have within (e : Block) (there : e ∈ decomposition snap) (p : Spot) (holds : e.contains p = true) :
      c.contains p = true := by
    obtain ⟨before, after, cut⟩ := List.append_of_mem there
    rw [← same, Snapshot.fills_iff]
    exact ⟨(decomposition_regular e there).toInside.within holds, (decomposition_halted cut).solid p holds⟩
  have bounds (e : Block) (there : e ∈ decomposition snap) :=
    Block.bounds_of_within (decomposition_regular e there).filled (within e there)
  obtain ⟨before, after, cut⟩ := List.append_of_mem listed
  have corner : b.lo = c.lo := Spot.ext_along fun axis =>
    Nat.le_antisymm (Block.contains_iff_along.mp holds axis).1 (bounds b listed axis).1
  -- Blocks come in the order of their corners, and none is ahead of the first corner of all.
  obtain rfl : before = [] := by
    refine List.eq_nil_iff_forall_not_mem.mpr fun e early => ?_
    have sorted := decomposition_sorted snap
    rw [cut] at sorted
    have order : e.lo.Before b.lo := (List.pairwise_append.mp sorted).2.2 e early b List.mem_cons_self
    obtain ⟨axis, less⟩ := order.exists_along
    have reach := (bounds e (cut ▸ List.mem_append_left _ early) axis).1
    rw [corner] at less
    omega
  have full : b.hi = c.hi :=
    (decomposition_halted cut).full (decomposition_regular b listed).filled (within b listed) same filled
  obtain rfl : b = c := by
    obtain ⟨lo, hi⟩ := b
    obtain ⟨lo', hi'⟩ := c
    obtain rfl : lo = lo' := corner
    obtain rfl : hi = hi' := full
    rfl
  -- With that block taken, there is no spot left for another one.
  obtain rfl : after = [] := by
    refine List.eq_nil_iff_forall_not_mem.mpr fun e late => ?_
    have there : e ∈ decomposition snap := cut ▸ List.mem_append_right _ (List.mem_cons_of_mem _ late)
    have corner := (decomposition_regular e there).filled.lo
    obtain ⟨middle, last, rfl⟩ := List.append_of_mem late
    have unused := (decomposition_halted (cut.trans (List.cons_append ▸ rfl : _ = (b :: middle) ++ e :: last))).fresh
      e.lo corner b List.mem_cons_self
    rw [within e there e.lo corner] at unused
    cases unused
  exact cut

/-! ### Boxes -/

/-- The boxes of a build that comes off cannot be joined, whatever the limit and whatever the scratch memory held before.
None of them is continued by another one along an axis, so no two of them together have the spots of a single block.
A cell whose filled spots are those of one block is built as one box. -/
theorem boxes_cannot_be_joined (whole : snap.Whole) {limit : Nat} {scratch scratch' : Scratch} {shape : Shape}
    (built : merge limit snap scratch = (scratch', .ok shape)) :
    (∀ a ∈ shape.boxes, ∀ b ∈ shape.boxes, ∀ axis, ¬ a.block.Adjoins b.block axis) ∧
    (shape.boxes.toList.Pairwise fun a b => ∀ c : Block, ¬ ∀ p, c.contains p = (a.contains p || b.contains p)) ∧
    (∀ c : Block, c.Filled → (∀ p, snap.fills p = c.contains p) → shape.boxes = #[c.toBox]) := by
  have boxes : shape.boxes = ((decomposition snap).map Block.toBox).toArray := by
    have outcome := merge_outcome whole limit scratch
    rw [built] at outcome
    split at outcome
    · cases outcome
      rfl
    · cases outcome
  have stored (b : Block) (listed : b ∈ decomposition snap) : b.toBox.block = b :=
    (decomposition_regular b listed).block_toBox whole.bounded
  have single {a b : Block} (left : a ∈ decomposition snap) (right : b ∈ decomposition snap) (apart : a ≠ b) (c : Block) :
      ¬ ∀ p, c.contains p = (a.contains p || b.contains p) := by
    intro union
    obtain ⟨axis, forth | back⟩ := Block.adjoins_of_union union (decomposition_regular a left).filled
      (decomposition_regular b right).filled (decomposition_disjoint left right apart)
    · exact decomposition_unadjoined left right axis forth
    · exact decomposition_unadjoined right left axis back
  refine ⟨?_, ?_, fun c filled same => ?_⟩
  · intro a left b right axis
    rw [boxes, List.mem_toArray, List.mem_map] at left right
    obtain ⟨a, left, rfl⟩ := left
    obtain ⟨b, right, rfl⟩ := right
    rw [stored a left, stored b right]
    exact decomposition_unadjoined left right axis
  · rw [boxes, List.pairwise_map]
    refine (decomposition_sorted snap).imp_of_mem fun left right before c union => ?_
    have kept {b : Block} (listed : b ∈ decomposition snap) (p : Spot) : b.toBox.contains p = b.contains p :=
      congrArg (·.contains p) (stored b listed)
    refine single left right (fun same => before.ne (congrArg Block.lo same)) c fun p => ?_
    rw [union, kept left, kept right]
  · rw [boxes, decomposition_block whole filled same]
    rfl

/-- Two voxels per edge, and a floor of stone. -/
private def paved : Snapshot := ⟨⟨0, 0, 0⟩, 2, Array.replicate 4 ⟨1⟩ ++ Array.replicate 4 Voxel.air⟩

/-- The floor with one more voxel on it. -/
private def stepped : Snapshot := ⟨⟨0, 0, 0⟩, 2, Array.replicate 5 ⟨1⟩ ++ Array.replicate 3 Voxel.air⟩

/-- The four voxels of a floor make one box. With a step on it there are two boxes, and no block has the spots of both. -/
theorem boxes_cannot_be_joined_paved :
    (∃ scratch' shape, paved.Whole ∧ merge 4 paved .empty = (scratch', .ok shape) ∧
      shape.boxes = #[⟨⟨0, 0, 0⟩, ⟨2, 1, 2⟩⟩]) ∧
    ∃ scratch' shape, stepped.Whole ∧ merge 4 stepped .empty = (scratch', .ok shape) ∧
      shape.boxes = #[⟨⟨0, 0, 0⟩, ⟨2, 1, 2⟩⟩, ⟨⟨0, 1, 0⟩, ⟨1, 2, 1⟩⟩] ∧
      (∀ a ∈ shape.boxes, ∀ b ∈ shape.boxes, ∀ axis, ¬ a.block.Adjoins b.block axis) ∧
      ∀ c : Block, ¬ ∀ p, c.contains p =
        ((⟨⟨0, 0, 0⟩, ⟨2, 1, 2⟩⟩ : Box).contains p || (⟨⟨0, 1, 0⟩, ⟨1, 2, 1⟩⟩ : Box).contains p) := by
  constructor
  · have whole : paved.Whole := Snapshot.whole_iff.mpr (by decide)
    have floor (p : Spot) : paved.fills p = (Block.mk ⟨0, 0, 0⟩ ⟨2, 1, 2⟩).contains p := by
      by_cases inside : p.within 2 = true
      · have all : ∀ p ∈ Spot.cube 2, paved.fills p = (Block.mk ⟨0, 0, 0⟩ ⟨2, 1, 2⟩).contains p := by decide
        exact all p (Spot.mem_cube.mpr inside)
      · have outside : (Block.mk ⟨0, 0, 0⟩ ⟨2, 1, 2⟩).contains p = false := by
          by_contra holds
          have small : (Block.mk ⟨0, 0, 0⟩ ⟨2, 1, 2⟩).Inside 2 := ⟨by decide, by decide, by decide⟩
          exact inside (small.within (Bool.not_eq_false _ ▸ holds))
        rw [outside, Snapshot.fills, show paved.size = 2 from rfl, Bool.eq_false_iff.mpr inside, Bool.false_and]
    have ended := merge_outcome whole 4 .empty
    rw [if_pos (by decide +kernel)] at ended
    have built : merge 4 paved .empty = (_, .ok _) := Prod.ext rfl ended
    obtain ⟨_, _, one⟩ := boxes_cannot_be_joined whole built
    exact ⟨_, _, whole, built, one ⟨⟨0, 0, 0⟩, ⟨2, 1, 2⟩⟩ (by rintro (_ | _ | _) <;> decide) floor⟩
  · have whole : stepped.Whole := Snapshot.whole_iff.mpr (by decide)
    have blocks : decomposition stepped = [⟨⟨0, 0, 0⟩, ⟨2, 1, 2⟩⟩, ⟨⟨0, 1, 0⟩, ⟨1, 2, 1⟩⟩] := by decide +kernel
    have ended := merge_outcome whole 4 .empty
    rw [blocks, if_pos (by decide)] at ended
    have built : merge 4 stepped .empty = (_, .ok _) := Prod.ext rfl ended
    obtain ⟨unadjoined, apart, _⟩ := boxes_cannot_be_joined whole built
    exact ⟨_, _, whole, built, rfl, unadjoined, List.rel_of_pairwise_cons apart (List.mem_singleton_self _)⟩

end Shape

end TerrainStream
