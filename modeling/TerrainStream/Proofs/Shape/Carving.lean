import TerrainStream.Shape.Merge

/-! Carving a snapshot into boxes. A block grows over open spots only and has all of them marked, so the
marked spots are the spots of the boxes, and no box meets another. -/

namespace TerrainStream

open Cell Shape

namespace Cell

/-- Whether a spot lies in a cube of `n` voxels per edge. -/
def Spot.within (n : Nat) (p : Spot) : Bool := p.x < n && p.y < n && p.z < n

theorem Spot.within_iff {n : Nat} {p : Spot} : p.within n = true ↔ p.x < n ∧ p.y < n ∧ p.z < n := by
  simp [within, and_assoc]

theorem Spot.mem_cube {n : Nat} {p : Spot} : p ∈ Spot.cube n ↔ p.within n = true := by
  rw [within_iff]
  obtain ⟨x, y, z⟩ := p
  simp only [cube, List.mem_flatMap, List.mem_range, List.mem_map, Spot.mk.injEq]
  constructor
  · rintro ⟨_, high, _, deep, _, wide, rfl, rfl, rfl⟩
    exact ⟨wide, high, deep⟩
  · rintro ⟨wide, high, deep⟩
    exact ⟨y, high, z, deep, x, wide, rfl, rfl, rfl⟩

namespace Snapshot

/-- A snapshot with as many voxels as its size asks for, small enough for the corners of boxes. -/
structure Whole (s : Snapshot) : Prop where
  positive : 0 < s.size
  bounded : s.size ≤ 65535
  counted : s.voxels.size = s.size * s.size * s.size

theorem whole_iff {s : Snapshot} : s.Whole ↔ flaw? s = none := by
  unfold flaw?
  constructor
  · rintro ⟨positive, bounded, counted⟩
    rw [if_neg (by omega), if_neg (by omega), if_neg (by simp [counted])]
  · intro flawless
    split at flawless
    · cases flawless
    · split at flawless
      · cases flawless
      · split at flawless
        · cases flawless
        · rename_i some small counted
          exact ⟨Nat.pos_of_ne_zero some, by omega, by simpa using counted⟩

/-- Whether a snapshot has matter at a spot of its cell. -/
def fills (s : Snapshot) (p : Spot) : Bool := p.within s.size && s.solidAt p

variable {s : Snapshot} {p q : Spot}

theorem fills_iff : s.fills p = true ↔ p.within s.size = true ∧ s.solidAt p = true := by
  rw [fills, Bool.and_eq_true]

/-- A place in one of the first rows comes before the end of these rows. -/
theorem pack_lt {a b n x : Nat} (row : a < b) (place : x < n) : a * n + x < b * n := by
  have next : (a + 1) * n ≤ b * n := Nat.mul_le_mul_right n row
  rw [Nat.succ_mul] at next
  omega

private theorem pack_inj {a b n x y : Nat} (left : x < n) (right : y < n) (same : a * n + x = b * n + y) :
    a = b ∧ x = y := by
  have places : x = y := by
    have rest := congrArg (· % n) same
    simpa only [Nat.mul_add_mod_self_right, Nat.mod_eq_of_lt left, Nat.mod_eq_of_lt right] using rest
  subst places
  exact ⟨Nat.eq_of_mul_eq_mul_right (Nat.lt_of_le_of_lt (Nat.zero_le _) left) (Nat.add_right_cancel same), rfl⟩

theorem index_lt (inside : p.within s.size = true) : s.index p < s.size * s.size * s.size := by
  obtain ⟨wide, high, deep⟩ := Spot.within_iff.mp inside
  exact pack_lt (pack_lt high deep) wide

theorem index_inj (left : p.within s.size = true) (right : q.within s.size = true) (same : s.index p = s.index q) :
    p = q := by
  obtain ⟨wide, high, deep⟩ := Spot.within_iff.mp left
  obtain ⟨wide', high', deep'⟩ := Spot.within_iff.mp right
  obtain ⟨rows, columns⟩ := pack_inj wide wide' same
  obtain ⟨layers, rows⟩ := pack_inj deep deep' rows
  obtain ⟨x, y, z⟩ := p
  obtain ⟨x', y', z'⟩ := q
  simp only [Spot.mk.injEq]
  exact ⟨columns, layers, rows⟩

/-- Every voxel is stored for some spot. -/
theorem index_onto {i : Nat} (stored : i < s.size * s.size * s.size) : ∃ p, p.within s.size = true ∧ s.index p = i := by
  have positive : 0 < s.size := Nat.pos_of_ne_zero (by rintro none; simp [none] at stored)
  refine ⟨⟨i % s.size, i / s.size / s.size, i / s.size % s.size⟩, ?_, ?_⟩
  · rw [Spot.within_iff]
    refine ⟨Nat.mod_lt _ positive, ?_, Nat.mod_lt _ positive⟩
    rw [Nat.div_div_eq_div_mul]
    exact Nat.div_lt_of_lt_mul stored
  · simp only [index]
    rw [Nat.div_add_mod', Nat.div_add_mod']

/-- All is air when no spot is filled. -/
theorem isAllAir_iff (whole : s.Whole) : s.isAllAir = true ↔ ∀ p, s.fills p = false := by
  rw [isAllAir, Bool.not_eq_true', ← Bool.not_eq_true, Array.any_eq_true]
  constructor
  · intro air p
    refine Bool.eq_false_iff.mpr fun filled => air ?_
    obtain ⟨inside, solid⟩ := fills_iff.mp filled
    have stored : s.index p < s.voxels.size := whole.counted ▸ index_lt inside
    refine ⟨s.index p, stored, ?_⟩
    rw [solidAt, get?, Array.getElem?_eq_getElem stored] at solid
    exact solid
  · rintro bare ⟨i, stored, solid⟩
    obtain ⟨p, inside, rfl⟩ := index_onto (whole.counted ▸ stored)
    have filled : s.fills p = true := by
      rw [fills_iff, solidAt, get?, Array.getElem?_eq_getElem stored]
      exact ⟨inside, solid⟩
    rw [bare p] at filled
    cases filled

end Snapshot

end Cell

namespace Shape

variable {snap : Snapshot} {marks : Array Bool} {p q : Spot}

theorem advance_spec (f : Nat → Bool) (start count : Nat) :
    start ≤ advance f start count ∧ advance f start count ≤ start + count ∧
      ∀ k, start ≤ k → k < advance f start count → f k = true := by
  induction count generalizing start with
  | zero => exact ⟨Nat.le_refl _, Nat.le_refl _, fun k from' below => absurd below (Nat.not_lt_of_le from')⟩
  | succ count ih =>
    unfold advance
    split
    · rename_i here
      obtain ⟨least, most, between⟩ := ih (start + 1)
      refine ⟨by omega, by omega, fun k from' below => ?_⟩
      rcases Nat.eq_or_lt_of_le from' with rfl | beyond
      · exact here
      · exact between k beyond below
    · exact ⟨Nat.le_refl _, by omega, fun k from' below => absurd below (Nat.not_lt_of_le from')⟩

theorem allBetween_iff {start stop : Nat} {f : Nat → Bool} :
    allBetween start stop f = true ↔ ∀ k, start ≤ k → k < stop → f k = true := by
  rw [allBetween, List.all_eq_true]
  constructor
  · intro all k from' below
    exact all k (List.mem_range'_1.mpr ⟨from', by omega⟩)
  · intro all k listed
    obtain ⟨from', below⟩ := List.mem_range'_1.mp listed
    exact all k from' (by omega)

theorem Block.contains_iff {b : Block} : b.contains p = true ↔
    (b.lo.x ≤ p.x ∧ p.x < b.hi.x) ∧ (b.lo.y ≤ p.y ∧ p.y < b.hi.y) ∧ b.lo.z ≤ p.z ∧ p.z < b.hi.z := by
  simp only [contains, Bool.and_eq_true, decide_eq_true_eq, and_assoc]

theorem Box.contains_iff {b : Box} : b.contains p = true ↔
    (b.lo.x.toNat ≤ p.x ∧ p.x < b.hi.x.toNat) ∧ (b.lo.y.toNat ≤ p.y ∧ p.y < b.hi.y.toNat) ∧
      b.lo.z.toNat ≤ p.z ∧ p.z < b.hi.z.toNat := by
  simp only [contains, Bool.and_eq_true, decide_eq_true_eq, and_assoc]

theorem Block.mem_spots {b : Block} : p ∈ b.spots ↔ b.contains p = true := by
  obtain ⟨x, y, z⟩ := p
  simp only [spots, List.mem_flatMap, List.mem_map, List.mem_range'_1, Spot.mk.injEq, contains_iff]
  constructor
  · rintro ⟨_, high, _, deep, _, wide, rfl, rfl, rfl⟩
    omega
  · rintro ⟨wide, high, deep⟩
    exact ⟨y, by omega, z, by omega, x, by omega, rfl, rfl, rfl⟩

/-- An open spot grows into a block of open spots that stays within the cell. -/
theorem grow_spec (inside : p.within snap.size = true) (here : isOpen snap marks p = true) :
    (grow snap marks p).lo = p ∧ (grow snap marks p).contains p = true ∧
      (grow snap marks p).hi.x ≤ snap.size ∧ (grow snap marks p).hi.y ≤ snap.size ∧
      (grow snap marks p).hi.z ≤ snap.size ∧
      ∀ q, (grow snap marks p).contains q = true → isOpen snap marks q = true := by
  obtain ⟨wide, high, deep⟩ := Spot.within_iff.mp inside
  unfold grow
  dsimp only
  obtain ⟨widened, narrow, columns⟩ :=
    advance_spec (fun x => isOpen snap marks ⟨x, p.y, p.z⟩) (p.x + 1) (snap.size - (p.x + 1))
  generalize advance (fun x => isOpen snap marks ⟨x, p.y, p.z⟩) (p.x + 1) (snap.size - (p.x + 1)) = x at *
  obtain ⟨deepened, shallow, rows⟩ := advance_spec
    (fun z => allBetween p.x x fun x => isOpen snap marks ⟨x, p.y, z⟩) (p.z + 1) (snap.size - (p.z + 1))
  generalize advance (fun z => allBetween p.x x fun x => isOpen snap marks ⟨x, p.y, z⟩) (p.z + 1)
    (snap.size - (p.z + 1)) = z at *
  obtain ⟨heightened, low, layers⟩ := advance_spec
    (fun y => allBetween p.z z fun z => allBetween p.x x fun x => isOpen snap marks ⟨x, y, z⟩)
    (p.y + 1) (snap.size - (p.y + 1))
  generalize advance (fun y => allBetween p.z z fun z => allBetween p.x x fun x => isOpen snap marks ⟨x, y, z⟩)
    (p.y + 1) (snap.size - (p.y + 1)) = y at *
  refine ⟨rfl, Block.contains_iff.mpr ⟨⟨Nat.le_refl _, widened⟩, ⟨Nat.le_refl _, heightened⟩, Nat.le_refl _, deepened⟩,
    by omega, by omega, by omega, ?_⟩
  · intro q within
    obtain ⟨⟨left, right⟩, ⟨bottom, top⟩, front, back⟩ := Block.contains_iff.mp within
    -- The first row was grown voxel by voxel, the first layer row by row, and the rest layer by layer.
    have first (k : Nat) (from' : p.x ≤ k) (below : k < x) : isOpen snap marks ⟨k, p.y, p.z⟩ = true := by
      rcases Nat.eq_or_lt_of_le from' with rfl | beyond
      · exact here
      · exact columns k beyond below
    have layer (k m : Nat) (from' : p.x ≤ k) (below : k < x) (from'' : p.z ≤ m) (below' : m < z) :
        isOpen snap marks ⟨k, p.y, m⟩ = true := by
      rcases Nat.eq_or_lt_of_le from'' with rfl | beyond
      · exact first k from' below
      · exact allBetween_iff.mp (rows m beyond below') k from' below
    rcases Nat.eq_or_lt_of_le bottom with same | above
    · have flat := layer q.x q.z left right front back
      rw [show p.y = q.y from same] at flat
      exact flat
    · exact allBetween_iff.mp (allBetween_iff.mp (layers q.y above top) q.z front back) q.x left right

/-- Whether a spot has been marked. -/
def covered (snap : Snapshot) (marks : Array Bool) (p : Spot) : Bool := marks.getD (snap.index p) false

theorem isOpen_iff : isOpen snap marks p = true ↔ snap.solidAt p = true ∧ covered snap marks p = false := by
  rw [isOpen, Bool.and_eq_true, Bool.not_eq_true']
  rfl

private theorem covered_set (sized : marks.size = snap.size * snap.size * snap.size) (there : p.within snap.size = true)
    (here : q.within snap.size = true) :
    covered snap (marks.setIfInBounds (snap.index p) true) q = (decide (q = p) || covered snap marks q) := by
  simp only [covered, Array.getD_eq_getD_getElem?, Array.getElem?_setIfInBounds]
  by_cases same : q = p
  · subst same
    have stored : snap.index q < marks.size := sized ▸ Snapshot.index_lt here
    simp [stored]
  · have apart : snap.index p ≠ snap.index q := fun clash => same (Snapshot.index_inj there here clash).symm
    simp [same, apart]

/-- Marking spots in turn covers them and no others. -/
private theorem markAll_spec (spots : List Spot) (within : ∀ q ∈ spots, q.within snap.size = true)
    (sized : marks.size = snap.size * snap.size * snap.size) :
    let marked := spots.foldl (fun marks p => marks.setIfInBounds (snap.index p) true) marks
    marked.size = snap.size * snap.size * snap.size ∧
      ∀ q, q.within snap.size = true → covered snap marked q = (decide (q ∈ spots) || covered snap marks q) := by
  induction spots generalizing marks with
  | nil => exact ⟨sized, fun q _ => by simp⟩
  | cons p spots ih =>
    have resized : (marks.setIfInBounds (snap.index p) true).size = snap.size * snap.size * snap.size := by
      rw [Array.size_setIfInBounds, sized]
    obtain ⟨kept, covers⟩ := ih (fun q listed => within q (List.mem_cons_of_mem _ listed)) resized
    refine ⟨kept, fun q here => ?_⟩
    rw [List.foldl_cons, covers q here, covered_set sized (within p List.mem_cons_self) here]
    simp only [List.mem_cons, Bool.decide_or]
    rw [Bool.or_left_comm, Bool.or_assoc]

/-- A block that lies in the cell of a snapshot. -/
structure Block.Inside (b : Block) (n : Nat) : Prop where
  x : b.hi.x ≤ n
  y : b.hi.y ≤ n
  z : b.hi.z ≤ n

theorem Block.Inside.within {b : Block} {n : Nat} (inside : b.Inside n) (holds : b.contains p = true) :
    p.within n = true := by
  obtain ⟨⟨_, x⟩, ⟨_, y⟩, _, z⟩ := Block.contains_iff.mp holds
  exact Spot.within_iff.mpr ⟨Nat.lt_of_lt_of_le x inside.x, Nat.lt_of_lt_of_le y inside.y, Nat.lt_of_lt_of_le z inside.z⟩

/-- Marking a block covers its spots and no others. -/
theorem mark_spec {b : Block} (inside : b.Inside snap.size) (sized : marks.size = snap.size * snap.size * snap.size) :
    (mark snap marks b).size = snap.size * snap.size * snap.size ∧
      ∀ q, q.within snap.size = true → covered snap (mark snap marks b) q = (b.contains q || covered snap marks q) := by
  obtain ⟨kept, covers⟩ := markAll_spec b.spots (fun q listed => inside.within (Block.mem_spots.mp listed)) sized
  refine ⟨kept, fun q here => (covers q here).trans ?_⟩
  congr 1
  rw [Bool.eq_iff_iff, decide_eq_true_iff, Block.mem_spots]

private theorem toNat_ofNat {n : Nat} (bounded : n ≤ 65535) : (UInt16.ofNat n).toNat = n := by
  rw [UInt16.toNat_ofNat']
  exact Nat.mod_eq_of_lt (Nat.lt_succ_of_le bounded)

/-- In a cell that is small enough a block that is not empty has the same spots as its box. -/
theorem Block.Inside.toBox_contains {b : Block} {n : Nat} (inside : b.Inside n) (bounded : n ≤ 65535)
    (holds : b.contains q = true) (p : Spot) : b.toBox.contains p = b.contains p := by
  have ⟨x, y, z⟩ := inside
  obtain ⟨wide, high, deep⟩ := Block.contains_iff.mp holds
  rw [Bool.eq_iff_iff, Box.contains_iff, Block.contains_iff, toBox, Corner.ofSpot, Corner.ofSpot]
  dsimp only
  rw [toNat_ofNat (show b.lo.x ≤ 65535 by omega), toNat_ofNat (show b.lo.y ≤ 65535 by omega),
    toNat_ofNat (show b.lo.z ≤ 65535 by omega), toNat_ofNat (show b.hi.x ≤ 65535 by omega),
    toNat_ofNat (show b.hi.y ≤ 65535 by omega), toNat_ofNat (show b.hi.z ≤ 65535 by omega)]

/-- The marks of a snapshot and the boxes that have been cut out of it so far. -/
structure Carved (snap : Snapshot) (marks : Array Bool) (boxes : Array Box) : Prop where
  sized : marks.size = snap.size * snap.size * snap.size
  solid : ∀ p, p.within snap.size = true → covered snap marks p = true → snap.solidAt p = true
  exact : ∀ p, boxes.countP (·.contains p) = (p.within snap.size && covered snap marks p).toNat
  filled : ∀ box ∈ boxes, ∃ p, box.contains p = true

theorem carved_blank (snap : Snapshot) :
    Carved snap (Array.replicate (snap.size * snap.size * snap.size) false) #[] := by
  have bare (p : Spot) : covered snap (Array.replicate (snap.size * snap.size * snap.size) false) p = false := by
    rw [covered, Array.getD_eq_getD_getElem?, Array.getElem?_replicate]
    split <;> rfl
  refine ⟨Array.size_replicate, fun p _ marked => ?_, fun p => ?_, fun box listed => by simp at listed⟩
  · rw [bare] at marked
    cases marked
  · rw [bare, Bool.and_false]
    rfl

/-- What grows out of an open spot is cut out as one box. -/
theorem Carved.cut {boxes : Array Box} (carved : Carved snap marks boxes) (bounded : snap.size ≤ 65535)
    (inside : p.within snap.size = true) (here : isOpen snap marks p = true) :
    Carved snap (mark snap marks (grow snap marks p)) (boxes.push (grow snap marks p).toBox) ∧
      covered snap (mark snap marks (grow snap marks p)) p = true ∧
      ∀ q, q.within snap.size = true → covered snap marks q = true →
        covered snap (mark snap marks (grow snap marks p)) q = true := by
  obtain ⟨_, holds, x, y, z, unused⟩ := grow_spec inside here
  generalize grow snap marks p = b at *
  have fits : b.Inside snap.size := ⟨x, y, z⟩
  obtain ⟨sized, covers⟩ := mark_spec fits carved.sized
  have same := fits.toBox_contains bounded holds
  refine ⟨⟨sized, fun q within marked => ?_, fun q => ?_, fun box listed => ?_⟩, ?_, fun q within before => ?_⟩
  · rw [covers q within, Bool.or_eq_true] at marked
    rcases marked with new | before
    · exact (isOpen_iff.mp (unused q new)).1
    · exact carved.solid q within before
  · rw [Array.countP_push, carved.exact q, same]
    cases new : b.contains q with
    | false =>
      cases within : q.within snap.size with
      | false => rfl
      | true => simp [covers q within, new]
    | true =>
      have within := fits.within new
      simp [covers q within, within, new, (isOpen_iff.mp (unused q new)).2]
  · rcases Array.mem_push.mp listed with old | rfl
    · exact carved.filled box old
    · exact ⟨p, (same p).trans holds⟩
  · rw [covers p inside, holds, Bool.true_or]
  · rw [covers q within, before, Bool.or_true]

/-- A snapshot that can be carved within the limit has all its solid voxels covered in the end; one that cannot has
some. -/
theorem carve_spec (bounded : snap.size ≤ 65535) (limit : Nat) {spots : List Spot} {boxes : Array Box}
    (within : ∀ p ∈ spots, p.within snap.size = true) (carved : Carved snap marks boxes)
    (done : ∀ p, p.within snap.size = true → p ∉ spots → snap.solidAt p = true → covered snap marks p = true) :
    (∃ marks' boxes', carve snap limit spots marks boxes = (marks', some boxes') ∧ Carved snap marks' boxes' ∧
      ∀ p, p.within snap.size = true → snap.solidAt p = true → covered snap marks' p = true) ∨
    ((∃ marks', carve snap limit spots marks boxes = (marks', none)) ∧ ∃ p, snap.fills p = true) := by
  induction spots generalizing marks boxes with
  | nil => exact .inl ⟨marks, boxes, rfl, carved, fun p inside solid => done p inside List.not_mem_nil solid⟩
  | cons p spots ih =>
    have inside := within p List.mem_cons_self
    have later (q : Spot) (listed : q ∈ spots) : q.within snap.size = true := within q (List.mem_cons_of_mem _ listed)
    unfold carve
    split
    · rename_i here
      dsimp only
      split
      · exact .inr ⟨⟨_, rfl⟩, p, Snapshot.fills_iff.mpr ⟨inside, (isOpen_iff.mp here).1⟩⟩
      · obtain ⟨next, covers, kept⟩ := carved.cut bounded inside here
        refine ih later next fun q within outside solid => ?_
        by_cases same : q = p
        · rwa [same]
        · exact kept q within (done q within (by simp [same, outside]) solid)
    · rename_i shut
      refine ih later carved fun q within outside solid => ?_
      by_cases same : q = p
      · subst same
        cases marked : covered snap marks q with
        | true => rfl
        | false => exact absurd (isOpen_iff.mpr ⟨solid, marked⟩) shut
      · exact done q within (by simp [same, outside]) solid

/-- A shape has one box at each filled spot and none at any other, and no box at all when all is air. -/
structure Exact (snap : Snapshot) (shape : Shape) : Prop where
  hits : ∀ p, shape.hits p = (snap.fills p).toNat
  empty : shape.isEmpty = true ↔ snap.isAllAir = true

/-- What has been carved when everything solid is covered makes an exact shape. -/
private theorem Carved.ends {boxes : Array Box} (carved : Carved snap marks boxes) (whole : snap.Whole)
    (all : ∀ p, p.within snap.size = true → snap.solidAt p = true → covered snap marks p = true) :
    Exact snap ⟨snap.coord, snap.size, boxes⟩ := by
  have hits (p : Spot) : boxes.countP (·.contains p) = (snap.fills p).toNat := by
    rw [carved.exact p, Snapshot.fills]
    congr 1
    cases inside : p.within snap.size with
    | false => rfl
    | true =>
      rw [Bool.true_and, Bool.true_and, Bool.eq_iff_iff]
      exact ⟨carved.solid p inside, all p inside⟩
  refine ⟨hits, ?_⟩
  rw [Snapshot.isAllAir_iff whole, Shape.isEmpty, Array.isEmpty_iff]
  constructor
  · rintro rfl p
    exact Bool.toNat_eq_zero.mp (hits p).symm
  · intro air
    refine Array.eq_empty_iff_forall_not_mem.mpr fun box listed => ?_
    obtain ⟨p, holds⟩ := carved.filled box listed
    have some : 0 < boxes.countP (·.contains p) := Array.countP_pos_iff.mpr ⟨box, listed, holds⟩
    rw [hits p, air p] at some
    cases some

/-- A decomposition is exact if it comes off, and comes off unless there is something to decompose. -/
theorem merge_spec (whole : snap.Whole) (limit : Nat) (scratch : Scratch) :
    (∃ scratch' shape, merge limit snap scratch = (scratch', .ok shape) ∧ Exact snap shape) ∨
    (∃ scratch' e, merge limit snap scratch = (scratch', .error e) ∧ ∃ p, snap.fills p = true) := by
  have flawless := Snapshot.whole_iff.mp whole
  have spread (p : Spot) (listed : p ∈ Spot.cube snap.size) : p.within snap.size = true := Spot.mem_cube.mp listed
  have blank : Carved snap (scratch.reset snap.voxels.size).marks #[] := by
    rw [Scratch.reset, whole.counted]
    exact carved_blank snap
  rcases carve_spec whole.bounded limit spread blank
    (fun p inside outside => absurd (Spot.mem_cube.mpr inside) outside) with
    ⟨marks, boxes, ended, carved, all⟩ | ⟨⟨marks, ended⟩, filled⟩
  · exact .inl ⟨_, _, by simp only [merge, flawless, ended]; rfl, carved.ends whole all⟩
  · exact .inr ⟨_, _, by simp only [merge, flawless, ended]; rfl, filled⟩

/-- A decomposition that comes off is exact. -/
theorem merge_exact (whole : snap.Whole) {limit : Nat} {scratch : Scratch} {shape : Shape}
    (built : (merge limit snap scratch).2 = .ok shape) : Exact snap shape := by
  rcases merge_spec whole limit scratch with ⟨_, _, ended, exact⟩ | ⟨_, _, ended, _⟩
  · rw [ended] at built
    cases built
    exact exact
  · rw [ended] at built
    cases built

end Shape

end TerrainStream
