import Mathlib.Algebra.BigOperators.Group.List.Basic
import Mathlib.Algebra.Ring.Nat
import Mathlib.Data.Int.Order.Basic
import Mathlib.Data.List.Nodup
import Mathlib.Data.Rat.Floor
import TerrainStream.Cell.Grid

/-! The cells that a box overlaps. Along each axis the indices come from the exact floor of a quotient, held to 32 bits;
the cells are those of three ranges of indices, each told once, and are counted in words of 64 bits. -/

namespace TerrainStream

open Space

namespace Space

/-- The number that a value stands for, a whole number times a power of two. An infinity stands for the first power
beyond the finite numbers. -/
def rational (v : Float32) : ℚ :=
  let bits := v.toBits.toNat
  let exponent := (bits >>> 23) % 256
  let fraction := bits % (1 <<< 23)
  let whole : ℤ := if exponent = 0 then fraction else (fraction + (1 <<< 23) : Nat)
  let signed : ℤ := if bits >>> 31 = 0 then whole else -whole
  (signed : ℚ) * (2 : ℚ) ^ (((max exponent 1 : ℕ) : ℤ) - 150)

/-- The nearest number that 32 signed bits hold. -/
def saturated (n : ℤ) : ℤ := max Int32.minValue.toInt (min n Int32.maxValue.toInt)

theorem saturated_bounds (n : ℤ) : Int32.minValue.toInt ≤ saturated n ∧ saturated n ≤ Int32.maxValue.toInt := by
  have ordered : Int32.minValue.toInt ≤ Int32.maxValue.toInt := by decide
  exact ⟨Int.le_max_left _ _, Int.max_le.mpr ⟨ordered, Int.min_le_right _ _⟩⟩

/-- Shifting a whole number by a difference of exponents and rounding down is exact. -/
theorem floor_shifted (n : ℤ) (power : ℕ) :
    ⌊(n : ℚ) * (2 : ℚ) ^ ((power : ℤ) - 150)⌋ =
      if power < 150 then n / (1 <<< (150 - power) : Nat) else n * (1 <<< (power - 150) : Nat) := by
  split
  case isTrue small =>
    have exponent : (power : ℤ) - 150 = -((150 - power : ℕ) : ℤ) := by omega
    rw [exponent, zpow_neg, zpow_natCast, ← div_eq_mul_inv, Nat.one_shiftLeft, ← Rat.floor_intCast_div_natCast]
    rw [Nat.cast_pow, Nat.cast_ofNat]
  case isFalse large =>
    have exponent : (power : ℤ) - 150 = ((power - 150 : ℕ) : ℤ) := by omega
    rw [exponent, zpow_natCast, Nat.one_shiftLeft, ← Int.floor_intCast (R := ℚ) (n * (2 ^ (power - 150) : ℕ))]
    rw [Int.cast_mul, Int.cast_natCast, Nat.cast_pow, Nat.cast_ofNat]

theorem floorWhole_eq {v : Float32} (number : v.isNaN = false) : floorWhole v = saturated ⌊rational v⌋ := by
  unfold floorWhole rational
  rw [number, if_neg Bool.false_ne_true]
  dsimp only
  rw [floor_shifted, saturated]

theorem floorWhole_bounds (v : Float32) :
    Int32.minValue.toInt ≤ floorWhole v ∧ floorWhole v ≤ Int32.maxValue.toInt := by
  unfold floorWhole
  split
  · decide
  · exact saturated_bounds _

end Space

namespace Cell

/-- Cells are told by y, then z, then x. -/
def Coord.Before (c d : Coord) : Prop := c.y < d.y ∨ c.y = d.y ∧ (c.z < d.z ∨ c.z = d.z ∧ c.x < d.x)

theorem Coord.Before.ne {c d : Coord} (before : c.Before d) : c ≠ d := by
  rintro rfl
  unfold Before at before
  omega

/-- Every number of the coordinate lies in the range that two others span. -/
def Coord.Between (lo hi c : Coord) : Prop :=
  (lo.x ≤ c.x ∧ c.x ≤ hi.x) ∧ (lo.y ≤ c.y ∧ c.y ≤ hi.y) ∧ (lo.z ≤ c.z ∧ c.z ≤ hi.z)

namespace Grid

variable {g : Grid} {b : Aabb} {lo hi v : Int} {first last c : Coord} {limit : Nat}

theorem mem_span : v ∈ span lo hi ↔ lo ≤ v ∧ v ≤ hi := by
  simp only [span, List.mem_map, List.mem_range]
  constructor
  · rintro ⟨n, inside, rfl⟩
    omega
  · rintro ⟨low, high⟩
    exact ⟨(v - lo).toNat, by omega, by omega⟩

theorem span_sorted (lo hi : Int) : (span lo hi).Pairwise (· < ·) :=
  List.pairwise_map.mpr (List.pairwise_lt_range.imp fun less => by omega)

theorem length_span (lo hi : Int) : (span lo hi).length = spanSize lo hi := by
  rw [span, List.length_map, List.length_range, spanSize]

theorem mem_block : c ∈ block first last ↔ Coord.Between first last c := by
  obtain ⟨x, y, z⟩ := c
  simp only [block, List.mem_flatMap, List.mem_map, mem_span, Coord.mk.injEq, Coord.Between]
  constructor
  · rintro ⟨_, y, _, z, _, x, rfl, rfl, rfl⟩
    exact ⟨x, y, z⟩
  · rintro ⟨x, y, z⟩
    exact ⟨_, y, _, z, _, x, rfl, rfl, rfl⟩

theorem block_sorted (first last : Coord) : (block first last).Pairwise Coord.Before := by
  refine List.pairwise_flatMap.mpr ⟨fun y _ => List.pairwise_flatMap.mpr ⟨fun z _ => ?_, ?_⟩, ?_⟩
  · exact List.pairwise_map.mpr ((span_sorted _ _).imp fun less => .inr ⟨rfl, .inr ⟨rfl, less⟩⟩)
  · refine (span_sorted _ _).imp fun less c row d next => ?_
    obtain ⟨_, _, rfl⟩ := List.mem_map.mp row
    obtain ⟨_, _, rfl⟩ := List.mem_map.mp next
    exact .inr ⟨rfl, .inl less⟩
  · refine (span_sorted _ _).imp fun less c layer d next => ?_
    obtain ⟨_, _, row⟩ := List.mem_flatMap.mp layer
    obtain ⟨_, _, rfl⟩ := List.mem_map.mp row
    obtain ⟨_, _, row⟩ := List.mem_flatMap.mp next
    obtain ⟨_, _, rfl⟩ := List.mem_map.mp row
    exact .inl less

theorem length_block (first last : Coord) : (block first last).length =
    spanSize first.x last.x * spanSize first.y last.y * spanSize first.z last.z := by
  simp only [block, List.length_flatMap, List.length_map, length_span, List.map_const', List.sum_replicate_nat]
  rw [← Nat.mul_assoc, Nat.mul_comm, ← Nat.mul_assoc]

/-- The length of a range of 32-bit indices, in signed words of 64 bits and never below zero. -/
def spanWord (lo hi : Int32) : UInt64 :=
  let length := hi.toInt64 - lo.toInt64 + 1
  if length < 0 then 0 else length.toUInt64

/-- The product of two words, refused where it overflows. -/
def checkedMul (a b : UInt64) : Option UInt64 := if a.toNat * b.toNat < UInt64.size then some (a * b) else none

/-- The difference of two 32-bit indices and one more fits a signed word, so that nothing wraps. -/
theorem toNat_spanWord (lo hi : Int32) : (spanWord lo hi).toNat = spanSize lo.toInt hi.toInt := by
  have low : -2147483648 ≤ lo.toInt ∧ lo.toInt ≤ 2147483647 := ⟨lo.le_toInt, lo.toInt_le⟩
  have high : -2147483648 ≤ hi.toInt ∧ hi.toInt ≤ 2147483647 := ⟨hi.le_toInt, hi.toInt_le⟩
  have one : (1 : Int64).toInt = 1 := by decide
  have zero : (0 : Int64).toInt = 0 := by decide
  have fits : (hi.toInt64 - lo.toInt64 + 1).toInt = hi.toInt - lo.toInt + 1 := by
    rw [Int64.toInt_add, Int64.toInt_sub, Int32.toInt_toInt64, Int32.toInt_toInt64, one]
    rw [Int.bmod_eq_of_le (n := hi.toInt - lo.toInt) (by omega) (by omega), Int.bmod_eq_of_le (by omega) (by omega)]
  unfold spanWord spanSize
  dsimp only
  split
  case isTrue below =>
    rw [Int64.lt_iff_toInt_lt, fits, zero] at below
    exact (Int.toNat_of_nonpos (by omega)).symm
  case isFalse above =>
    rw [Int64.lt_iff_toInt_lt, fits, zero] at above
    have positive : (0 : Int64) ≤ hi.toInt64 - lo.toInt64 + 1 := by
      rw [Int64.le_iff_toInt_le, fits, zero]
      omega
    rw [Int64.toNat_toUInt64_of_le positive, Int64.toNatClampNeg, fits]

theorem checkedMul_toNat (a b : UInt64) : (checkedMul a b).map UInt64.toNat =
    if a.toNat * b.toNat < UInt64.size then some (a.toNat * b.toNat) else none := by
  unfold checkedMul
  split
  case isTrue small => exact congrArg some ((UInt64.toNat_mul a b).trans (Nat.mod_eq_of_lt small))
  case isFalse => rfl

theorem volume?_eq_some {a b c n : Nat} (counted : volume? a b c = some n) : n = a * b * c := by
  unfold volume? at counted
  split at counted
  · exact (Option.some.inj counted).symm
  · cases counted

/-- The product of three words, refused where it overflows on the way, is refused where it is too large. -/
theorem checkedMul_volume (a b c : UInt64) :
    ((checkedMul a b).bind (checkedMul · c)).map UInt64.toNat = volume? a.toNat b.toNat c.toNat := by
  have first := checkedMul_toNat a b
  unfold volume?
  cases product : checkedMul a b with
  | none =>
    rw [product] at first
    split at first
    case isTrue => cases first
    case isFalse large => rw [if_neg fun both => large both.1, Option.bind_none, Option.map_none]
  | some ab =>
    rw [product] at first
    split at first
    case isTrue small =>
      have same : ab.toNat = a.toNat * b.toNat := Option.some.inj first
      rw [Option.bind_some, checkedMul_toNat, same, if_congr (and_iff_right small).symm rfl rfl]
    case isFalse => cases first

/-- The number of cells in three ranges of indices, worked out in words. -/
def countWord? (first last : Coord) : Option UInt64 :=
  let length (lo hi : Int) := spanWord (Int32.ofInt lo) (Int32.ofInt hi)
  (checkedMul (length first.x last.x) (length first.y last.y)).bind (checkedMul · (length first.z last.z))

theorem count?_eq_some {n : Nat} (counted : count? first last = some n) : n = (block first last).length :=
  (volume?_eq_some counted).trans (length_block first last).symm

/-- Where the last range is not empty, no product on the way is larger than the whole. -/
theorem count?_ordered (ordered : first.z ≤ last.z) : count? first last =
    if (block first last).length < UInt64.size then some (block first last).length else none := by
  have deep : 1 ≤ spanSize first.z last.z := by
    unfold spanSize
    omega
  rw [length_block, count?, volume?]
  generalize spanSize first.x last.x * spanSize first.y last.y = area
  have grows : area ≤ area * spanSize first.z last.z := Nat.le_mul_of_pos_right _ deep
  exact if_congr ⟨And.right, fun small => ⟨Nat.lt_of_le_of_lt grows small, small⟩⟩ rfl rfl

/-- Indices fit 32 bits, so that counting in words comes to the same. -/
theorem countWord?_toNat (g : Grid) (b : Aabb) :
    (countWord? (g.lowest b) (g.highest b)).map UInt64.toNat = count? (g.lowest b) (g.highest b) := by
  have word (v : Float32) : (Int32.ofInt (g.indexOf v)).toInt = g.indexOf v := by
    have ⟨low, high⟩ := floorWhole_bounds (v / ofWhole g.edge)
    exact Int32.toInt_ofInt_of_le low (Int.lt_add_one_of_le high)
  rw [countWord?, checkedMul_volume, count?]
  simp only [toNat_spanWord, lowest, highest, word]

theorem overlapping_eq (finite : b.isFinite = true) (limit : Nat) : g.overlapping b limit =
    ((count? (g.lowest b) (g.highest b)).filter (· ≤ limit)).map fun _ => block (g.lowest b) (g.highest b) := by
  rw [overlapping, if_pos finite]
  cases count? (g.lowest b) (g.highest b) with
  | none => rfl
  | some count =>
    rw [Option.filter_some]
    by_cases few : count ≤ limit
    · simp [few]
    · simp [few]

/-- The number of cells that a box tells, and whether it tells them, come out in words as they are. -/
theorem overlapping_length (finite : b.isFinite = true) (limit : UInt64) :
    (g.overlapping b limit.toNat).map List.length =
    ((countWord? (g.lowest b) (g.highest b)).filter (· ≤ limit)).map UInt64.toNat := by
  have counted := countWord?_toNat g b
  rw [overlapping_eq finite]
  cases words : countWord? (g.lowest b) (g.highest b) with
  | none =>
    rw [words, Option.map_none] at counted
    rw [← counted]
    rfl
  | some count =>
    rw [words, Option.map_some] at counted
    have same : decide (count ≤ limit) = decide (count.toNat ≤ limit.toNat) :=
      decide_eq_decide.mpr UInt64.le_iff_toNat_le
    rw [← counted, Option.filter_some, Option.filter_some, same]
    split
    case isTrue => exact congrArg some (count?_eq_some counted.symm).symm
    case isFalse => rfl

/-- A finite box with its corners in order tells its cells, unless there are more of them than a limit that a word
holds. -/
theorem overlapping_ordered (finite : b.isFinite = true) (ordered : (g.lowest b).z ≤ (g.highest b).z)
    (word : limit < UInt64.size) : g.overlapping b limit =
      if (block (g.lowest b) (g.highest b)).length ≤ limit then some (block (g.lowest b) (g.highest b)) else none := by
  rw [overlapping_eq finite, count?_ordered ordered]
  by_cases few : (block (g.lowest b) (g.highest b)).length ≤ limit
  · rw [if_pos (by omega), Option.filter_some, if_pos (decide_eq_true few), if_pos few, Option.map_some]
  · rw [if_neg few]
    split
    case isTrue => rw [Option.filter_some, if_neg (by simpa using few), Option.map_none]
    case isFalse => rfl

/-- A list of cells is never longer than its limit. -/
theorem overlapping_le {cells : List Coord} (told : g.overlapping b limit = some cells) : cells.length ≤ limit := by
  by_cases finite : b.isFinite = true
  · rw [overlapping_eq finite] at told
    obtain ⟨count, counted, rfl⟩ := Option.map_eq_some_iff.mp told
    obtain ⟨counted, few⟩ := Option.filter_eq_some_iff.mp counted
    rw [← count?_eq_some counted]
    exact of_decide_eq_true few
  · rw [overlapping, if_neg finite] at told
    cases told

end Grid

/-- The number of cells in three ranges of indices that are not empty. -/
def volume (first last : Coord) : Int := (last.x - first.x + 1) * (last.y - first.y + 1) * (last.z - first.z + 1)

/-- Cells are told unless there are too many, and then all of three ranges are told, each of them once and in order. -/
structure Enumerates (first last : Coord) (limit : Nat) (told : Option (List Coord)) : Prop where
  refused : told = none ↔ limit < volume first last
  complete : ∀ cells ∈ told, ∀ c, c ∈ cells ↔ Coord.Between first last c
  once : ∀ cells ∈ told, cells.Nodup
  sorted : ∀ cells ∈ told, cells.Pairwise Coord.Before
  length : ∀ cells ∈ told, cells.length = volume first last

namespace Grid

variable {g : Grid} {b : Aabb} {limit : Nat}

theorem length_block_ordered {first last : Coord} (x : first.x ≤ last.x) (y : first.y ≤ last.y) (z : first.z ≤ last.z) :
    ((block first last).length : Int) = volume first last := by
  have size {lo hi : Int} (ordered : lo ≤ hi) : (spanSize lo hi : Int) = hi - lo + 1 := by
    unfold spanSize
    omega
  rw [length_block, Int.natCast_mul, Int.natCast_mul, size x, size y, size z, volume]

theorem overlapping_enumerates (finite : b.isFinite = true) (x : (g.lowest b).x ≤ (g.highest b).x)
    (y : (g.lowest b).y ≤ (g.highest b).y) (z : (g.lowest b).z ≤ (g.highest b).z) (word : limit < UInt64.size) :
    Enumerates (g.lowest b) (g.highest b) limit (g.overlapping b limit) := by
  have length := length_block_ordered x y z
  rw [overlapping_ordered finite z word]
  by_cases few : (block (g.lowest b) (g.highest b)).length ≤ limit
  · rw [if_pos few]
    refine ⟨⟨nofun, fun many => ?_⟩, ?_, ?_, ?_, ?_⟩
    · omega
    · rintro _ ⟨⟩ c
      exact mem_block
    · rintro _ ⟨⟩
      exact (block_sorted _ _).imp Coord.Before.ne
    · rintro _ ⟨⟩
      exact block_sorted _ _
    · rintro _ ⟨⟩
      exact length
  · rw [if_neg few]
    exact ⟨⟨fun _ => by omega, fun _ => rfl⟩, nofun, nofun, nofun, nofun⟩

/-- Only a limit beyond the longest list lets through more cells than can be listed. -/
theorem hasRoom_eq_false (finite : b.isFinite = true) (x : (g.lowest b).x ≤ (g.highest b).x)
    (y : (g.lowest b).y ≤ (g.highest b).y) (z : (g.lowest b).z ≤ (g.highest b).z) (word : limit < UInt64.size) :
    g.hasRoom b limit = false ↔ listLimit < volume (g.lowest b) (g.highest b) ∧
      volume (g.lowest b) (g.highest b) ≤ limit := by
  rw [hasRoom, finite, count?_ordered z, ← length_block_ordered x y z]
  split
  case isTrue => simp [and_comm]
  case isFalse large =>
    have beyond : ¬ (block (g.lowest b) (g.highest b)).length ≤ limit := by omega
    simp [beyond]

end Grid

end Cell

end TerrainStream
