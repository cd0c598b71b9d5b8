import Mathlib.Data.List.Nodup
import TerrainStream.Cell.Grid

/-! The cells that an edit can touch are those of the voxels around it. Along each axis the place of a voxel inside
its cell tells which neighbours are a step away; a cell of one voxel has both, and only one of them is told. -/

namespace TerrainStream.Cell

namespace Position

/-- The voxel moved by whole voxels along each axis. -/
def moved (p d : Position) : Position := ⟨p.x + d.x, p.y + d.y, p.z + d.z⟩

/-- Every number of the position lies from `lo` to `hi`. -/
def Within (lo hi : Int) (p : Position) : Prop :=
  (lo ≤ p.x ∧ p.x ≤ hi) ∧ (lo ≤ p.y ∧ p.y ≤ hi) ∧ (lo ≤ p.z ∧ p.z ≤ hi)

end Position

namespace Coord

theorem offset_zero (c : Coord) : c.offset ⟨0, 0, 0⟩ = c := by
  simp only [offset, Int.add_zero]

theorem offset_injective (c : Coord) : Function.Injective c.offset := by
  rintro ⟨x, y, z⟩ ⟨x', y', z'⟩ same
  simp only [offset, mk.injEq] at same ⊢
  omega

end Coord

namespace Grid

variable {g : Grid} {p : Position} {c d : Coord} {place s : Int}

theorem mem_border : s ∈ g.border place ↔
    s = 0 ∨ (s = -1 ∧ place = 0) ∨ (s = 1 ∧ place ≠ 0 ∧ place = g.edge - 1) := by
  unfold border
  split
  case isTrue first => simp [first]
  case isFalse inner =>
    split
    case isTrue last =>
      simp only [List.mem_cons, List.not_mem_nil, or_false]
      omega
    case isFalse short => simp [inner, short]

theorem border_nodup (g : Grid) (place : Int) : (g.border place).Nodup := by
  unfold border
  split
  · decide
  · split <;> decide

/-- Where a step of at most one voxel leads, told from the place inside the cell where it starts. -/
theorem ediv_step {edge step : Int} (low : 0 ≤ place) (high : place < edge) (back : -1 ≤ step) (forth : step ≤ 1) :
    (place + step) / edge = if place + step < 0 then -1 else if place + step = edge then 1 else 0 := by
  split
  case isTrue below =>
    have left : place + step = edge * -1 + (edge - 1) := by omega
    rw [left, Int.mul_add_ediv_left _ _ (by omega), Int.ediv_eq_zero_of_lt (by omega) (by omega)]
    rfl
  case isFalse =>
    split
    case isTrue past => rw [past, Int.ediv_self (by omega)]
    case isFalse => exact Int.ediv_eq_zero_of_lt (by omega) (by omega)

/-- The farthest step forth that an edit is told of. -/
def reach (g : Grid) : Int := if g.edge = 1 then 0 else 1

/-- The neighbours along an axis are those that a step leads to, and in a cell of one voxel a step back. -/
theorem mem_border_iff_step (low : 0 ≤ place) (high : place < g.edge) :
    s ∈ g.border place ↔ ∃ step, (-1 ≤ step ∧ step ≤ g.reach) ∧ s = (place + step) / g.edge := by
  unfold reach
  rw [mem_border]
  constructor
  · intro told
    refine ⟨s, by split <;> omega, ?_⟩
    rw [ediv_step low high (by omega) (by omega)]
    split
    · omega
    · split <;> omega
  · rintro ⟨step, ⟨back, forth⟩, rfl⟩
    have near : step ≤ 1 := by
      split at forth <;> omega
    rw [ediv_step low high back near]
    split at forth <;> split <;> (try split) <;> omega

/-- A step along an axis, seen from the cell where it starts. -/
theorem ediv_add {edge : Int} (positive : 1 ≤ edge) (v step : Int) :
    (v + step) / edge = v / edge + (v - v / edge * edge + step) / edge := by
  have parts : v + step = (v - v / edge * edge + step) + v / edge * edge := by omega
  calc (v + step) / edge = ((v - v / edge * edge + step) + v / edge * edge) / edge := by rw [← parts]
    _ = (v - v / edge * edge + step) / edge + v / edge := Int.add_mul_ediv_right _ _ (by omega)
    _ = v / edge + (v - v / edge * edge + step) / edge := Int.add_comm _ _

/-- A coordinate lies inside the cell that owns it. -/
theorem place_bounds {edge : Int} (positive : 1 ≤ edge) (v : Int) :
    0 ≤ v - v / edge * edge ∧ v - v / edge * edge < edge := by
  have low := Int.emod_nonneg v (b := edge) (by omega)
  have high := Int.emod_lt_of_pos v (b := edge) (by omega)
  rw [Int.emod_def, Int.mul_comm] at low high
  exact ⟨low, high⟩

theorem mem_border_place (positive : 1 ≤ g.edge) (v : Int) : s ∈ g.border (v - v / g.edge * g.edge) ↔
    ∃ step, (-1 ≤ step ∧ step ≤ g.reach) ∧ s = (v + step) / g.edge - v / g.edge := by
  have ⟨low, high⟩ := place_bounds positive v
  rw [mem_border_iff_step low high]
  refine exists_congr fun step => and_congr_right fun _ => ?_
  rw [ediv_add positive v step]
  omega

/-- The ways from a voxel's cell to the cells that an edit of it can touch. -/
def ways (g : Grid) (p : Position) : List Coord :=
  (g.border (p.x - p.x / g.edge * g.edge)).flatMap fun dx =>
    (g.border (p.y - p.y / g.edge * g.edge)).flatMap fun dy =>
      (g.border (p.z - p.z / g.edge * g.edge)).map fun dz => ⟨dx, dy, dz⟩

theorem affected_eq (g : Grid) (p : Position) :
    g.affected p = g.cellOf p :: ((g.ways p).filter (· ≠ ⟨0, 0, 0⟩)).map (g.cellOf p).offset := rfl

theorem mem_ways : d ∈ g.ways p ↔
    d.x ∈ g.border (p.x - p.x / g.edge * g.edge) ∧ d.y ∈ g.border (p.y - p.y / g.edge * g.edge) ∧
      d.z ∈ g.border (p.z - p.z / g.edge * g.edge) := by
  obtain ⟨x, y, z⟩ := d
  simp only [ways, List.mem_flatMap, List.mem_map, Coord.mk.injEq]
  constructor
  · rintro ⟨_, x, _, y, _, z, rfl, rfl, rfl⟩
    exact ⟨x, y, z⟩
  · rintro ⟨x, y, z⟩
    exact ⟨_, x, _, y, _, z, rfl, rfl, rfl⟩

theorem ways_nodup (g : Grid) (p : Position) : (g.ways p).Nodup := by
  refine List.nodup_flatMap.mpr ⟨fun x _ => List.nodup_flatMap.mpr ⟨fun y _ => ?_, ?_⟩, ?_⟩
  · refine (border_nodup g _).map fun z z' same => ?_
    exact congrArg Coord.z same
  · refine (border_nodup g _).imp fun {y y'} apart => ?_
    simp only [Function.onFun, List.disjoint_left, List.mem_map]
    rintro d ⟨z, _, rfl⟩ ⟨z', _, same⟩
    exact apart (congrArg Coord.y same).symm
  · refine (border_nodup g _).imp fun {x x'} apart => ?_
    simp only [Function.onFun, List.disjoint_left, List.mem_flatMap, List.mem_map]
    rintro d ⟨y, _, z, _, rfl⟩ ⟨y', _, z', _, same⟩
    exact apart (congrArg Coord.x same).symm

theorem affected_nodup (g : Grid) (p : Position) : (g.affected p).Nodup := by
  rw [affected_eq, List.nodup_cons]
  refine ⟨?_, ((ways_nodup g p).filter _).map (g.cellOf p).offset_injective⟩
  rw [List.mem_map]
  rintro ⟨d, told, home⟩
  have zero : d = ⟨0, 0, 0⟩ := (g.cellOf p).offset_injective (home.trans (g.cellOf p).offset_zero.symm)
  simpa [zero] using (List.mem_filter.mp told).2

/-- The way home is told first instead of in its place. -/
theorem mem_affected : c ∈ g.affected p ↔ ∃ d ∈ g.ways p, c = (g.cellOf p).offset d := by
  have stay : (⟨0, 0, 0⟩ : Coord) ∈ g.ways p :=
    mem_ways.mpr ⟨mem_border.mpr (.inl rfl), mem_border.mpr (.inl rfl), mem_border.mpr (.inl rfl)⟩
  rw [affected_eq, List.mem_cons, List.mem_map]
  constructor
  · rintro (rfl | ⟨d, told, rfl⟩)
    · exact ⟨_, stay, (g.cellOf p).offset_zero.symm⟩
    · exact ⟨d, (List.mem_filter.mp told).1, rfl⟩
  · rintro ⟨d, told, rfl⟩
    by_cases home : d = ⟨0, 0, 0⟩
    · rw [home]
      exact .inl (g.cellOf p).offset_zero
    · exact .inr ⟨d, List.mem_filter.mpr ⟨told, decide_eq_true home⟩, rfl⟩

/-- The affected cells are those of the voxels that steps lead to. -/
theorem mem_affected_iff_step (positive : 1 ≤ g.edge) :
    c ∈ g.affected p ↔ ∃ d, Position.Within (-1) g.reach d ∧ c = g.cellOf (p.moved d) := by
  rw [mem_affected]
  constructor
  · rintro ⟨d, told, rfl⟩
    have ⟨x, y, z⟩ := mem_ways.mp told
    obtain ⟨dx, nearX, toX⟩ := (mem_border_place positive p.x).mp x
    obtain ⟨dy, nearY, toY⟩ := (mem_border_place positive p.y).mp y
    obtain ⟨dz, nearZ, toZ⟩ := (mem_border_place positive p.z).mp z
    refine ⟨⟨dx, dy, dz⟩, ⟨nearX, nearY, nearZ⟩, ?_⟩
    simp only [cellOf, Coord.offset, Position.moved, Coord.mk.injEq]
    omega
  · rintro ⟨d, ⟨nearX, nearY, nearZ⟩, rfl⟩
    refine ⟨⟨(p.x + d.x) / g.edge - p.x / g.edge, (p.y + d.y) / g.edge - p.y / g.edge,
      (p.z + d.z) / g.edge - p.z / g.edge⟩, mem_ways.mpr ⟨?_, ?_, ?_⟩, ?_⟩
    · exact (mem_border_place positive p.x).mpr ⟨d.x, nearX, rfl⟩
    · exact (mem_border_place positive p.y).mpr ⟨d.y, nearY, rfl⟩
    · exact (mem_border_place positive p.z).mpr ⟨d.z, nearZ, rfl⟩
    · simp only [cellOf, Coord.offset, Position.moved, Coord.mk.injEq]
      omega

/-- A grid's edge is its size, of at least one voxel, if a signed 32-bit word holds it. -/
theorem edge_ofSize {size : Nat} (narrow : size < 1 <<< 31) : (ofSize size).edge = max size 1 := by
  have bound : (max size 1 : Nat) < 1 <<< 31 := by
    have one : 1 < 1 <<< 31 := by decide
    omega
  simp only [Nat.shiftLeft_eq] at bound
  have word : 2 * ((max size 1 : Nat) : Int) < UInt32.size := by
    simp only [UInt32.size]
    omega
  exact (Int.bmod_eq_of_le (by omega) (by omega)).trans (by omega)

/-- An edit affects its own cell, told first, and every cell of the voxels around it, each once, if the cells are
at least two voxels long. Of cells of one voxel the neighbours forth along an axis are left out. -/
theorem affected_cells_surround_edits (size : Nat) (some_voxel : 1 ≤ size) (narrow : size < 1 <<< 31) (p : Position) :
    ((ofSize size).affected p).Nodup ∧
    ((ofSize size).affected p).head? = some ((ofSize size).cellOf p) ∧
    (2 ≤ size → ∀ c, c ∈ (ofSize size).affected p ↔
      ∃ d, Position.Within (-1) 1 d ∧ c = (ofSize size).cellOf (p.moved d)) ∧
    (size = 1 → ∀ c, c ∈ (ofSize size).affected p ↔
      ∃ d, Position.Within (-1) 0 d ∧ c = (ofSize size).cellOf (p.moved d)) := by
  have edge := edge_ofSize narrow
  have positive : 1 ≤ (ofSize size).edge := by omega
  refine ⟨affected_nodup _ p, rfl, fun long c => ?_, fun single c => ?_⟩
  · have reach : (ofSize size).reach = 1 := if_neg (by omega)
    rw [mem_affected_iff_step positive, reach]
  · have reach : (ofSize size).reach = 0 := if_pos (by omega)
    rw [mem_affected_iff_step positive, reach]

/-- A voxel in the lowest layer of its cell along x, in the highest along y, and between them along z. -/
theorem affected_cells_surround_edits_corner :
    (1 ≤ 4 ∧ 4 < 1 <<< 31) ∧
    ((ofSize 4).affected ⟨-4, 7, 1⟩ = [⟨-1, 1, 0⟩, ⟨-1, 2, 0⟩, ⟨-2, 1, 0⟩, ⟨-2, 2, 0⟩]) ∧
    ∀ c, c ∈ (ofSize 4).affected ⟨-4, 7, 1⟩ ↔
      ∃ d, Position.Within (-1) 1 d ∧ c = (ofSize 4).cellOf (Position.moved ⟨-4, 7, 1⟩ d) :=
  ⟨by decide, by decide,
    (affected_cells_surround_edits 4 (by decide) (by decide) ⟨-4, 7, 1⟩).2.2.1 (by decide)⟩

/-- With cells of one voxel the voxel next to an edit lies in a cell across a face, which the edit does not affect. -/
theorem affected_cells_miss_neighbours :
    Position.Within (-1) 1 ⟨1, 0, 0⟩ ∧
      (ofSize 1).cellOf (Position.moved ⟨0, 0, 0⟩ ⟨1, 0, 0⟩) ∉ (ofSize 1).affected ⟨0, 0, 0⟩ := by
  refine ⟨by simp [Position.Within], by decide⟩

end Grid

end TerrainStream.Cell
