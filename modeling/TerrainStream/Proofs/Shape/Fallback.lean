import TerrainStream.Proofs.Shape.Covering
import TerrainStream.Proofs.Shape.Maximal

/-! The fallback beside the build that it stands in for. Where a build comes off, the fallback is the least box around
the boxes of the build; where it fails, there is a fallback with spots in it. -/

namespace TerrainStream.Shape

open Cell Snapshot

variable {snap : Snapshot} {b c : Block} {p : Spot} {n : Nat}

/-- A block reaches no further than another one along any axis. -/
def Block.Within (b c : Block) : Prop :=
  ∀ axis, c.lo.along axis ≤ b.lo.along axis ∧ b.hi.along axis ≤ c.hi.along axis

/-- A block holds all filled spots and has one at each of its six faces. -/
structure Block.Fits (snap : Snapshot) (b : Block) : Prop where
  holds : ∀ p, snap.fills p = true → b.contains p = true
  low : ∀ axis, ∃ p, snap.fills p = true ∧ p.along axis = b.lo.along axis
  high : ∀ axis, ∃ p, snap.fills p = true ∧ p.along axis + 1 = b.hi.along axis

namespace Block.Fits

theorem filled (fits : b.Fits snap) : b.Filled := by
  obtain ⟨p, solid, _⟩ := fits.low .x
  exact filled_of_contains (fits.holds p solid)

theorem regular (fits : b.Fits snap) : b.Regular snap.size := by
  have reach (axis : Axis) : b.hi.along axis ≤ snap.size := by
    obtain ⟨p, solid, place⟩ := fits.high axis
    have inside := Spot.within_iff_along.mp (fills_iff.mp solid).1 axis
    omega
  exact ⟨⟨reach .x, reach .y, reach .z⟩, fits.filled .x, fits.filled .y, fits.filled .z⟩

/-- Of blocks that hold the filled spots and no others, a fitting block is the least one around them. -/
theorem least (fits : c.Fits snap) {blocks : List Block} (filled : ∀ b ∈ blocks, b.Filled)
    (cover : ∀ p, snap.fills p = true ↔ ∃ b ∈ blocks, b.contains p = true) :
    (∀ b ∈ blocks, b.Within c) ∧ ∀ other : Block, (∀ b ∈ blocks, b.Within other) → c.Within other := by
  refine ⟨fun b listed => ?_, fun other around axis => ⟨?_, ?_⟩⟩
  · exact bounds_of_within (filled b listed) fun p holds => fits.holds p ((cover p).mpr ⟨b, listed, holds⟩)
  · obtain ⟨p, solid, place⟩ := fits.low axis
    obtain ⟨b, listed, holds⟩ := (cover p).mp solid
    have first := (contains_iff_along.mp holds axis).1
    have bound := (around b listed axis).1
    omega
  · obtain ⟨p, solid, place⟩ := fits.high axis
    obtain ⟨b, listed, holds⟩ := (cover p).mp solid
    have last := (contains_iff_along.mp holds axis).2
    have bound := (around b listed axis).2
    omega

end Block.Fits

theorem fits_ofReach {r : Reach} (around : r.Around fun p => snap.fills p = true) : (Block.ofReach r).Fits snap := by
  obtain ⟨x, y, z⟩ := around
  refine ⟨fun p solid => Block.contains_iff.mpr ?_, ?_, ?_⟩
  · have wide := x.within p solid
    have high := y.within p solid
    have deep := z.within p solid
    exact ⟨⟨wide.1, Nat.lt_succ_of_le wide.2⟩, ⟨high.1, Nat.lt_succ_of_le high.2⟩, deep.1, Nat.lt_succ_of_le deep.2⟩
  · rintro (_ | _ | _)
    · exact x.low
    · exact y.low
    · exact z.low
  · have next {axis : Spot → Nat} {most : Nat} (last : ∃ p, snap.fills p = true ∧ axis p = most) :
        ∃ p, snap.fills p = true ∧ axis p + 1 = most + 1 :=
      last.imp fun p there => ⟨there.1, congrArg (· + 1) there.2⟩
    rintro (_ | _ | _)
    · exact next x.high
    · exact next y.high
    · exact next z.high

/-- There is no fallback for a cell of air, and for any other the one box that fits. -/
theorem coarse_whole (whole : snap.Whole) : ((coarse snap).boxes = #[] ∧ snap.isAllAir = true) ∨
    ∃ box, (coarse snap).boxes = #[box] ∧ box.block.Fits snap ∧ snap.isAllAir = false := by
  have surrounds := solidReach_surrounds snap
  rw [coarse, cover?_whole whole]
  cases reach : snap.solidReach with
  | none =>
    rw [reach] at surrounds
    exact .inl ⟨rfl, (isAllAir_iff whole).mpr fun p => Bool.eq_false_iff.mpr (surrounds p)⟩
  | some r =>
    rw [reach] at surrounds
    have fits := fits_ofReach surrounds
    refine .inr ⟨_, rfl, (fits.regular.block_toBox whole.bounded).symm ▸ fits, Bool.eq_false_iff.mpr fun air => ?_⟩
    obtain ⟨p, solid, _⟩ := fits.low .x
    rw [(isAllAir_iff whole).mp air p] at solid
    cases solid

/-- Where the voxels cannot be trusted, the fallback is all of the cell that the corners of boxes can reach. -/
theorem coarse_flawed (positive : 0 < snap.size) (flawed : ¬ snap.Whole) :
    ∃ box, (coarse snap).boxes = #[box] ∧
      box.block = ⟨⟨0, 0, 0⟩, ⟨min snap.size 65535, min snap.size 65535, min snap.size 65535⟩⟩ := by
  have mistrusted : snap.voxels.size ≠ snap.size * snap.size * snap.size ∨ snap.size > 65535 := by
    by_contra trusted
    rw [not_or, not_not, gt_iff_lt, not_lt] at trusted
    exact flawed ⟨positive, trusted.2, trusted.1⟩
  have some : min snap.size 65535 ≠ 0 := by omega
  have edge : (Block.mk ⟨0, 0, 0⟩ ⟨min snap.size 65535, min snap.size 65535, min snap.size 65535⟩).Regular 65535 := by
    constructor
    · exact ⟨Nat.min_le_right _ _, Nat.min_le_right _ _, Nat.min_le_right _ _⟩
    all_goals exact Nat.pos_of_ne_zero some
  refine ⟨_, ?_, edge.block_toBox (Nat.le_refl _)⟩
  rw [coarse, cover?, if_pos mistrusted]
  simp only [if_neg some, Option.elim_some]

/-- The boxes of a build that comes off have spots, and hold the filled spots and no others. -/
theorem merge_covers (whole : snap.Whole) {limit : Nat} {scratch : Scratch} {shape : Shape}
    (built : (merge limit snap scratch).2 = .ok shape) :
    (∀ b ∈ shape.boxes.toList.map Box.block, b.Filled) ∧
    ∀ p, snap.fills p = true ↔ ∃ b ∈ shape.boxes.toList.map Box.block, b.contains p = true := by
  have stored : shape.boxes.toList.map Box.block = decomposition snap := by
    rw [merge_outcome whole] at built
    split at built
    · cases built
      rw [List.toList_toArray, List.map_map]
      conv_rhs => rw [← List.map_id (decomposition snap)]
      exact List.map_congr_left fun b listed => (decomposition_regular b listed).block_toBox whole.bounded
    · cases built
  rw [stored]
  refine ⟨fun b listed => (decomposition_regular b listed).filled, fun p => ⟨decomposition_covers whole, ?_⟩⟩
  rintro ⟨b, listed, holds⟩
  have hit : 0 < shape.hits p := by
    rw [← stored] at listed
    obtain ⟨box, there, rfl⟩ := List.mem_map.mp listed
    exact Array.countP_pos_iff.mpr ⟨box, Array.mem_toList_iff.mp there, holds⟩
  by_contra air
  rw [(merge_exact whole built).hits p, Bool.eq_false_iff.mpr air] at hit
  cases hit

/-- A build that fails leaves a fallback with spots in it. -/
theorem coarse_filled (positive : 0 < snap.size) {limit : Nat} {scratch : Scratch} {e : BuildError}
    (failed : (merge limit snap scratch).2 = .error e) :
    ∃ box, (coarse snap).boxes = #[box] ∧ box.block.Filled := by
  by_cases whole : snap.Whole
  · rcases coarse_whole whole with ⟨_, air⟩ | ⟨box, boxes, fits, _⟩
    · rcases merge_spec whole limit scratch with ⟨_, _, ended, _⟩ | ⟨_, _, _, p, solid⟩
      · rw [ended] at failed
        cases failed
      · rw [(isAllAir_iff whole).mp air p] at solid
        cases solid
    · exact ⟨box, boxes, fits.filled⟩
  · obtain ⟨box, boxes, same⟩ := coarse_flawed positive whole
    have edge : 0 < min snap.size 65535 := Nat.lt_min.mpr ⟨positive, by decide⟩
    refine ⟨box, boxes, ?_⟩
    rw [same]
    rintro (_ | _ | _) <;> exact edge

/-- The fallback never loses collision and agrees with the build. A snapshot without a flaw has no fallback exactly when
it is all air, and otherwise one box, which holds every filled spot and has one at each of its faces. A build of it that
comes off is empty exactly when the fallback is, and the box of the fallback is the least one around its boxes. And
whenever the build of a snapshot fails, whatever its voxels, unless its size is zero, there is a fallback with spots in
it. -/
theorem fallback_agrees_with_builds (snap : Snapshot) (limit : Nat) (scratch : Scratch) :
    (snap.Whole →
      ((coarse snap).isEmpty = true ↔ snap.isAllAir = true) ∧
      (snap.isAllAir = false → ∃ box, (coarse snap).boxes = #[box] ∧ box.block.Fits snap) ∧
      (∀ shape, (merge limit snap scratch).2 = .ok shape →
        shape.isEmpty = (coarse snap).isEmpty ∧
        ∀ box ∈ (coarse snap).boxes, (∀ b ∈ shape.boxes, b.block.Within box.block) ∧
          ∀ other : Block, (∀ b ∈ shape.boxes, b.block.Within other) → box.block.Within other)) ∧
    (0 < snap.size → ∀ e, (merge limit snap scratch).2 = .error e →
      (coarse snap).isEmpty = false ∧ ∀ box ∈ (coarse snap).boxes, box.block.Filled) := by
  refine ⟨fun whole => ?_, fun positive e failed => ?_⟩
  · have agree (shape : Shape) (built : (merge limit snap scratch).2 = .ok shape) :
        shape.isEmpty = true ↔ snap.isAllAir = true := (merge_exact whole built).empty
    rcases coarse_whole whole with ⟨bare, air⟩ | ⟨box, boxes, fits, matter⟩
    · simp only [Shape.isEmpty, bare, air]
      refine ⟨by simp, fun impossible => Bool.noConfusion impossible, fun shape built => ⟨?_, fun box listed => ?_⟩⟩
      · exact (agree shape built).mpr air
      · simp at listed
    · simp only [Shape.isEmpty, boxes, matter]
      refine ⟨by simp, fun _ => ⟨box, rfl, fits⟩, fun shape built => ⟨?_, fun other listed => ?_⟩⟩
      · refine Bool.eq_false_iff.mpr fun bare => ?_
        rw [(agree shape built).mp bare] at matter
        cases matter
      · obtain rfl : other = box := by simpa using listed
        obtain ⟨filled, cover⟩ := merge_covers whole built
        have least := fits.least filled cover
        simpa only [List.forall_mem_map, Array.mem_toList_iff] using least
  · obtain ⟨box, boxes, filled⟩ := coarse_filled positive failed
    refine ⟨by rw [Shape.isEmpty, boxes]; rfl, fun other listed => ?_⟩
    obtain rfl : other = box := by simpa [boxes] using listed
    exact filled

/-- Three voxels per edge, two of them solid. -/
private def sparse : Snapshot :=
  ⟨⟨0, 0, 0⟩, 3, ((Array.replicate 27 Voxel.air).setIfInBounds 3 ⟨1⟩).setIfInBounds 14 ⟨1⟩⟩

/-- The fallback for two voxels that lie apart reaches from one to the other. It is there when only one box may be made
and the build fails. -/
theorem fallback_agrees_with_builds_sparse :
    sparse.Whole ∧
    (∃ shape, (merge 2 sparse .empty).2 = .ok shape ∧ (coarse sparse).boxes = #[⟨⟨0, 0, 1⟩, ⟨3, 2, 2⟩⟩] ∧
      ∀ b ∈ shape.boxes, b.block.Within ⟨⟨0, 0, 1⟩, ⟨3, 2, 2⟩⟩) ∧
    ∃ e, (merge 1 sparse .empty).2 = .error e ∧ (coarse sparse).isEmpty = false := by
  have whole : sparse.Whole := Snapshot.whole_iff.mpr (by decide)
  have boxes : (coarse sparse).boxes = #[⟨⟨0, 0, 1⟩, ⟨3, 2, 2⟩⟩] := by decide +kernel
  have two : (decomposition sparse).length = 2 := by decide +kernel
  have made := merge_outcome whole 2 .empty
  have failed := merge_outcome whole 1 .empty
  rw [two, if_pos (by decide)] at made
  rw [two, if_neg (by decide)] at failed
  obtain ⟨_, _, agree⟩ := (fallback_agrees_with_builds sparse 2 .empty).1 whole
  obtain ⟨_, around⟩ := agree _ made
  have listed : (⟨⟨0, 0, 1⟩, ⟨3, 2, 2⟩⟩ : Box) ∈ (coarse sparse).boxes := by
    rw [boxes]
    exact Array.mem_singleton.mpr rfl
  refine ⟨whole, ⟨_, made, boxes, (around _ listed).1⟩, _, failed, ?_⟩
  exact ((fallback_agrees_with_builds sparse 1 .empty).2 whole.positive _ failed).1

end TerrainStream.Shape
