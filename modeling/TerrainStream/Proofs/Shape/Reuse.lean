import TerrainStream.Proofs.Shape.Strict

/-! Builds that share scratch memory. What earlier builds and trims have left there changes no shape, and neither does
the limit on boxes: a build comes to the shape that it would come to without a limit, or to none. -/

namespace TerrainStream.Shape

open Cell

/-- What a worker does with its scratch memory. -/
inductive Use
  | build (limit : Nat) (snap : Snapshot)
  | trim (most : Nat)

/-- What a build comes to with scratch memory that was never used. -/
def Use.answer? : Use → Option (Except BuildError Shape)
  | build limit snap => some (merge limit snap .empty).2
  | trim _ => none

namespace Scratch

def use (s : Scratch) : Use → Scratch
  | .build limit snap => (merge limit snap s).1
  | .trim most => s.trim most

/-- What the builds among some uses come to, each with what those before it have left. -/
def answers (s : Scratch) : List Use → List (Except BuildError Shape)
  | [] => []
  | .build limit snap :: rest => (merge limit snap s).2 :: (s.use (.build limit snap)).answers rest
  | .trim most :: rest => (s.use (.trim most)).answers rest

theorem answers_eq (s : Scratch) (uses : List Use) : s.answers uses = uses.filterMap Use.answer? := by
  induction uses generalizing s with
  | nil => rfl
  | cons u rest ih =>
    cases u with
    | build limit snap =>
      have fresh := merge_pure limit snap s .empty
      rw [answers, fresh, ih]
      rfl
    | trim most => exact ih (s.use (.trim most))

end Scratch

/-- The largest limit that fits into a word. -/
def unlimited : Nat := UInt64.size - 1

variable {snap : Snapshot}

theorem length_decomposition (snap : Snapshot) :
    (decomposition snap).length ≤ snap.size * snap.size * snap.size := by
  calc (decomposition snap).length
      = ((decomposition snap).map (·.lo)).length := (List.length_map _).symm
    _ ≤ (Spot.cube snap.size).length := (blocks_corners _ _).length_le
    _ = snap.size * snap.size * snap.size := by rw [cube_eq_spots, Block.length_spots, Nat.sub_zero]

/-- No cell that can be built takes as many boxes as a word can count. -/
theorem length_decomposition_le (whole : snap.Whole) : (decomposition snap).length ≤ unlimited := by
  have small : snap.size * snap.size * snap.size ≤ 65535 * 65535 * 65535 :=
    Nat.mul_le_mul (Nat.mul_le_mul whole.bounded whole.bounded) whole.bounded
  exact Nat.le_trans (length_decomposition snap) (Nat.le_trans small (by decide))

/-- What is flawed is turned away before the scratch memory is touched. -/
theorem merge_flawed {flaw : Flaw} (flawed : flaw? snap = some flaw) (limit : Nat) (scratch : Scratch) :
    merge limit snap scratch = (scratch, .error (.degenerate snap.coord flaw)) := by
  rw [merge, flawed]

theorem exists_flaw (flawed : ¬ snap.Whole) : ∃ flaw, flaw? snap = some flaw := by
  rw [Snapshot.whole_iff] at flawed
  exact Option.ne_none_iff_exists'.mp flawed

/-- The scratch memory and the limit on boxes change no shape. However scratch memory has been used, each build comes to
what it comes to with fresh memory. A snapshot without a flaw has one shape: builds come to it if it has no more boxes
than they may make, as the unlimited build does, and to an error that names the limit if not. A snapshot with a flaw is
turned away, and the scratch memory stays as it is. No build looks at a voxel or a mark that is not there. -/
theorem scratch_and_limit_change_no_shape (snap : Snapshot) :
    (∀ scratch : Scratch, ∀ uses, scratch.answers uses = uses.filterMap Use.answer?) ∧
    (∀ limit scratch, (merge limit snap scratch).2 = (merge limit snap .empty).2) ∧
    (snap.Whole → ∃ shape, ∀ scratch, (merge unlimited snap scratch).2 = .ok shape ∧
      ∀ limit, (merge limit snap scratch).2 =
        if shape.boxes.size ≤ limit then .ok shape else .error (.tooManyBoxes snap.coord limit)) ∧
    (snap.size = 0 ∨ snap.size > 65535 ∨ snap.voxels.size ≠ snap.size * snap.size * snap.size →
      ∃ flaw, flaw? snap = some flaw ∧
        ∀ limit scratch, merge limit snap scratch = (scratch, .error (.degenerate snap.coord flaw))) ∧
    (∀ limit scratch, merge? limit snap scratch = some (merge limit snap scratch)) := by
  refine ⟨Scratch.answers_eq, fun limit scratch => merge_pure limit snap scratch _, fun whole => ?_, fun flawed => ?_,
    fun limit => merge?_eq limit snap⟩
  · refine ⟨⟨snap.coord, snap.size, ((decomposition snap).map Block.toBox).toArray⟩, fun scratch => ⟨?_, fun limit => ?_⟩⟩
    · rw [merge_outcome whole, if_pos (length_decomposition_le whole)]
    · rw [merge_outcome whole, List.size_toArray, List.length_map]
  · obtain ⟨flaw, found⟩ : ∃ flaw, flaw? snap = some flaw := by
      refine exists_flaw fun whole => ?_
      rcases flawed with none | oversized | miscounted
      · exact Nat.ne_of_gt whole.positive none
      · exact Nat.not_le_of_lt oversized whole.bounded
      · exact miscounted whole.counted
    exact ⟨flaw, found, merge_flawed found⟩

/-- Two voxels per edge, no two solid ones side by side. -/
private def chequered : Snapshot :=
  ⟨⟨0, 0, 0⟩, 2, #[⟨1⟩, ⟨0⟩, ⟨0⟩, ⟨1⟩, ⟨0⟩, ⟨1⟩, ⟨1⟩, ⟨0⟩]⟩

/-- A chequered cell takes four boxes, also where a build that gave up has left its marks. With a voxel missing it is
turned away. -/
theorem scratch_and_limit_change_no_shape_chequered :
    let left := Scratch.empty.use (.build 1 chequered)
    let torn : Snapshot := { chequered with voxels := chequered.voxels.pop }
    left.marks.countP id = 2 ∧
    (∃ shape, shape.boxes.size = 4 ∧ (merge 4 chequered left).2 = .ok shape ∧
      (merge 3 chequered left).2 = .error (.tooManyBoxes ⟨0, 0, 0⟩ 3)) ∧
    merge 4 torn left = (left, .error (.degenerate ⟨0, 0, 0⟩ .wrongCount)) := by
  intro left torn
  have whole : chequered.Whole := Snapshot.whole_iff.mpr (by decide)
  have marked : left.marks.countP id = 2 := by decide +kernel
  have four : (merge unlimited chequered .empty).2.toOption.map (·.boxes.size) = some 4 := by decide +kernel
  obtain ⟨_, _, built, _⟩ := scratch_and_limit_change_no_shape chequered
  obtain ⟨shape, made⟩ := built whole
  have size : shape.boxes.size = 4 := by
    rw [(made .empty).1] at four
    exact Option.some.inj four
  obtain ⟨_, _, _, torned, _⟩ := scratch_and_limit_change_no_shape torn
  obtain ⟨flaw, found, turned⟩ := torned (.inr (.inr (by decide)))
  obtain rfl : .wrongCount = flaw := Option.some.inj found
  refine ⟨marked, ⟨shape, size, ?_, ?_⟩, turned 4 left⟩
  · rw [(made left).2, size]
    rfl
  · rw [(made left).2, size]
    rfl

end TerrainStream.Shape
