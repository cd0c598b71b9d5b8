import TerrainStream.Proofs.Shape.Carving
import TerrainStream.Shape.Cover

/-! The coarse fallback is the least box around what a snapshot fills. So a build, or what stands in for it,
always shows the snapshot: box by box, or as a whole. -/

namespace TerrainStream

open Cell Shape

namespace Cell.Snapshot

/-- A range is the least one that holds a coordinate of every member. -/
structure Spans (axis : Spot → Nat) (member : Spot → Prop) (least most : Nat) : Prop where
  within : ∀ p, member p → least ≤ axis p ∧ axis p ≤ most
  low : ∃ p, member p ∧ axis p = least
  high : ∃ p, member p ∧ axis p = most

/-- A region is the least one that holds every member. -/
structure Reach.Around (r : Reach) (member : Spot → Prop) : Prop where
  x : Spans (·.x) member r.lo.x r.hi.x
  y : Spans (·.y) member r.lo.y r.hi.y
  z : Spans (·.z) member r.lo.z r.hi.z

/-- A region, if there is one, is the least that holds every member; without a region there is no member. -/
def Surrounds (r : Option Reach) (member : Spot → Prop) : Prop := r.elim (∀ p, ¬ member p) (·.Around member)

variable {axis : Spot → Nat} {member member' : Spot → Prop} {least most : Nat} {q : Spot}

private theorem Spans.include (spans : Spans axis member least most) (joined : ∀ p, member' p ↔ member p ∨ p = q) :
    Spans axis member' (min least (axis q)) (max most (axis q)) := by
  obtain ⟨within, ⟨low, below, isLow⟩, ⟨high, above, isHigh⟩⟩ := spans
  refine ⟨fun p joins => ?_, ?_, ?_⟩
  · rcases (joined p).mp joins with old | rfl
    · exact ⟨Nat.le_trans (Nat.min_le_left _ _) (within p old).1, Nat.le_trans (within p old).2 (Nat.le_max_left _ _)⟩
    · exact ⟨Nat.min_le_right _ _, Nat.le_max_right _ _⟩
  · rcases Nat.le_total least (axis q) with first | first
    · exact ⟨low, (joined low).mpr (.inl below), by rw [isLow, Nat.min_eq_left first]⟩
    · exact ⟨q, (joined q).mpr (.inr rfl), by rw [Nat.min_eq_right first]⟩
  · rcases Nat.le_total (axis q) most with last | last
    · exact ⟨high, (joined high).mpr (.inl above), by rw [isHigh, Nat.max_eq_left last]⟩
    · exact ⟨q, (joined q).mpr (.inr rfl), by rw [Nat.max_eq_right last]⟩

private theorem spans_one (only : ∀ p, member p ↔ p = q) : Spans axis member (axis q) (axis q) := by
  have here : member q := (only q).mpr rfl
  refine ⟨fun p joins => ?_, ⟨q, here, rfl⟩, ⟨q, here, rfl⟩⟩
  rw [(only p).mp joins]
  exact ⟨Nat.le_refl _, Nat.le_refl _⟩

private theorem Surrounds.include {r : Option Reach} (surrounds : Surrounds r member)
    (joined : ∀ p, member' p ↔ member p ∨ p = q) : (Reach.include r q).Around member' := by
  cases r with
  | none =>
    have only (p : Spot) : member' p ↔ p = q := (joined p).trans (or_iff_right (surrounds p))
    exact ⟨spans_one only, spans_one only, spans_one only⟩
  | some r => exact ⟨surrounds.x.include joined, surrounds.y.include joined, surrounds.z.include joined⟩

private theorem reach_surrounds (s : Snapshot) (spots : List Spot) {r : Option Reach} (surrounds : Surrounds r member)
    (joined : ∀ p, member' p ↔ member p ∨ p ∈ spots ∧ s.solidAt p = true) :
    Surrounds (spots.foldl (fun r p => if s.solidAt p then some (Reach.include r p) else r) r) member' := by
  induction spots generalizing r member with
  | nil =>
    have same : member' = member := by
      funext p
      simp [joined p]
    rwa [same]
  | cons q spots ih =>
    rw [List.foldl_cons]
    split
    · rename_i solid
      refine ih (r := some (Reach.include r q)) (surrounds.include fun p => Iff.rfl) fun p => (joined p).trans ?_
      rw [List.mem_cons, or_and_right, or_assoc]
      refine or_congr_right (or_congr_left ⟨And.left, ?_⟩)
      rintro rfl
      exact ⟨rfl, solid⟩
    · rename_i air
      refine ih surrounds fun p => (joined p).trans (or_congr_right ?_)
      rw [List.mem_cons]
      refine ⟨fun ⟨listed, solid⟩ => ⟨listed.resolve_left ?_, solid⟩, fun ⟨listed, solid⟩ => ⟨.inr listed, solid⟩⟩
      rintro rfl
      exact air solid

/-- The reach of a snapshot is the least region around what it fills. -/
theorem solidReach_surrounds (s : Snapshot) : Surrounds s.solidReach (fun p => s.fills p = true) := by
  have nothing : Surrounds none fun _ => False := fun _ none => none
  refine reach_surrounds s _ nothing fun p => ?_
  rw [fills_iff, Spot.mem_cube, false_or]

end Cell.Snapshot

namespace Shape

open Snapshot

variable {snap : Snapshot} {p : Spot}

/-- A snapshot fills something, and a box is the least one around it. -/
structure Tight (snap : Snapshot) (box : Box) : Prop where
  filled : ∃ p, snap.fills p = true
  around : ∀ p, snap.fills p = true → box.contains p = true
  least : ∀ other : Box, (∀ p, snap.fills p = true → other.contains p = true) →
    ∀ p, box.contains p = true → other.contains p = true

private theorem ofReach_contains {r : Reach} : (Block.ofReach r).contains p = true ↔
    (r.lo.x ≤ p.x ∧ p.x ≤ r.hi.x) ∧ (r.lo.y ≤ p.y ∧ p.y ≤ r.hi.y) ∧ r.lo.z ≤ p.z ∧ p.z ≤ r.hi.z := by
  simp only [Block.contains_iff, Block.ofReach, Nat.lt_succ_iff]

/-- The region around what a snapshot fills makes a tight box. -/
private theorem around_tight (whole : snap.Whole) {r : Reach} (around : r.Around fun p => snap.fills p = true) :
    Tight snap (Block.ofReach r).toBox := by
  obtain ⟨⟨x, ⟨left, isLeft, atLeft⟩, right, isRight, atRight⟩, ⟨y, ⟨bottom, isBottom, atBottom⟩, top, isTop, atTop⟩,
    z, ⟨front, isFront, atFront⟩, back, isBack, atBack⟩ := around
  have inside : (Block.ofReach r).Inside snap.size := by
    have wide := (Spot.within_iff.mp (fills_iff.mp isRight).1).1
    have high := (Spot.within_iff.mp (fills_iff.mp isTop).1).2.1
    have deep := (Spot.within_iff.mp (fills_iff.mp isBack).1).2.2
    exact ⟨Nat.succ_le_of_lt (by omega), Nat.succ_le_of_lt (by omega), Nat.succ_le_of_lt (by omega)⟩
  have holds (p : Spot) (filled : snap.fills p = true) : (Block.ofReach r).contains p = true :=
    ofReach_contains.mpr ⟨x p filled, y p filled, z p filled⟩
  have same := inside.toBox_contains whole.bounded (holds left isLeft)
  refine ⟨⟨left, isLeft⟩, fun p filled => (same p).trans (holds p filled), fun other around p within => ?_⟩
  rw [same, ofReach_contains] at within
  obtain ⟨⟨beyondLeft, _⟩, _, _⟩ := Box.contains_iff.mp (around left isLeft)
  obtain ⟨⟨_, beyondRight⟩, _, _⟩ := Box.contains_iff.mp (around right isRight)
  obtain ⟨_, ⟨beyondBottom, _⟩, _⟩ := Box.contains_iff.mp (around bottom isBottom)
  obtain ⟨_, ⟨_, beyondTop⟩, _⟩ := Box.contains_iff.mp (around top isTop)
  obtain ⟨_, _, beyondFront, _⟩ := Box.contains_iff.mp (around front isFront)
  obtain ⟨_, _, _, beyondBack⟩ := Box.contains_iff.mp (around back isBack)
  exact Box.contains_iff.mpr ⟨⟨by omega, by omega⟩, ⟨by omega, by omega⟩, by omega, by omega⟩

/-- The voxels of a snapshot without a flaw are trusted. -/
theorem cover?_whole (whole : snap.Whole) : cover? snap = snap.solidReach.map Block.ofReach := by
  have trusted : ¬ (snap.voxels.size ≠ snap.size * snap.size * snap.size ∨ snap.size > 65535) := by
    rintro (miscounted | oversized)
    · exact miscounted whole.counted
    · exact Nat.not_le_of_lt oversized whole.bounded
  rw [cover?, if_neg trusted]

/-- A snapshot that fills anything is covered by one box, the least that there is. -/
theorem coarse_tight (whole : snap.Whole) (matter : ∃ p, snap.fills p = true) :
    ∃ box, (coarse snap).boxes = #[box] ∧ Tight snap box := by
  have surrounds := solidReach_surrounds snap
  rw [coarse, cover?_whole whole]
  cases reach : snap.solidReach with
  | none =>
    rw [reach] at surrounds
    obtain ⟨p, filled⟩ := matter
    exact absurd filled (surrounds p)
  | some r =>
    rw [reach] at surrounds
    exact ⟨_, rfl, around_tight whole surrounds⟩

/-- What a shape has to do with the snapshot that it was made from: a coarse one is the least box around it, any
other is exact. -/
def Shows (snap : Snapshot) (shape : Shape) : (placeholder : Bool) → Prop
  | true => ∃ box, shape.boxes = #[box] ∧ Tight snap box
  | false => Exact snap shape

/-- A build, or what stands in for it, shows the snapshot. -/
theorem built_shows (whole : snap.Whole) (limit : Nat) (scratch : Scratch) :
    Shows snap (buildOrCover (merge limit) snap scratch).2.1 (buildOrCover (merge limit) snap scratch).2.2 := by
  rcases merge_spec whole limit scratch with ⟨left, shape, ended, exact⟩ | ⟨left, e, ended, filled⟩
  · rw [buildOrCover, ended]
    exact exact
  · rw [buildOrCover, ended]
    exact coarse_tight whole filled

end Shape

end TerrainStream
