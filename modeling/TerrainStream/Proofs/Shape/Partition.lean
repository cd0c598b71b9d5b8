import Mathlib.Algebra.BigOperators.Group.List.Basic
import Mathlib.Algebra.Ring.Nat
import Mathlib.Data.List.Nodup
import TerrainStream.Proofs.Shape.Carving

/-! A decomposition partitions what a snapshot fills. The blocks are told apart from the boxes that store them and
from the limit on boxes: a build keeps all of them, or fails. -/

namespace TerrainStream

open Cell Shape

namespace Cell

/-- A spot comes before another in storage: by layer, then by row, then within the row. -/
def Spot.Before (p q : Spot) : Prop := p.y < q.y ∨ p.y = q.y ∧ (p.z < q.z ∨ p.z = q.z ∧ p.x < q.x)

theorem Spot.Before.ne {p q : Spot} (before : p.Before q) : p ≠ q := by
  rintro rfl
  rcases before with less | ⟨_, less | ⟨_, less⟩⟩ <;> exact absurd less (Nat.lt_irrefl _)

end Cell

namespace Shape

/-- The spots of a block come in the order of storage. -/
theorem Block.spots_sorted (b : Block) : b.spots.Pairwise Spot.Before := by
  unfold spots
  refine List.pairwise_flatMap.mpr ⟨fun y _ => ?_, ?_⟩
  · refine List.pairwise_flatMap.mpr ⟨fun z _ => ?_, ?_⟩
    · exact List.pairwise_map.mpr ((List.pairwise_lt_range' 1).imp fun less => .inr ⟨rfl, .inr ⟨rfl, less⟩⟩)
    · refine (List.pairwise_lt_range' 1).imp fun less p row q next => ?_
      obtain ⟨_, _, rfl⟩ := List.mem_map.mp row
      obtain ⟨_, _, rfl⟩ := List.mem_map.mp next
      exact .inr ⟨rfl, .inl less⟩
  · refine (List.pairwise_lt_range' 1).imp fun less p layer q next => ?_
    obtain ⟨_, _, row⟩ := List.mem_flatMap.mp layer
    obtain ⟨_, _, rfl⟩ := List.mem_map.mp row
    obtain ⟨_, _, row⟩ := List.mem_flatMap.mp next
    obtain ⟨_, _, rfl⟩ := List.mem_map.mp row
    exact .inl less

theorem Block.spots_nodup (b : Block) : b.spots.Nodup := b.spots_sorted.imp Spot.Before.ne

/-- A cell is itself a block. -/
theorem cube_eq_spots (n : Nat) : Spot.cube n = (Block.mk ⟨0, 0, 0⟩ ⟨n, n, n⟩).spots := by
  simp [Spot.cube, Block.spots, List.range_eq_range']

theorem cube_nodup (n : Nat) : (Spot.cube n).Nodup := cube_eq_spots n ▸ Block.spots_nodup _

variable {snap : Snapshot} {marks : Array Bool} {b : Block} {n : Nat}

/-- The blocks that grow out of the spots in turn, each out of what the ones before it have left. -/
def blocks (snap : Snapshot) : List Spot → Array Bool → List Block
  | [], _ => []
  | p :: rest, marks =>
    if isOpen snap marks p then grow snap marks p :: blocks snap rest (mark snap marks (grow snap marks p))
    else blocks snap rest marks

/-- All the blocks of a snapshot. -/
def decomposition (snap : Snapshot) : List Block :=
  blocks snap (Spot.cube snap.size) (Array.replicate (snap.size * snap.size * snap.size) false)

/-- Carving adds one box for each block, or fails if that makes more boxes than it may. -/
theorem carve_blocks (snap : Snapshot) (limit : Nat) (spots : List Spot) (marks : Array Bool) (boxes : Array Box)
    (room : boxes.size ≤ limit) :
    (carve snap limit spots marks boxes).2 =
      if boxes.size + (blocks snap spots marks).length ≤ limit
      then some (boxes ++ ((blocks snap spots marks).map Block.toBox).toArray) else none := by
  induction spots generalizing marks boxes with
  | nil => simp [carve, blocks, room]
  | cons p rest ih =>
    unfold carve blocks
    split
    · dsimp only
      split
      · rename_i full
        rw [if_neg (by simp [full])]
      · rename_i spare
        have next : (boxes.push (grow snap marks p).toBox).size ≤ limit := by
          rw [Array.size_push]
          omega
        rw [ih _ _ next, Array.size_push, List.length_cons, Nat.add_right_comm, Nat.add_assoc]
        simp
    · exact ih marks boxes room

/-- A block with spots in it that lies in a cell. -/
structure Block.Regular (b : Block) (n : Nat) : Prop extends b.Inside n where
  wide : b.lo.x < b.hi.x
  high : b.lo.y < b.hi.y
  deep : b.lo.z < b.hi.z

theorem grow_regular {p : Spot} (inside : p.within snap.size = true) (here : isOpen snap marks p = true) :
    (grow snap marks p).Regular snap.size := by
  obtain ⟨corner, holds, x, y, z, _⟩ := grow_spec inside here
  obtain ⟨⟨_, wide⟩, ⟨_, high⟩, _, deep⟩ := Block.contains_iff.mp holds
  exact ⟨⟨x, y, z⟩, corner ▸ wide, corner ▸ high, corner ▸ deep⟩

theorem blocks_regular (spots : List Spot) (marks : Array Bool) (within : ∀ p ∈ spots, p.within snap.size = true) :
    ∀ b ∈ blocks snap spots marks, b.Regular snap.size := by
  induction spots generalizing marks with
  | nil => exact fun b none => absurd none List.not_mem_nil
  | cons p rest ih =>
    have later (q : Spot) (listed : q ∈ rest) : q.within snap.size = true := within q (List.mem_cons_of_mem _ listed)
    unfold blocks
    split
    · rename_i here
      intro b listed
      rcases List.mem_cons.mp listed with rfl | listed
      · exact grow_regular (within p List.mem_cons_self) here
      · exact ih _ later b listed
    · exact ih marks later

theorem decomposition_regular (b : Block) (listed : b ∈ decomposition snap) : b.Regular snap.size :=
  blocks_regular _ _ (fun _ => Spot.mem_cube.mp) b listed

/-- The blocks start at some of the spots, taken in order. -/
theorem blocks_corners (spots : List Spot) (marks : Array Bool) :
    ((blocks snap spots marks).map (·.lo)).Sublist spots := by
  induction spots generalizing marks with
  | nil => exact List.Sublist.slnil
  | cons p rest ih =>
    unfold blocks
    split
    · exact (ih _).cons_cons p
    · exact (ih marks).cons p

theorem decomposition_sorted (snap : Snapshot) : (decomposition snap).Pairwise fun a b => a.lo.Before b.lo := by
  have sorted : (Spot.cube snap.size).Pairwise Spot.Before := cube_eq_spots _ ▸ Block.spots_sorted _
  exact List.pairwise_map.mp (sorted.sublist (blocks_corners _ _))

/-- Where a corner is. -/
def Corner.spot (c : Corner) : Spot := ⟨c.x.toNat, c.y.toNat, c.z.toNat⟩

/-- The block that a box stores. -/
def Box.block (b : Box) : Block := ⟨b.lo.spot, b.hi.spot⟩

theorem Corner.spot_ofSpot {p : Spot} (x : p.x ≤ 65535) (y : p.y ≤ 65535) (z : p.z ≤ 65535) : (ofSpot p).spot = p := by
  rw [ofSpot, spot, UInt16.toNat_ofNat_of_lt' (Nat.lt_succ_of_le x), UInt16.toNat_ofNat_of_lt' (Nat.lt_succ_of_le y),
    UInt16.toNat_ofNat_of_lt' (Nat.lt_succ_of_le z)]

/-- In a cell that is small enough no corner is cut down. -/
theorem Block.Regular.block_toBox (regular : b.Regular n) (bounded : n ≤ 65535) : b.toBox.block = b := by
  have ⟨⟨x, y, z⟩, wide, high, deep⟩ := regular
  rw [toBox, Box.block, Corner.spot_ofSpot (by omega) (by omega) (by omega),
    Corner.spot_ofSpot (by omega) (by omega) (by omega)]

/-- A build stores the decomposition, unless it takes more boxes than it may. -/
theorem merge_outcome (whole : snap.Whole) (limit : Nat) (scratch : Scratch) :
    (merge limit snap scratch).2 =
      if (decomposition snap).length ≤ limit
      then .ok ⟨snap.coord, snap.size, ((decomposition snap).map Block.toBox).toArray⟩
      else .error (.tooManyBoxes snap.coord limit) := by
  have carved := carve_blocks snap limit (Spot.cube snap.size) (scratch.reset snap.voxels.size).marks #[]
    (Nat.zero_le _)
  have blank : (scratch.reset snap.voxels.size).marks = Array.replicate (snap.size * snap.size * snap.size) false := by
    rw [Scratch.reset, whole.counted]
  rw [blank, ← decomposition, Array.size_empty, Nat.zero_add, Array.empty_append, ← blank] at carved
  rw [merge, Snapshot.whole_iff.mp whole]
  dsimp only
  split
  · rename_i ended
    rw [ended] at carved
    split at carved
    · cases carved
      rw [if_pos ‹_›]
    · cases carved
  · rename_i ended
    rw [ended] at carved
    split at carved
    · cases carved
    · rw [if_neg ‹_›]

/-- A builder whose answer does not depend on what earlier builds left in the scratch memory. -/
def Builder.Pure (builder : Builder) : Prop :=
  ∀ snap scratch scratch', (builder snap scratch).2 = (builder snap scratch').2

theorem merge_pure (limit : Nat) : Builder.Pure (merge limit) := by
  intro snap scratch scratch'
  unfold merge
  cases flaw? snap with
  | some flaw => rfl
  | none =>
    dsimp only [Scratch.reset]
    split <;> rfl

theorem Block.length_spots (b : Block) :
    b.spots.length = (b.hi.x - b.lo.x) * (b.hi.y - b.lo.y) * (b.hi.z - b.lo.z) := by
  simp only [spots, List.length_flatMap, List.length_map, List.length_range', List.map_const', List.sum_replicate_nat]
  rw [Nat.mul_comm (b.hi.z - b.lo.z), ← Nat.mul_assoc, Nat.mul_comm (b.hi.y - b.lo.y)]

theorem Block.Regular.spots_pos (regular : b.Regular n) : 0 < b.spots.length := by
  rw [Block.length_spots]
  exact Nat.mul_pos (Nat.mul_pos (Nat.sub_pos_of_lt regular.wide) (Nat.sub_pos_of_lt regular.high))
    (Nat.sub_pos_of_lt regular.deep)

/-- A block that lies in a cell has as many spots as the cell has in the block. -/
theorem Block.Inside.countP_cube (inside : b.Inside n) : (Spot.cube n).countP b.contains = b.spots.length := by
  have same : ((Spot.cube n).filter b.contains).Perm b.spots := by
    refine (List.perm_ext_iff_of_nodup ((cube_nodup n).filter _) b.spots_nodup).mpr fun p => ?_
    rw [List.mem_filter, Spot.mem_cube, Block.mem_spots]
    exact ⟨fun both => both.2, fun holds => ⟨inside.within holds, holds⟩⟩
  rw [List.countP_eq_length_filter, same.length_eq]

/-- A cell has as many filled spots as its snapshot stores solid voxels. -/
theorem countP_fills (whole : snap.Whole) : (Spot.cube snap.size).countP snap.fills = snap.solidCount := by
  have places : ((Spot.cube snap.size).map snap.index).Perm (List.range snap.voxels.size) := by
    have apart : ((Spot.cube snap.size).map snap.index).Nodup := (cube_nodup snap.size).map_on fun p left q right =>
      Snapshot.index_inj (Spot.mem_cube.mp left) (Spot.mem_cube.mp right)
    refine (List.perm_ext_iff_of_nodup apart List.nodup_range).mpr fun i => ?_
    rw [List.mem_map, List.mem_range, whole.counted]
    constructor
    · rintro ⟨p, listed, rfl⟩
      exact Snapshot.index_lt (Spot.mem_cube.mp listed)
    · intro stored
      obtain ⟨p, inside, place⟩ := Snapshot.index_onto stored
      exact ⟨p, Spot.mem_cube.mpr inside, place⟩
  have entries : (List.range snap.voxels.size).map (snap.voxels[·]?) = snap.voxels.toList.map some := by
    refine List.ext_getElem (by simp) fun i left right => ?_
    simp at left right
    simp [left]
  calc (Spot.cube snap.size).countP snap.fills
      = (Spot.cube snap.size).countP ((fun v => v.any Voxel.isSolid) ∘ (snap.voxels[·]?) ∘ snap.index) := by
        refine List.countP_congr fun p listed => ?_
        rw [Snapshot.fills_iff, Spot.mem_cube.mp listed]
        exact and_iff_right rfl
    _ = (snap.voxels.toList.map some).countP (fun v => v.any Voxel.isSolid) := by
        rw [← List.countP_map, ← List.map_map, (places.map _).countP_eq, entries]
    _ = snap.solidCount := by
        rw [List.countP_map, Snapshot.solidCount, ← Array.countP_toList]
        rfl

theorem sum_toNat {α : Type} (f : α → Bool) (xs : List α) : (xs.map fun x => (f x).toNat).sum = xs.countP f := by
  induction xs with
  | nil => rfl
  | cons x xs ih =>
    rw [List.map_cons, List.sum_cons, ih, List.countP_cons, Nat.add_comm]
    cases f x <;> rfl

/-- Counting the spots of each box counts the boxes of each spot. -/
theorem sum_countP_comm {α β : Type} (holds : β → α → Bool) (bs : List β) (xs : List α) :
    (bs.map fun b => xs.countP (holds b)).sum = (xs.map fun x => bs.countP (holds · x)).sum := by
  induction bs with
  | nil => simp
  | cons b bs ih =>
    rw [List.map_cons, List.sum_cons, ih, ← sum_toNat, ← List.sum_map_add]
    congr 1
    refine List.map_congr_left fun x _ => ?_
    rw [List.countP_cons, Nat.add_comm]
    cases holds b x <;> rfl

theorem Box.volume_eq (box : Box) : box.volume = box.block.spots.length := (Block.length_spots box.block).symm

theorem volume_eq_sum (shape : Shape) : shape.volume = (shape.boxes.toList.map Box.volume).sum := by
  rw [Shape.volume, ← Array.foldl_toList, List.sum_eq_foldl, List.foldl_map]

/-- Boxes that lie in the cell and hold each filled spot once have the volume of all that is filled. -/
theorem volume_of_hits (whole : snap.Whole) {shape : Shape} (inside : ∀ box ∈ shape.boxes, box.block.Inside snap.size)
    (hits : ∀ p, shape.hits p = (snap.fills p).toNat) : shape.volume = snap.solidCount := by
  calc shape.volume
      = (shape.boxes.toList.map fun box => (Spot.cube snap.size).countP box.contains).sum := by
        rw [volume_eq_sum]
        congr 1
        refine List.map_congr_left fun box listed => ?_
        rw [Box.volume_eq, ← (inside box (Array.mem_toList_iff.mp listed)).countP_cube]
        rfl
    _ = ((Spot.cube snap.size).map shape.hits).sum := by
        rw [sum_countP_comm]
        congr 1
        refine List.map_congr_left fun p _ => ?_
        rw [Array.countP_toList, Shape.hits]
    _ = (Spot.cube snap.size).countP snap.fills := by rw [← sum_toNat, List.map_congr_left fun p _ => hits p]
    _ = snap.solidCount := countP_fills whole

/-- A build that comes off partitions what the snapshot fills, whatever the limit and whatever the scratch memory held
before. Its boxes store the blocks of the decomposition with no corner cut down. Each of them has spots and lies in
the cell, each spot is in one box if it is filled and in none if not, and the boxes come in the order of their lower
corners. There are no more of them than the limit, nor than solid voxels, and together they have the volume of the
solid voxels. -/
theorem merge_partitions (whole : snap.Whole) {limit : Nat} {scratch scratch' : Scratch} {shape : Shape}
    (built : merge limit snap scratch = (scratch', .ok shape)) :
    shape.boxes = ((decomposition snap).map Block.toBox).toArray ∧
    shape.boxes.toList.map Box.block = decomposition snap ∧
    (∀ box ∈ shape.boxes,
      (box.lo.x < box.hi.x ∧ box.lo.y < box.hi.y ∧ box.lo.z < box.hi.z) ∧
      box.hi.x.toNat ≤ snap.size ∧ box.hi.y.toNat ≤ snap.size ∧ box.hi.z.toNat ≤ snap.size) ∧
    (∀ p, shape.hits p = (snap.fills p).toNat) ∧
    (shape.boxes.toList.Pairwise fun a b => a.lo.spot.Before b.lo.spot) ∧
    shape.boxes.size ≤ limit ∧ shape.boxes.size ≤ snap.solidCount ∧ shape.volume = snap.solidCount := by
  have exact : Exact snap shape := by
    rcases merge_spec whole limit scratch with ⟨_, _, ended, exact⟩ | ⟨_, _, ended, _⟩
    · cases built.symm.trans ended
      exact exact
    · cases built.symm.trans ended
  obtain ⟨boxes, room⟩ : shape.boxes = ((decomposition snap).map Block.toBox).toArray ∧
      (decomposition snap).length ≤ limit := by
    have outcome := merge_outcome whole limit scratch
    rw [built] at outcome
    split at outcome
    · cases outcome
      exact ⟨rfl, ‹_›⟩
    · cases outcome
  have stored : shape.boxes.toList.map Box.block = decomposition snap := by
    rw [boxes, List.map_map]
    conv_rhs => rw [← List.map_id (decomposition snap)]
    exact List.map_congr_left fun b listed => (decomposition_regular b listed).block_toBox whole.bounded
  have regular (box : Box) (listed : box ∈ shape.boxes) : box.block.Regular snap.size := by
    refine decomposition_regular _ ?_
    rw [← stored]
    exact List.mem_map_of_mem (Array.mem_toList_iff.mpr listed)
  have volume := volume_of_hits whole (fun box listed => (regular box listed).toInside) exact.hits
  refine ⟨boxes, stored, fun box listed => ?_, exact.hits, ?_, ?_, ?_, volume⟩
  · obtain ⟨⟨x, y, z⟩, wide, high, deep⟩ := regular box listed
    exact ⟨⟨UInt16.lt_iff_toNat_lt.mpr wide, UInt16.lt_iff_toNat_lt.mpr high, UInt16.lt_iff_toNat_lt.mpr deep⟩, x, y, z⟩
  · have sorted := decomposition_sorted snap
    rw [← stored, List.pairwise_map] at sorted
    exact sorted
  · rw [boxes, List.size_toArray, List.length_map]
    exact room
  · rw [← volume, volume_eq_sum, ← Array.length_toList, ← List.length_map (f := Box.volume)]
    refine List.length_le_sum_of_one_le _ fun count listed => ?_
    obtain ⟨box, there, rfl⟩ := List.mem_map.mp listed
    rw [Box.volume_eq]
    exact (regular box (Array.mem_toList_iff.mp there)).spots_pos

/-- Two voxels per edge, all solid but the last. -/
private def notched : Snapshot := ⟨⟨0, 0, 0⟩, 2, (Array.replicate 7 ⟨1⟩).push Voxel.air⟩

/-- A notched cell takes three boxes: a layer, a row and a voxel. -/
theorem merge_partitions_notched :
    ∃ scratch' shape, notched.Whole ∧ merge 3 notched .empty = (scratch', .ok shape) ∧
      shape.boxes = #[⟨⟨0, 0, 0⟩, ⟨2, 1, 2⟩⟩, ⟨⟨0, 1, 0⟩, ⟨2, 2, 1⟩⟩, ⟨⟨0, 1, 1⟩, ⟨1, 2, 2⟩⟩] ∧ shape.volume = 7 := by
  have whole : notched.Whole := Snapshot.whole_iff.mpr (by decide)
  have solid : notched.solidCount = 7 := by decide +kernel
  have cut : ((decomposition notched).map Block.toBox).toArray =
      #[⟨⟨0, 0, 0⟩, ⟨2, 1, 2⟩⟩, ⟨⟨0, 1, 0⟩, ⟨2, 2, 1⟩⟩, ⟨⟨0, 1, 1⟩, ⟨1, 2, 2⟩⟩] := by decide +kernel
  have ended := merge_outcome whole 3 .empty
  rw [if_pos (by decide +kernel)] at ended
  obtain ⟨scratch', shape, built⟩ : ∃ scratch' shape, merge 3 notched .empty = (scratch', .ok shape) :=
    ⟨_, _, Prod.ext rfl ended⟩
  obtain ⟨boxes, _, _, _, _, _, _, volume⟩ := merge_partitions whole built
  exact ⟨scratch', shape, whole, built, boxes.trans cut, volume.trans solid⟩

end Shape

end TerrainStream
