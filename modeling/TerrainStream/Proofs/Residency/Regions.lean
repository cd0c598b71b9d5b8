import TerrainStream.Proofs.Cell.Enumeration
import TerrainStream.Proofs.Residency.Admission
import TerrainStream.Proofs.Residency.Departure

/-! The regions around a body. The cells of the wider one are kept resident and those of the narrower one active, as far
as they are resident; where the wider one is refused, the tracker keeps the cells that it has. -/

namespace TerrainStream

open Space Cell Physics Store

namespace Residency

variable {grid : Grid} {margins : Margins} {pose : Pose} {cells : Cells} {t : Tracker} {probe : BodyId → Option Pose}

/-- The cells for a pose are those of its two regions. -/
theorem ofPose_eq_some (needed : Cells.ofPose grid margins pose = some cells) :
    ∃ coords, grid.overlapping (reach margins pose) margins.maxCells = some coords ∧
      cells.resident = KeySet.ofList (coords.map Coord.key) ∧
      cells.active = KeySet.ofList (((grid.overlapping (vicinity margins pose) margins.maxCells).getD []).map Coord.key
        |>.filter cells.resident.contains) := by
  unfold Cells.ofPose at needed
  split at needed
  · dsimp only at needed
    cases told : grid.overlapping (reach margins pose) margins.maxCells with
    | none =>
      rw [told] at needed
      cases needed
    | some coords =>
      rw [told] at needed
      cases needed
      exact ⟨coords, rfl, rfl, rfl⟩
  · cases needed

theorem needs_cases (needed : t.needs probe grid margins = some cells) :
    ∃ pose, probe t.body = some pose ∧ Cells.ofPose grid margins pose = some cells := Option.bind_eq_some_iff.mp needed

/-- A body never keeps more cells than its limit. -/
theorem needs_size (needed : t.needs probe grid margins = some cells) : cells.resident.size ≤ margins.maxCells := by
  obtain ⟨pose, _, needed⟩ := needs_cases needed
  obtain ⟨coords, told, resident, _⟩ := ofPose_eq_some needed
  calc cells.resident.size ≤ (coords.map Coord.key).length := resident ▸ Std.ExtTreeSet.size_ofList_le
    _ = coords.length := List.length_map _
    _ ≤ margins.maxCells := Grid.overlapping_le told

theorem needs_active (needed : t.needs probe grid margins = some cells) {key : Key} (active : key ∈ cells.active) :
    key ∈ cells.resident := by
  obtain ⟨pose, _, needed⟩ := needs_cases needed
  obtain ⟨coords, _, _, near⟩ := ofPose_eq_some needed
  rw [near, KeySet.ofList, Std.ExtTreeSet.mem_ofList, List.contains_iff_mem] at active
  exact Std.ExtTreeSet.contains_iff_mem.mp (List.mem_filter.mp active).2

theorem needs_posed (posed : probe t.body = some pose) :
    t.needs probe grid margins = Cells.ofPose grid margins pose := by
  rw [Tracker.needs, posed]
  rfl

/-- Where the wider region is refused, no cells are found for a body. -/
theorem needs_refused (posed : probe t.body = some pose)
    (refused : grid.overlapping (reach margins pose) margins.maxCells = none) : t.needs probe grid margins = none := by
  rw [needs_posed posed]
  cases needed : Cells.ofPose grid margins pose with
  | none => rfl
  | some cells =>
    obtain ⟨coords, told, _⟩ := ofPose_eq_some needed
    rw [refused] at told
    cases told

/-- Where only the narrower region is refused, no cell is active. -/
theorem needs_inactive (needed : t.needs probe grid margins = some cells) (posed : probe t.body = some pose)
    (refused : grid.overlapping (vicinity margins pose) margins.maxCells = none) : cells.active = ∅ := by
  rw [needs_posed posed] at needed
  obtain ⟨coords, _, _, near⟩ := ofPose_eq_some needed
  rw [near, refused]
  rfl

namespace Desk

variable {d : Desk} {body : BodyId} {update : BodyId × Option Cells}

private theorem acquire_trackers (d : Desk) (key : Key) :
    (left (d.acquire key)).planner.trackers = d.planner.trackers := by
  have claimed (d : Desk) (index : Nat) : (d.claim key index .load).1.planner.trackers = d.planner.trackers := by
    unfold Desk.claim
    split <;> rfl
  unfold acquire welcome
  split
  · rfl
  · dsimp only [left]
    split
    · split
      · exact claimed _ _
      · rfl
    · rfl

/-- Following one body leaves the trackers of the others alone, and its own if nothing was found for it. -/
theorem follow_spares (d : Desk) (spared : update.1 = body → update.2 = none) :
    (left (d.follow update)).planner.trackers[body]? = d.planner.trackers[body]? := by
  unfold follow
  split
  · rename_i cells tracker wanted found
    have elsewhere : update.1 ≠ body := by
      intro here
      rw [spared here] at wanted
      cases wanted
    dsimp only
    generalize attempted : Desk.acquireAll _ _ = attempt
    have acquired : (left attempt).planner.trackers = d.planner.trackers.insert update.1 (tracker.adopt cells).1 := by
      rw [← attempted]
      exact attempts_same (·.planner.trackers) (fun d key _ => acquire_trackers d key) _
    have same : (d.planner.trackers.insert update.1 (tracker.adopt cells).1)[body]? = d.planner.trackers[body]? := by
      rw [Table.getElem?_insert, if_neg elsewhere]
    cases attempt with
    | error failure => exact (congrArg (·[body]?) acquired).trans same
    | ok next => exact (congrArg (·[body]?) ((releaseAll_trackers next _).trans acquired)).trans same
  · rfl

/-- A tracker for whose body no cells are found keeps its cells, whatever becomes of the others. -/
theorem followAll_spares (found : d.planner.trackers[body]? = some t)
    (refused : t.needs probe d.planner.grid d.planner.margins = none) :
    (left (d.followAll probe)).planner.trackers[body]? = some t := by
  unfold followAll
  refine (attempts_same (·.planner.trackers[body]?) (fun d update listed => follow_spares d fun here => ?_) d).trans found
  obtain ⟨⟨other, tracker⟩, member, rfl⟩ := List.mem_map.mp listed
  obtain rfl : other = body := here
  obtain rfl : t = tracker := Option.some.inj (found.symm.trans (Table.mem_toList.mp member))
  exact refused

end Desk

/-- Along each axis the index of a cell is the exact floor of the quotient, held to 32 bits. A finite box whose indices
are in order tells every cell of its three ranges once, by y, then z, then x, unless there are more than a limit of 64
bits; it has no room for them just if they are more than a list can hold and no more than the limit. That count and its
verdict come out the same in words of 64 bits. The resident cells found for a body are never more than its limit, and
its active cells are among them. A refused resident region leaves the tracker with the cells that it has; a refused
active region leaves no cell active. -/
theorem regions_are_enumerated_exactly (grid : Grid) :
    (∀ v : Float32, (Int32.minValue.toInt ≤ grid.indexOf v ∧ grid.indexOf v ≤ Int32.maxValue.toInt) ∧
      ((v / ofWhole grid.edge).isNaN = false → grid.indexOf v = saturated ⌊rational (v / ofWhole grid.edge)⌋)) ∧
    (∀ (b : Aabb) (limit : Nat), b.isFinite = true → limit < UInt64.size → (grid.lowest b).x ≤ (grid.highest b).x →
      (grid.lowest b).y ≤ (grid.highest b).y → (grid.lowest b).z ≤ (grid.highest b).z →
      (grid.hasRoom b limit = true → Enumerates (grid.lowest b) (grid.highest b) limit (grid.overlapping b limit)) ∧
      (grid.hasRoom b limit = false ↔ Grid.listLimit < volume (grid.lowest b) (grid.highest b) ∧
        volume (grid.lowest b) (grid.highest b) ≤ limit)) ∧
    (∀ (b : Aabb) (limit : UInt64), b.isFinite = true → grid.hasRoom b limit.toNat = true →
      (grid.overlapping b limit.toNat).map List.length =
        ((Grid.countWord? (grid.lowest b) (grid.highest b)).filter (· ≤ limit)).map UInt64.toNat) ∧
    (∀ (t : Tracker) (probe : BodyId → Option Pose) (margins : Margins) (cells : Cells),
      t.needs probe grid margins = some cells →
      cells.resident.size ≤ margins.maxCells ∧ (∀ key ∈ cells.active, key ∈ cells.resident) ∧
      ∀ pose, probe t.body = some pose → grid.overlapping (vicinity margins pose) margins.maxCells = none →
        cells.active = ∅) ∧
    ∀ (d : Desk) (body : BodyId) (t : Tracker) (probe : BodyId → Option Pose) (pose : Pose),
      d.planner.grid = grid → d.planner.trackers[body]? = some t → probe t.body = some pose →
      grid.overlapping (reach d.planner.margins pose) d.planner.margins.maxCells = none →
      t.needs probe grid d.planner.margins = none ∧ (Desk.left (d.followAll probe)).planner.trackers[body]? = some t := by
  refine ⟨fun v => ⟨floorWhole_bounds _, floorWhole_eq⟩, fun b limit finite word x y z => ?_, fun b limit finite _ => ?_,
    fun t probe margins cells needed => ⟨needs_size needed, fun key => needs_active needed, fun pose => ?_⟩,
    fun d body t probe pose same found posed refused => ?_⟩
  · exact ⟨fun _ => Grid.overlapping_enumerates finite x y z word, Grid.hasRoom_eq_false finite x y z word⟩
  · exact Grid.overlapping_length finite limit
  · exact needs_inactive needed
  · subst same
    have none := needs_refused posed refused
    exact ⟨none, Desk.followAll_spares found none⟩

/-- A box across all indices along one axis holds twice as many cells as 32 bits can count, and one more than it may; a
body with a limit of one cell has its own cell resident, and keeps it when it may have none. -/
theorem regions_are_enumerated_exactly_across :
    let grid : Grid := .ofSize 8
    let wide : Aabb := ⟨⟨-30000000000, 0, 0⟩, ⟨30000000000, 9, 1⟩⟩
    let cell := KeySet.ofList [Coord.key ⟨0, 0, 0⟩]
    let pose : Pose := ⟨⟨⟨3, 3, 3⟩, ⟨4, 4, 4⟩⟩, ⟨0, 0, 0⟩⟩
    let t : Tracker := ⟨1, ⟨cell, ∅⟩⟩
    let one : Margins := ⟨0, 100, 0, 0, 1⟩
    let planner : Planner :=
      { Planner.new grid .standard { one with maxCells := 0 } with trackers := (∅ : Std.ExtTreeMap BodyId Tracker).insert 1 t }
    let d : Desk := ⟨planner, Store.ofLimits 1 1, .empty, .empty, .ofPass 1⟩
    ((-30000000000 / ofWhole grid.edge).isNaN = false ∧
      grid.indexOf (-30000000000) = saturated ⌊rational (-30000000000 / ofWhole grid.edge)⌋) ∧
    (wide.isFinite = true ∧ 8589934591 < UInt64.size ∧ (grid.lowest wide).x ≤ (grid.highest wide).x ∧
      (grid.lowest wide).y ≤ (grid.highest wide).y ∧ (grid.lowest wide).z ≤ (grid.highest wide).z ∧
      grid.hasRoom wide 8589934591 = true ∧
      Enumerates (grid.lowest wide) (grid.highest wide) 8589934591 (grid.overlapping wide 8589934591) ∧
      volume (grid.lowest wide) (grid.highest wide) = 8589934592) ∧
    (t.needs (fun _ => some pose) grid one = some ⟨cell, ∅⟩ ∧ cell.size ≤ 1 ∧
      grid.overlapping (vicinity one pose) 1 = none) ∧
    d.planner.trackers[1]? = some t ∧ grid.overlapping (reach d.planner.margins pose) 0 = none ∧
    (Desk.left (d.followAll fun _ => some pose)).planner.trackers[1]? = some t := by
  intro grid wide cell pose t one planner d
  obtain ⟨indices, boxes, _, bodies, trackers⟩ := regions_are_enumerated_exactly grid
  have number : (-30000000000 / ofWhole grid.edge).isNaN = false := by decide +kernel
  have finite : wide.isFinite = true := by decide +kernel
  have x : (grid.lowest wide).x ≤ (grid.highest wide).x := by decide +kernel
  have y : (grid.lowest wide).y ≤ (grid.highest wide).y := by decide +kernel
  have z : (grid.lowest wide).z ≤ (grid.highest wide).z := by decide +kernel
  have room : grid.hasRoom wide 8589934591 = true := by decide +kernel
  have needed : t.needs (fun _ => some pose) grid one = some ⟨cell, ∅⟩ := by decide +kernel
  have near : grid.overlapping (vicinity one pose) 1 = none := by decide +kernel
  have found : d.planner.trackers[1]? = some t := Std.ExtTreeMap.getElem?_insert_self
  have refused : grid.overlapping (reach d.planner.margins pose) 0 = none := by decide +kernel
  exact ⟨⟨number, (indices _).2 number⟩,
    ⟨finite, by decide, x, y, z, room, (boxes wide _ finite (by decide) x y z).1 room, by decide +kernel⟩,
    ⟨needed, (bodies t _ one _ needed).1, near⟩, found, refused, (trackers d 1 t _ pose rfl found rfl refused).2⟩

/-- A body in the middle of its cell, whose active region grows past the limit while its resident region does not: the
tracker is given new cells, and the cell that was active is so no more. -/
theorem refused_active_region_changes_cells :
    let grid : Grid := .ofSize 8
    let margins : Margins := ⟨0, 100, 0, 0, 8⟩
    let cell := KeySet.ofList [Coord.key ⟨0, 0, 0⟩]
    let pose : Pose := ⟨⟨⟨3, 3, 3⟩, ⟨4, 4, 4⟩⟩, ⟨0, 0, 0⟩⟩
    let t : Tracker := ⟨1, ⟨cell, cell⟩⟩
    grid.overlapping (vicinity margins pose) margins.maxCells = none ∧
      t.needs (fun _ => some pose) grid margins = some ⟨cell, ∅⟩ ∧ (t.adopt ⟨cell, ∅⟩).1.cells ≠ t.cells := by
  intro grid margins cell pose t
  exact ⟨by decide +kernel, by decide +kernel, by decide +kernel⟩

end Residency

end TerrainStream
