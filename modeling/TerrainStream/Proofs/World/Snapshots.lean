import TerrainStream.Proofs.Cell.Table
import TerrainStream.Proofs.World.Supplier

/-! A snapshot of rolling ground is the ground: each stored voxel is the one at its place in the world, whatever was
set there before. The places of two cells are apart, so an edit shows in the snapshots of one cell only. -/

namespace TerrainStream

open Cell World

/-- Rows of one length, laid end to end. -/
private theorem getElem?_rows {α β : Type} {r : α → List β} {n i : Nat} (even : ∀ x, (r x).length = n)
    (place : i < n) (xs : List α) (k : Nat) : (xs.flatMap r)[k * n + i]? = xs[k]?.bind fun x => (r x)[i]? := by
  induction xs generalizing k with
  | nil => rfl
  | cons x xs ih =>
    rw [List.flatMap_cons]
    cases k with
    | zero =>
      rw [Nat.zero_mul, Nat.zero_add, List.getElem?_append_left (by rw [even]; exact place)]
      rfl
    | succ k =>
      have offset : (k + 1) * n + i = n + (k * n + i) := by rw [Nat.succ_mul]; omega
      rw [offset, List.getElem?_append_right (by rw [even]; omega), even, Nat.add_sub_cancel_left, ih]
      rfl

namespace Cell

theorem Spot.length_cube (n : Nat) : (cube n).length = n * n * n := by
  simp [cube, List.length_flatMap, Nat.mul_assoc]

/-- A voxel list of the right length is neither cut nor filled up. -/
theorem Snapshot.fit_full {voxels : Array Voxel} {count : Nat} (full : voxels.size = count) :
    fit voxels count = voxels := by
  subst full
  rw [fit, if_neg (Nat.lt_irrefl _), Array.extract_size]

/-- The cube lists every spot where a snapshot stores it. -/
theorem Snapshot.cube_index {s : Snapshot} {p : Spot} (inside : p.within s.size = true) :
    (Spot.cube s.size)[s.index p]? = some p := by
  obtain ⟨wide, high, deep⟩ := Spot.within_iff.mp inside
  have layer : p.z * s.size + p.x < s.size * s.size := pack_lt deep wide
  have split : s.index p = p.y * (s.size * s.size) + (p.z * s.size + p.x) := by
    rw [Snapshot.index, Nat.add_mul, Nat.mul_assoc, Nat.add_assoc]
  rw [split, Spot.cube, getElem?_rows (by simp [List.length_flatMap]) layer, List.getElem?_range high]
  simp only [Option.bind_some]
  rw [getElem?_rows (by simp) wide, List.getElem?_range deep]
  simp [wide]

namespace Grid

/-- The place in the world of a spot of a cell. -/
def place (g : Grid) (c : Coord) (s : Spot) : Position :=
  ⟨(g.origin c).x + s.x, (g.origin c).y + s.y, (g.origin c).z + s.z⟩

/-- Whether a signed 32-bit word holds a number. -/
def holds (v : Int) : Prop := Int32.minValue.toInt ≤ v ∧ v ≤ Int32.maxValue.toInt

/-- Every place of a cell can be named in signed 32-bit words. -/
def Addressable (g : Grid) (c : Coord) : Prop :=
  ∀ s : Spot, s.within g.size = true → holds (g.place c s).x ∧ holds (g.place c s).y ∧ holds (g.place c s).z

variable {g : Grid} {c : Coord} {s : Spot}

private theorem holds_iff {v : Int} : holds v ↔ -2147483648 ≤ v ∧ v ≤ 2147483647 := Iff.rfl

/-- A grid with a cell whose places can all be named has cells as long as its edge says. -/
theorem Addressable.edge (addressable : g.Addressable c) (word : holds g.edge) : (g.size : Int) = g.edge := by
  rw [holds_iff] at word
  by_cases forward : 0 ≤ g.edge
  · rw [size, Int.emod_eq_of_lt forward (by simp only [UInt64.size]; omega), Int.toNat_of_nonneg forward]
  · -- A negative edge is read back as a size that takes the cell beyond every address.
    have long : 4294967296 < g.size := by
      rw [size]
      simp only [UInt64.size]
      omega
    have first := (addressable ⟨0, 0, 0⟩ (by rw [Spot.within_iff]; dsimp only; omega)).1
    have far := (addressable ⟨4294967296, 0, 0⟩ (by rw [Spot.within_iff]; dsimp only; omega)).1
    rw [holds_iff, place] at first far
    dsimp only at first far
    omega

/-- Every place of a cell is owned by that cell. -/
theorem Addressable.cellOf_place (addressable : g.Addressable c) (word : holds g.edge)
    (inside : s.within g.size = true) : g.cellOf (g.place c s) = c := by
  have edge := addressable.edge word
  obtain ⟨wide, high, deep⟩ := Spot.within_iff.mp inside
  have axis (v : Int) {n : Nat} (short : n < g.size) : (v * g.edge + n) / g.edge = v := by
    rw [Int.add_comm, Int.add_mul_ediv_right _ _ (by omega), Int.ediv_eq_zero_of_lt (by omega) (by omega), Int.zero_add]
  simp only [cellOf, place, origin, axis _ wide, axis _ high, axis _ deep]

/-- An edge is held in a signed 32-bit word. -/
theorem ofSize_word (size : Nat) : holds (ofSize size).edge := by
  rw [holds_iff, ofSize]
  have low := Int.le_bmod (x := max (size : Int) 1) (m := UInt32.size) (by decide)
  have high := Int.bmod_lt (x := max (size : Int) 1) (m := UInt32.size) (by decide)
  simp only [UInt32.size] at low high ⊢
  omega

end Grid

end Cell

namespace World.Heightmap

variable {w : Heightmap} {key : Key}

/-- What a snapshot of a cell ought to show. -/
def view (w : Heightmap) (c : Coord) : Snapshot :=
  ⟨c, w.grid.size, ((Spot.cube w.grid.size).map fun s => w.voxel (w.grid.place c s)).toArray⟩

theorem view_get? {c : Coord} {s : Spot} (inside : s.within w.grid.size = true) :
    (w.view c).get? s = some (w.voxel (w.grid.place c s)) := by
  have listed : (Spot.cube w.grid.size)[(w.view c).index s]? = some s :=
    Snapshot.cube_index (s := w.view c) inside
  rw [Snapshot.get?, view, List.getElem?_toArray, List.getElem?_map]
  exact congrArg (Option.map _) listed

/-- The height that a column has in the table of a cell is the height of the column. -/
private theorem heights_getD (corner : Position) {s : Spot} (inside : s.within w.grid.size = true) :
    (w.heights corner).getD (s.z * w.grid.size + s.x) 0 = w.height (corner.x + s.x) (corner.z + s.z) := by
  obtain ⟨wide, high, deep⟩ := Spot.within_iff.mp inside
  have listed := getElem?_rows (r := fun z : Nat => (List.range w.grid.size).map fun x : Nat =>
    w.height (corner.x + x) (corner.z + z)) (by simp) wide (List.range w.grid.size) s.z
  rw [List.getElem?_range deep, Option.bind_some, List.getElem?_map, List.getElem?_range wide] at listed
  rw [heights, Array.getD_eq_getD_getElem?, List.getElem?_toArray, listed]
  rfl

theorem fill_eq (c : Coord) {s : Spot} (inside : s.within w.grid.size = true) :
    w.fill (w.grid.origin c) (w.heights (w.grid.origin c)) s = w.voxel (w.grid.place c s) := by
  rw [fill, heights_getD _ inside]
  rfl

/-- A snapshot of a loaded cell shows the cell, and taking it leaves the world as it is. -/
theorem snapshot_eq (loaded : w.isLoaded key.coord = true) :
    w.snapshot key = ({ w with served := w.served + 1 }, .ok (w.view key.coord)) := by
  have cells : (Spot.cube w.grid.size).map (w.fill (w.grid.origin key.coord) (w.heights (w.grid.origin key.coord))) =
      (Spot.cube w.grid.size).map fun s => w.voxel (w.grid.place key.coord s) :=
    List.map_congr_left fun s listed => fill_eq key.coord (Spot.mem_cube.mp listed)
  rw [snapshot, if_pos loaded]
  dsimp only
  rw [cells, Snapshot.ofVoxels, Snapshot.fit_full]
  · rfl
  · rw [List.size_toArray, List.length_map, Spot.length_cube]

/-- What can be asked of a world. -/
inductive Call
  | set (p : Position) (v : Voxel)
  | snapshot (key : Key)

/-- What a call puts at a place. -/
def Call.puts (p : Position) : Call → Option Voxel
  | .set q v => if q = p then some v else none
  | .snapshot _ => none

def hear (w : Heightmap) : Call → Heightmap
  | .set p v => (w.set p v).1
  | .snapshot key => (w.snapshot key).1

/-- The world after some calls. -/
def after (w : Heightmap) (calls : List Call) : Heightmap := calls.foldl hear w

theorem voxel_new (grid : Grid) (noise : Float32 → Float32 → Float32) (extent : Int) (p : Position) :
    (ofGrid grid noise extent).voxel p = generated p.y ((ofGrid grid noise extent).height p.x p.z) := by
  simp [voxel, ofGrid]

theorem voxel_set (w : Heightmap) (p q : Position) (v : Voxel) :
    (w.set p v).1.voxel q = if p = q then v else w.voxel q := by
  simp only [voxel, set, Table.getElem?_insert]
  split <;> rfl

theorem voxel_snapshot (w : Heightmap) (key : Key) (p : Position) : (w.snapshot key).1.voxel p = w.voxel p := by
  unfold snapshot
  split <;> rfl

theorem voxel_hear (w : Heightmap) (call : Call) (p : Position) :
    (w.hear call).voxel p = (call.puts p).getD (w.voxel p) := by
  cases call with
  | set q v =>
    rw [hear, voxel_set, Call.puts]
    split <;> rfl
  | snapshot key => exact voxel_snapshot w key p

/-- The last voxel that was set at a place is there, or else the one that was there before. -/
theorem voxel_after (w : Heightmap) (calls : List Call) (p : Position) :
    (w.after calls).voxel p = (calls.reverse.findSome? (Call.puts p)).getD (w.voxel p) := by
  induction calls generalizing w with
  | nil => rfl
  | cons call calls ih =>
    rw [after, List.foldl_cons, ← after, ih, voxel_hear, List.reverse_cons, List.findSome?_append]
    cases calls.reverse.findSome? (Call.puts p) with
    | some v => rfl
    | none =>
      cases called : call.puts p <;> simp [called]

/-- Calls change nothing but what was set and how often a snapshot was handed out. -/
theorem after_land (w : Heightmap) (calls : List Call) :
    ∃ edits served, w.after calls = { w with edits, served } := by
  induction calls generalizing w with
  | nil => exact ⟨w.edits, w.served, rfl⟩
  | cons call calls ih =>
    have first : ∃ edits served, w.hear call = { w with edits, served } := by
      cases call with
      | set p v => exact ⟨_, _, rfl⟩
      | snapshot key =>
        rw [hear, snapshot]
        split
        · exact ⟨_, _, rfl⟩
        · exact ⟨_, _, rfl⟩
    obtain ⟨edits, served, heard⟩ := first
    obtain ⟨edits', served', rest⟩ := ih (w.hear call)
    refine ⟨edits', served', rest.trans ?_⟩
    rw [heard]

theorem after_grid (w : Heightmap) (calls : List Call) : (w.after calls).grid = w.grid := by
  obtain ⟨edits, served, land⟩ := after_land w calls
  rw [land]

theorem after_isLoaded (w : Heightmap) (calls : List Call) (c : Coord) : (w.after calls).isLoaded c = w.isLoaded c := by
  obtain ⟨edits, served, land⟩ := after_land w calls
  rw [land]
  rfl

/-- After an edit the view of a cell differs at most at the place of the edit. -/
theorem view_set (w : Heightmap) (c : Coord) (p : Position) (v : Voxel) {s : Spot}
    (inside : s.within w.grid.size = true) :
    ((w.set p v).1.view c).get? s = if w.grid.place c s = p then some v else (w.view c).get? s := by
  have anew := view_get? (w := (w.set p v).1) (c := c) inside
  rw [voxel_set] at anew
  rw [anew, view_get? inside]
  by_cases here : w.grid.place c s = p
  · rw [if_pos here]
    exact congrArg some (if_pos here.symm)
  · rw [if_neg here]
    exact congrArg some (if_neg (Ne.symm here))

/-- An edit in one cell leaves the views of all others as they are. -/
theorem view_set_elsewhere {c : Coord} {p : Position} (addressable : w.grid.Addressable c) (word : Grid.holds w.grid.edge)
    (elsewhere : w.grid.cellOf p ≠ c) (v : Voxel) : (w.set p v).1.view c = w.view c := by
  have same : (Spot.cube w.grid.size).map (fun s => (w.set p v).1.voxel (w.grid.place c s)) =
      (Spot.cube w.grid.size).map fun s => w.voxel (w.grid.place c s) := by
    refine List.map_congr_left fun s listed => ?_
    rw [voxel_set, if_neg]
    rintro rfl
    exact elsewhere (addressable.cellOf_place word (Spot.mem_cube.mp listed))
  exact congrArg (fun voxels : List Voxel => (⟨c, w.grid.size, voxels.toArray⟩ : Snapshot)) same

/-- A snapshot of a loaded cell succeeds and shows at every spot the voxel of its place in the world, which is the one
set there last or else the generated one. One more edit changes the snapshots of the edit's own cell only, and these at
the place of the edit only. -/
theorem snapshots_show_world (size : Nat) (noise : Float32 → Float32 → Float32) (extent : Int) (calls : List Call)
    (key : Key) (loaded : (ofGrid (Grid.ofSize size) noise extent).isLoaded key.coord = true)
    (addressable : (Grid.ofSize size).Addressable key.coord) :
    let g := Grid.ofSize size
    let world := ofGrid g noise extent
    let w := world.after calls
    ∃ shown, (w.snapshot key).2 = .ok shown ∧ shown.coord = key.coord ∧ shown.size = g.size ∧
      shown.voxels.size = g.size * g.size * g.size ∧
      (∀ s : Spot, s.within g.size = true → shown.get? s = some (w.voxel (g.place key.coord s))) ∧
      (∀ p, w.voxel p = (calls.reverse.findSome? (Call.puts p)).getD (generated p.y (world.height p.x p.z))) ∧
      ∀ p v, ∃ anew, ((w.set p v).1.snapshot key).2 = .ok anew ∧ (g.cellOf p ≠ key.coord → anew = shown) ∧
        ∀ s : Spot, s.within g.size = true →
          anew.get? s = if g.place key.coord s = p then some v else shown.get? s := by
  intro g world w
  have grid : w.grid = g := after_grid world calls
  have reached : w.isLoaded key.coord = true := (after_isLoaded world calls key.coord).trans loaded
  have word : Grid.holds w.grid.edge := by
    rw [grid]
    exact Grid.ofSize_word size
  have named : w.grid.Addressable key.coord := by
    rw [grid]
    exact addressable
  refine ⟨w.view key.coord, by rw [snapshot_eq reached], rfl, congrArg Grid.size grid, ?_, ?_, fun p => ?_, fun p v =>
    ⟨(w.set p v).1.view key.coord, by rw [snapshot_eq (w := (w.set p v).1) reached], ?_, ?_⟩⟩
  · rw [view, List.size_toArray, List.length_map, Spot.length_cube, grid]
  · rw [← grid]
    exact fun s inside => view_get? inside
  · rw [voxel_after world calls p, voxel_new]
  · rw [← grid]
    exact fun elsewhere => view_set_elsewhere named word elsewhere v
  · rw [← grid]
    exact fun s inside => view_set w _ p v inside

private def west : Key := (⟨-1, 0, -1⟩ : Coord).key

private def touched : List Call := [.set ⟨-1, 1, -2⟩ stone, .snapshot west, .set ⟨-1, 1, -2⟩ dirt]

/-- West of the origin the later of two edits of a place is shown, and an edit at the origin is not. -/
theorem snapshots_show_world_west :
    let w := (ofGrid (Grid.ofSize 2) still 4).after touched
    ∃ shown, (w.snapshot west).2 = .ok shown ∧ shown.get? ⟨1, 1, 0⟩ = some dirt ∧
      ((w.set ⟨0, 0, 0⟩ stone).1.snapshot west).2 = .ok shown := by
  intro w
  have coord : west.coord = ⟨-1, 0, -1⟩ := by decide +kernel
  have edge : (Grid.ofSize 2).edge = 2 := by decide
  have size : (Grid.ofSize 2).size = 2 := by decide
  have addressable : (Grid.ofSize 2).Addressable west.coord := by
    intro s inside
    obtain ⟨wide, high, deep⟩ := Spot.within_iff.mp inside
    rw [size] at wide high deep
    rw [coord]
    simp only [Grid.holds_iff, Grid.place, Grid.origin, edge]
    omega
  obtain ⟨shown, taken, _, _, _, shows, last, further⟩ :=
    snapshots_show_world 2 still 4 touched west (by decide +kernel) addressable
  obtain ⟨anew, again, same, _⟩ := further ⟨0, 0, 0⟩ stone
  refine ⟨shown, taken, ?_, ?_⟩
  · have there : (Grid.ofSize 2).place west.coord ⟨1, 1, 0⟩ = ⟨-1, 1, -2⟩ := by
      rw [coord]
      decide
    rw [shows ⟨1, 1, 0⟩ (by decide), last, there]
    rfl
  · rw [again, same (by rw [coord]; decide)]

end World.Heightmap

end TerrainStream
