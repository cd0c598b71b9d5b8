import TerrainStream.Proofs.Shape.Partition

/-! A build never looks past the end of what is stored. The strict build breaks off at the first voxel or mark that it
needs and that is not there; it always comes to what the build comes to. -/

namespace TerrainStream.Shape

open Cell

/-- Whether a spot is solid and not yet covered, as far as that is stored. The mark of an air voxel is not looked at. -/
def isOpen? (snap : Snapshot) (marks : Array Bool) (p : Spot) : Option Bool := do
  let voxel ← snap.get? p
  if voxel.isSolid then
    let covered ← marks[snap.index p]?
    return !covered
  else return false

def allBetween? (start stop : Nat) (test : Nat → Option Bool) : Option Bool :=
  (List.range' start (stop - start)).allM test

def advance? (test : Nat → Option Bool) (start : Nat) : Nat → Option Nat
  | 0 => some start
  | count + 1 => do
    let passes ← test start
    if passes then advance? test (start + 1) count else return start

def grow? (snap : Snapshot) (marks : Array Bool) (p : Spot) : Option Block := do
  let n := snap.size
  let x ← advance? (fun x => isOpen? snap marks ⟨x, p.y, p.z⟩) (p.x + 1) (n - (p.x + 1))
  let row (y z : Nat) : Option Bool := allBetween? p.x x fun x => isOpen? snap marks ⟨x, y, z⟩
  let z ← advance? (row p.y) (p.z + 1) (n - (p.z + 1))
  let layer (y : Nat) : Option Bool := allBetween? p.z z (row y)
  let y ← advance? layer (p.y + 1) (n - (p.y + 1))
  return ⟨p, ⟨x, y, z⟩⟩

/-- The marks with one more spot covered, if it has a mark. -/
def coverOne? (snap : Snapshot) (marks : Array Bool) (p : Spot) : Option (Array Bool) :=
  if snap.index p < marks.size then some (marks.setIfInBounds (snap.index p) true) else none

def mark? (snap : Snapshot) (marks : Array Bool) (b : Block) : Option (Array Bool) := b.spots.foldlM (coverOne? snap) marks

def carve? (snap : Snapshot) (limit : Nat) :
    List Spot → Array Bool → Array Box → Option (Array Bool × Option (Array Box))
  | [], marks, boxes => some (marks, some boxes)
  | p :: rest, marks, boxes => do
    let here ← isOpen? snap marks p
    if here then
      let block ← grow? snap marks p
      let marks ← mark? snap marks block
      if boxes.size = limit then return (marks, none)
      else carve? snap limit rest marks (boxes.push block.toBox)
    else carve? snap limit rest marks boxes

/-- Decompose a snapshot, with an answer only if everything that is looked at is stored. -/
def merge? (limit : Nat) (snap : Snapshot) (scratch : Scratch) : Option (Scratch × Except BuildError Shape) :=
  match flaw? snap with
  | some flaw => some (scratch, .error (.degenerate snap.coord flaw))
  | none => do
    let scratch := scratch.reset snap.voxels.size
    let carved ← carve? snap limit (Spot.cube snap.size) scratch.marks #[]
    match carved with
    | (marks, some boxes) => return ({ scratch with marks }, .ok ⟨snap.coord, snap.size, boxes⟩)
    | (marks, none) => return ({ scratch with marks }, .error (.tooManyBoxes snap.coord limit))

variable {snap : Snapshot} {marks : Array Bool} {p : Spot} {start stop count : Nat} {test : Nat → Option Bool}
  {f : Nat → Bool}

theorem allBetween?_eq (told : ∀ k, start ≤ k → k < stop → test k = some (f k)) :
    allBetween? start stop test = some (allBetween start stop f) := by
  have listed (ks : List Nat) (told : ∀ k ∈ ks, test k = some (f k)) : ks.allM test = some (ks.all f) := by
    induction ks with
    | nil => rfl
    | cons k ks ih =>
      rw [List.allM, told k List.mem_cons_self, List.all_cons]
      cases f k with
      | false => rfl
      | true => exact ih fun k listed => told k (List.mem_cons_of_mem _ listed)
  refine listed _ fun k member => ?_
  obtain ⟨from', below⟩ := List.mem_range'_1.mp member
  exact told k from' (by omega)

theorem advance?_eq (told : ∀ k, start ≤ k → k < start + count → test k = some (f k)) :
    advance? test start count = some (advance f start count) := by
  induction count generalizing start with
  | zero => rfl
  | succ count ih =>
    rw [advance?, advance, told start (Nat.le_refl _) (by omega)]
    cases f start with
    | false => rfl
    | true => exact ih fun k from' below => told k (by omega) (by omega)

/-- Marks and voxels for every spot of the cell. -/
structure Stored (snap : Snapshot) (marks : Array Bool) : Prop where
  voxels : snap.voxels.size = snap.size * snap.size * snap.size
  marks : marks.size = snap.size * snap.size * snap.size

namespace Stored

theorem isOpen? (stored : Stored snap marks) (inside : p.within snap.size = true) :
    isOpen? snap marks p = some (isOpen snap marks p) := by
  have voxel : snap.index p < snap.voxels.size := stored.voxels ▸ Snapshot.index_lt inside
  have mark : snap.index p < marks.size := stored.marks ▸ Snapshot.index_lt inside
  simp only [Shape.isOpen?, isOpen, Snapshot.solidAt, Snapshot.get?, Array.getElem?_eq_getElem voxel,
    Array.getElem?_eq_getElem mark, Array.getD_eq_getD_getElem?]
  cases solid : snap.voxels[snap.index p].isSolid <;> simp [solid]

/-- What grows stays within the cell, and so does all that it looks at. -/
theorem grow? (stored : Stored snap marks) (inside : p.within snap.size = true) :
    grow? snap marks p = some (grow snap marks p) := by
  obtain ⟨wide, high, deep⟩ := Spot.within_iff.mp inside
  have look {x y z : Nat} (wide : x < snap.size) (high : y < snap.size) (deep : z < snap.size) :
      Shape.isOpen? snap marks ⟨x, y, z⟩ = some (isOpen snap marks ⟨x, y, z⟩) :=
    stored.isOpen? (Spot.within_iff.mpr ⟨wide, high, deep⟩)
  have columns : advance? (fun x => Shape.isOpen? snap marks ⟨x, p.y, p.z⟩) (p.x + 1) (snap.size - (p.x + 1)) =
      some (advance (fun x => isOpen snap marks ⟨x, p.y, p.z⟩) (p.x + 1) (snap.size - (p.x + 1))) :=
    advance?_eq fun x _ below => look (by omega) high deep
  -- Where one direction has stopped bounds what the next one looks at.
  obtain ⟨_, narrow, _⟩ := advance_spec (fun x => isOpen snap marks ⟨x, p.y, p.z⟩) (p.x + 1) (snap.size - (p.x + 1))
  unfold Shape.grow? grow
  simp only [columns, Option.bind_eq_bind, Option.bind_some]
  generalize advance (fun x => isOpen snap marks ⟨x, p.y, p.z⟩) (p.x + 1) (snap.size - (p.x + 1)) = x at *
  have row {y z : Nat} (high : y < snap.size) (deep : z < snap.size) :
      allBetween? p.x x (fun x => Shape.isOpen? snap marks ⟨x, y, z⟩) =
        some (allBetween p.x x fun x => isOpen snap marks ⟨x, y, z⟩) :=
    allBetween?_eq fun x _ below => look (by omega) high deep
  have rows : advance? (fun z => allBetween? p.x x fun x => Shape.isOpen? snap marks ⟨x, p.y, z⟩) (p.z + 1)
      (snap.size - (p.z + 1)) =
      some (advance (fun z => allBetween p.x x fun x => isOpen snap marks ⟨x, p.y, z⟩) (p.z + 1) (snap.size - (p.z + 1))) :=
    advance?_eq fun z _ below => row high (by omega)
  obtain ⟨_, shallow, _⟩ := advance_spec (fun z => allBetween p.x x fun x => isOpen snap marks ⟨x, p.y, z⟩) (p.z + 1)
    (snap.size - (p.z + 1))
  simp only [rows, Option.bind_some]
  generalize advance (fun z => allBetween p.x x fun x => isOpen snap marks ⟨x, p.y, z⟩) (p.z + 1)
    (snap.size - (p.z + 1)) = z at *
  have layers : advance? (fun y => allBetween? p.z z fun z => allBetween? p.x x fun x =>
      Shape.isOpen? snap marks ⟨x, y, z⟩) (p.y + 1) (snap.size - (p.y + 1)) =
      some (advance (fun y => allBetween p.z z fun z => allBetween p.x x fun x => isOpen snap marks ⟨x, y, z⟩) (p.y + 1)
        (snap.size - (p.y + 1))) :=
    advance?_eq fun y _ below => allBetween?_eq fun z _ below => row (by omega) (by omega)
  simp only [layers, Option.bind_some]
  rfl

private theorem coverAll? (spots : List Spot) (within : ∀ q ∈ spots, q.within snap.size = true) (marks : Array Bool)
    (sized : marks.size = snap.size * snap.size * snap.size) : spots.foldlM (coverOne? snap) marks =
      some (spots.foldl (fun marks p => marks.setIfInBounds (snap.index p) true) marks) := by
  induction spots generalizing marks with
  | nil => rfl
  | cons q spots ih =>
    have marked : snap.index q < marks.size := sized ▸ Snapshot.index_lt (within q List.mem_cons_self)
    rw [List.foldlM_cons, List.foldl_cons, coverOne?, if_pos marked]
    exact ih (fun p listed => within p (List.mem_cons_of_mem _ listed)) _ (Array.size_setIfInBounds.trans sized)

theorem mark? (stored : Stored snap marks) {b : Block} (inside : b.Inside snap.size) :
    mark? snap marks b = some (mark snap marks b) :=
  coverAll? b.spots (fun _ listed => inside.within (Block.mem_spots.mp listed)) marks stored.marks

theorem carve? (stored : Stored snap marks) (limit : Nat) {spots : List Spot}
    (within : ∀ q ∈ spots, q.within snap.size = true) (boxes : Array Box) :
    carve? snap limit spots marks boxes = some (carve snap limit spots marks boxes) := by
  induction spots generalizing marks boxes with
  | nil => rfl
  | cons p rest ih =>
    have inside := within p List.mem_cons_self
    have later (q : Spot) (listed : q ∈ rest) : q.within snap.size = true := within q (List.mem_cons_of_mem _ listed)
    rw [Shape.carve?, carve, stored.isOpen? inside, Option.bind_eq_bind, Option.bind_some]
    cases here : isOpen snap marks p with
    | false => exact ih stored later boxes
    | true =>
      obtain ⟨_, _, x, y, z, _⟩ := grow_spec inside here
      have block : (grow snap marks p).Inside snap.size := ⟨x, y, z⟩
      have marked : Stored snap (mark snap marks (grow snap marks p)) :=
        ⟨stored.voxels, (mark_spec block stored.marks).1⟩
      simp only [↓reduceIte, stored.grow? inside, stored.mark? block, Option.bind_eq_bind, Option.bind_some]
      split
      · rfl
      · exact ih marked later _

end Stored

/-- Whatever the snapshot, the limit and the scratch memory, the strict build comes to an answer, and to the same one. -/
theorem merge?_eq (limit : Nat) (snap : Snapshot) (scratch : Scratch) :
    merge? limit snap scratch = some (merge limit snap scratch) := by
  unfold merge? merge
  cases flawed : flaw? snap with
  | some flaw => rfl
  | none =>
    have counted := (Snapshot.whole_iff.mpr flawed).counted
    have stored : Stored snap (scratch.reset snap.voxels.size).marks := by
      refine ⟨counted, ?_⟩
      rw [Scratch.reset, Array.size_replicate, counted]
    dsimp only
    rw [stored.carve? limit (fun _ => Spot.mem_cube.mp) #[], Option.bind_eq_bind, Option.bind_some]
    rcases carve snap limit (Spot.cube snap.size) (scratch.reset snap.voxels.size).marks #[] with ⟨_, _ | _⟩ <;> rfl

end TerrainStream.Shape
