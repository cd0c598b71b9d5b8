import TerrainStream.Shape.Basic
import TerrainStream.Shape.Scratch

/-! Exact decomposition of a cell's solid voxels into boxes. Voxels are taken in storage order;
each one not yet covered grows into a block along x, then z, then y, as long as the next face
is solid and uncovered throughout. -/

namespace TerrainStream.Shape

open Cell

inductive Flaw
  | zeroSized
  | oversized
  | wrongCount
deriving DecidableEq, Repr

namespace Flaw

def message : Flaw → String
  | zeroSized => "zero-sized cell"
  | oversized => "cell larger than box coordinate range"
  | wrongCount => "voxel count does not match cell size"

end Flaw

inductive BuildError
  | degenerate (cell : Coord) (flaw : Flaw)
  | tooManyBoxes (cell : Coord) (limit : Nat)
deriving DecidableEq, Repr

namespace BuildError

def message : BuildError → String
  | degenerate cell flaw => s!"degenerate snapshot for cell {cell.described}: {flaw.message}"
  | tooManyBoxes cell limit => s!"cell {cell.described} needs more than {limit} boxes"

end BuildError

/-- The first flaw of a snapshot: a well-formed one has 1 to 65535 voxels per edge, and all of them. -/
def flaw? (snap : Snapshot) : Option Flaw :=
  if snap.size = 0 then some .zeroSized
  else if snap.size > 65535 then some .oversized
  else if snap.voxels.size ≠ snap.size * snap.size * snap.size then some .wrongCount
  else none

/-- A block of spots: from `lo` up to, and without, `hi`. -/
structure Block where
  lo : Spot
  hi : Spot
deriving DecidableEq, Repr, Inhabited

namespace Block

def toBox (b : Block) : Box := ⟨Corner.ofSpot b.lo, Corner.ofSpot b.hi⟩

def contains (b : Block) (p : Spot) : Bool :=
  b.lo.x ≤ p.x && p.x < b.hi.x && b.lo.y ≤ p.y && p.y < b.hi.y && b.lo.z ≤ p.z && p.z < b.hi.z

def spots (b : Block) : List Spot :=
  (List.range' b.lo.y (b.hi.y - b.lo.y)).flatMap fun y =>
    (List.range' b.lo.z (b.hi.z - b.lo.z)).flatMap fun z =>
      (List.range' b.lo.x (b.hi.x - b.lo.x)).map fun x => ⟨x, y, z⟩

end Block

/-- Whether `p` holds for every number from `start` up to, and without, `stop`. -/
def allBetween (start stop : Nat) (p : Nat → Bool) : Bool := (List.range' start (stop - start)).all p

/-- The first number from `start` on at which `p` fails, looking at `count` numbers at most. -/
def advance (p : Nat → Bool) (start : Nat) : Nat → Nat
  | 0 => start
  | count + 1 => if p start then advance p (start + 1) count else start

def isOpen (snap : Snapshot) (marks : Array Bool) (p : Spot) : Bool :=
  snap.solidAt p && !marks.getD (snap.index p) false

def grow (snap : Snapshot) (marks : Array Bool) (p : Spot) : Block :=
  let n := snap.size
  let x := advance (fun x => isOpen snap marks ⟨x, p.y, p.z⟩) (p.x + 1) (n - (p.x + 1))
  let row (y z : Nat) : Bool := allBetween p.x x fun x => isOpen snap marks ⟨x, y, z⟩
  let z := advance (row p.y) (p.z + 1) (n - (p.z + 1))
  let layer (y : Nat) : Bool := allBetween p.z z (row y)
  let y := advance layer (p.y + 1) (n - (p.y + 1))
  ⟨p, ⟨x, y, z⟩⟩

def mark (snap : Snapshot) (marks : Array Bool) (b : Block) : Array Bool :=
  b.spots.foldl (fun marks p => marks.setIfInBounds (snap.index p) true) marks

/-- Cover the spots in turn. The marks are handed back, and the boxes too unless one more than
`limit` was needed. -/
def carve (snap : Snapshot) (limit : Nat) :
    List Spot → Array Bool → Array Box → Array Bool × Option (Array Box)
  | [], marks, boxes => (marks, some boxes)
  | p :: rest, marks, boxes =>
    if isOpen snap marks p then
      let block := grow snap marks p
      let marks := mark snap marks block
      if boxes.size = limit then (marks, none)
      else carve snap limit rest marks (boxes.push block.toBox)
    else carve snap limit rest marks boxes

/-- Decompose a snapshot into at most `limit` boxes. A flawed snapshot leaves the scratch memory alone. -/
def merge (limit : Nat) (snap : Snapshot) (scratch : Scratch) : Scratch × Except BuildError Shape :=
  match flaw? snap with
  | some flaw => (scratch, .error (.degenerate snap.coord flaw))
  | none =>
    let scratch := scratch.reset snap.voxels.size
    match carve snap limit (Spot.cube snap.size) scratch.marks #[] with
    | (marks, some boxes) => ({ scratch with marks }, .ok ⟨snap.coord, snap.size, boxes⟩)
    | (marks, none) => ({ scratch with marks }, .error (.tooManyBoxes snap.coord limit))

def usualLimit : Nat := 512

/-- A limit as asked for, and at least one box. -/
def limitOf (asked : Nat) : Nat := max asked 1

/-- Anything that turns snapshots into shapes with the help of scratch memory. -/
abbrev Builder := Snapshot → Scratch → Scratch × Except BuildError Shape

end TerrainStream.Shape
