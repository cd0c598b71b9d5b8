import Std.Data.ExtTreeMap
import Std.Data.ExtTreeSet

/-! Cells are named by integer coordinates and, in one word, by a packed key: 22 bits
of x, 22 bits of z and 20 bits of y, each in two's complement. Keys are ordered as
unsigned words, and every set or map of cells is kept in that order. -/

namespace TerrainStream.Cell

structure Coord where
  x : Int
  y : Int
  z : Int
deriving DecidableEq, Repr, Inhabited

structure Key where
  raw : UInt64
deriving DecidableEq, Repr, Inhabited

instance : Ord Key := ⟨compareOn Key.raw⟩

instance : Std.TransOrd Key := inferInstanceAs (Std.TransCmp (compareOn Key.raw))

instance : Std.LawfulEqOrd Key where
  eq_of_compare {a b} same := by
    have raws : a.raw = b.raw := Std.LawfulEqOrd.eq_of_compare same
    cases a; cases b; simp_all

/-- A set of cells, listed by ascending key. -/
abbrev KeySet := Std.ExtTreeSet Key

def KeySet.ofList (keys : List Key) : KeySet := Std.ExtTreeSet.ofList keys

abbrev KeyMap (α : Type) := Std.ExtTreeMap Key α

namespace Coord

def offset (c d : Coord) : Coord := ⟨c.x + d.x, c.y + d.y, c.z + d.z⟩

/-- The squared distance between two cells, counted in cells. -/
def distanceSq (a b : Coord) : Int :=
  (a.x - b.x) * (a.x - b.x) + (a.y - b.y) * (a.y - b.y) + (a.z - b.z) * (a.z - b.z)

/-- Whether `width` bits hold a number in two's complement. -/
def fits (width : Nat) (v : Int) : Bool := v.bmod (1 <<< width) == v

/-- Whether the packed key keeps the coordinate as it is. -/
def inRange (c : Coord) : Bool :=
  fits 22 c.x && fits 20 c.y && fits 22 c.z

/-- The low `width` bits of a number in two's complement. -/
def field (width : Nat) (v : Int) : Nat := (v % (1 <<< width : Nat)).toNat

/-- The packed key; coordinates out of range wrap. -/
def key (c : Coord) : Key :=
  ⟨UInt64.ofNat (field 22 c.x <<< 42 + field 22 c.z <<< 20 + field 20 c.y)⟩

/-- Coordinates are ordered by x, then y, then z. -/
def precedes (a b : Coord) : Bool :=
  a.x < b.x || (a.x == b.x && (a.y < b.y || (a.y == b.y && a.z ≤ b.z)))

def described (c : Coord) : String :=
  s!"CellCoord \x7b cx: {c.x}, cy: {c.y}, cz: {c.z} \x7d"

end Coord

namespace Key

def coord (k : Key) : Coord where
  x := Int.bmod (k.raw.toNat >>> 42 : Nat) (1 <<< 22)
  y := Int.bmod k.raw.toNat (1 <<< 20)
  z := Int.bmod (k.raw.toNat >>> 20 : Nat) (1 <<< 22)

def text (k : Key) : String := s!"({k.coord.x}, {k.coord.y}, {k.coord.z})"

end Key

end TerrainStream.Cell
