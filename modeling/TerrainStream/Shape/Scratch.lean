/-! Working memory that builds share. A build clears it before use, so what an earlier build
left behind never matters; it grows with the largest cell seen until it is trimmed. -/

namespace TerrainStream.Shape

structure Scratch where
  /-- One mark per voxel of the cell in work. -/
  marks : Array Bool
  /-- How many marks fit without asking for memory. -/
  room : Nat
  builds : Nat
deriving DecidableEq, Repr, Inhabited

namespace Scratch

def empty : Scratch := ⟨#[], 0, 0⟩

def reset (s : Scratch) (count : Nat) : Scratch :=
  ⟨Array.replicate count false, max s.room count, s.builds + 1⟩

/-- Give the memory back when there is room for more than `most` marks. -/
def trim (s : Scratch) (most : Nat) : Scratch :=
  if s.room > most then { s with marks := #[], room := 0 } else s

end Scratch

/-- The scratch memory of one worker; what an unusually large cell made it grow to is given
back after the job. -/
structure Arena where
  scratch : Scratch
  retain : Nat
deriving DecidableEq, Repr, Inhabited

namespace Arena

/-- What a worker keeps between jobs unless told otherwise: one cell of 64 voxels per edge. -/
def usualRetain : Nat := 64 * 64 * 64

def ofRetain (retain : Nat) : Arena := ⟨Scratch.empty, retain⟩

/-- The arena once the job's shape has been handed on. -/
def endJob (a : Arena) : Arena := { a with scratch := a.scratch.trim a.retain }

end Arena

/-- The arenas handed out so far, by number; those of workers that have gone are empty. -/
structure Pool where
  arenas : Array (Option Arena)
deriving Inhabited

namespace Pool

def empty : Pool := ⟨#[]⟩

def add (p : Pool) (retain : Nat) : Pool := ⟨p.arenas.push (some (Arena.ofRetain retain))⟩

def arena? (p : Pool) (i : Nat) : Option Arena := p.arenas[i]?.join

def put (p : Pool) (i : Nat) (arena : Option Arena) : Pool := ⟨p.arenas.setIfInBounds i arena⟩

def live (p : Pool) : Nat := p.arenas.countP (·.isSome)

end Pool

end TerrainStream.Shape
