import TerrainStream.Cell.Key

/-! Requests for snapshots. A request stands for a claim that has been made; requests for one cell are
merged, and the waiting ones are taken by rank: priority first, then version, then key. -/

namespace TerrainStream.Residency

open Cell

/-- Higher priorities are served first. -/
structure Priority where
  level : Nat
deriving DecidableEq, Repr, Inhabited

namespace Priority

/-- The first build of a cell that a body has just reached. -/
def load : Priority := ⟨1⟩

def edit : Priority := ⟨2⟩

/-- Work from edits upward is built in the edit lane. -/
def isEdit (p : Priority) : Bool := edit.level ≤ p.level

def max (p q : Priority) : Priority := ⟨Nat.max p.level q.level⟩

end Priority

structure Request where
  key : Key
  index : Nat
  version : UInt32
  initial : Bool
  priority : Priority
deriving DecidableEq, Repr, Inhabited

namespace Request

/-- Two requests for one cell as one: the later claim, the higher priority, and first if either was. -/
def merge (a b : Request) : Request where
  key := a.key
  index := if a.version < b.version then b.index else a.index
  version := if a.version < b.version then b.version else a.version
  initial := a.initial || b.initial
  priority := a.priority.max b.priority

/-- Whether `a` is served no later than `b`. -/
def ranks (a b : Request) : Bool :=
  if a.priority ≠ b.priority then b.priority.level < a.priority.level
  else if a.version ≠ b.version then b.version < a.version
  else a.key.raw ≤ b.key.raw

end Request

/-- The requests that wait for admission, one per cell. -/
structure Backlog where
  byKey : KeyMap Request
deriving Inhabited

namespace Backlog

def empty : Backlog := ⟨∅⟩

def size (b : Backlog) : Nat := b.byKey.size

def isEmpty (b : Backlog) : Bool := b.byKey.isEmpty

def contains (b : Backlog) (key : Key) : Bool := b.byKey.contains key

def get? (b : Backlog) (key : Key) : Option Request := b.byKey[key]?

def toList (b : Backlog) : List Request := b.byKey.toList.map (·.2)

/-- Add a request, merging it with the one that waits for the same cell. -/
def record (b : Backlog) (r : Request) : Backlog :=
  ⟨b.byKey.insert r.key ((b.get? r.key).elim r (·.merge r))⟩

/-- Raise the priority of a waiting request, and answer whether there is one. -/
def raise (b : Backlog) (key : Key) (priority : Priority) : Backlog × Bool :=
  match b.get? key with
  | some r => (⟨b.byKey.insert key { r with priority := r.priority.max priority }⟩, true)
  | none => (b, false)

def remove (b : Backlog) (key : Key) : Backlog × Option Request := (⟨b.byKey.erase key⟩, b.get? key)

/-- Take out the requests that `drop` picks, by ascending key. -/
def extract (b : Backlog) (drop : Request → Bool) : Backlog × List Request :=
  (⟨b.byKey.filter fun _ r => !drop r⟩, b.toList.filter drop)

def ranked (b : Backlog) : List Request := b.toList.mergeSort Request.ranks

def takeRanked (b : Backlog) (most : Nat) : Backlog × List Request :=
  let taken := b.ranked.take most
  (⟨taken.foldl (fun m r => m.erase r.key) b.byKey⟩, taken)

end Backlog

end TerrainStream.Residency
