import TerrainStream.Store.Slot

/-! The store of terrain cells. Slots are handed out in order, given back to a stack and reused from
there; capacity grows in whole pages up to a fixed limit, and a page is laid out before its slots are
used. Every operation answers beside the store that it leaves. -/

namespace TerrainStream

open Cell Store

structure Store where
  /-- The slots handed out so far. -/
  slots : Array Slot
  index : KeyMap Nat
  /-- Slots given back, the latest first. -/
  free : List Nat
  /-- The pages that have been laid out, by number. -/
  pages : Std.ExtTreeSet Nat
  capacity : Nat
  /-- The capacity that growth ends at. -/
  limit : Nat

namespace Store

def pageSize : Nat := 64

/-- The least number of whole pages, at least one, that holds `n` slots; counted in slots. -/
def wholePages (n : Nat) : Nat := max ((n + (pageSize - 1)) / pageSize) 1 * pageSize

def layOut (pages : Std.ExtTreeSet Nat) (first last : Nat) : Std.ExtTreeSet Nat :=
  pages.insertMany (List.range' first (last - first))

/-- A store that starts with room for `initial` cells and grows up to `most`. -/
def ofLimits (initial most : Nat) : Store :=
  let limit := min (wholePages most) UInt32.size
  let capacity := min (wholePages initial) limit
  ⟨#[], ∅, [], layOut ∅ 0 (capacity / pageSize), capacity, limit⟩

/-- A store of the usual size: 256 slots at first and 2^20 at most. -/
def standard : Store := ofLimits 256 (1 <<< 20)

/-- The only operation that can fail outright is finding room for a new cell. -/
inductive Fault
  | exhausted (capacity : Nat)
deriving DecidableEq, Repr

def Fault.message : Fault → String
  | exhausted capacity => s!"terrain cell store exhausted ({capacity} slots)"

/-- Whether a slot lies within the capacity and on a page that has been laid out. -/
def reaches (s : Store) (i : Nat) : Bool := i < s.capacity && s.pages.contains (i / pageSize)

def slot? (s : Store) (i : Nat) : Option Slot :=
  if s.reaches i then some (s.slots[i]?.getD Slot.blank) else none

def live? (s : Store) (i : Nat) : Option Slot := (s.slot? i).filter (·.live)

def put (s : Store) (i : Nat) (slot : Slot) : Store := { s with slots := s.slots.setIfInBounds i slot }

def size (s : Store) : Nat := s.index.size

def isEmpty (s : Store) : Bool := s.index.isEmpty

def indexOf (s : Store) (key : Key) : Option Nat := s.index[key]?

def contains (s : Store) (key : Key) : Bool := s.index.contains key

def stage (s : Store) (i : Nat) : Stage := (s.slot? i).elim .removing (·.stage)

def shape (s : Store) (i : Nat) : Option Handle := (s.live? i).bind (·.shape)

def isPlaceholder (s : Store) (i : Nat) : Bool := (s.slot? i).elim true (·.placeholder)

def isActive (s : Store) (i : Nat) : Bool := (s.live? i).elim false (·.active)

def version (s : Store) (i : Nat) : UInt32 := (s.slot? i).elim 0 (·.version)

def refs (s : Store) (i : Nat) : Nat := (s.live? i).elim 0 (·.refs)

def keyAt (s : Store) (i : Nat) : Option Key := (s.live? i).map (·.key)

/-- Whether a later claim than this one has been issued on the slot. -/
def isStale (s : Store) (i : Nat) (version : UInt32) : Bool := (s.slot? i).elim true (version < ·.version)

/-- Whether the cell holds a completed build that is not a coarse one. -/
def isSectionReady (s : Store) (key : Key) : Bool :=
  match s.indexOf key with
  | none => false
  | some i => (s.live? i).any fun slot => slot.key == key && slot.stage != .removing && !slot.placeholder

/-- The capacity raised by half, in whole pages and within the limit. -/
def nextCapacity (s : Store) : Nat :=
  min (wholePages (max (s.capacity + s.capacity / 2) (s.capacity + 1))) s.limit

def grow? (s : Store) : Option Store :=
  if s.capacity ≥ s.limit then none
  else some { s with
    pages := layOut s.pages (s.capacity / pageSize) (s.nextCapacity / pageSize)
    capacity := s.nextCapacity }

def settle (s : Store) (i : Nat) (key : Key) : Store :=
  { s with slots := s.slots.modify i (·.settle key), index := s.index.insert key i }

def settleNext (s : Store) (key : Key) : Store :=
  let next := s.slots.size
  { s with slots := s.slots.push (Slot.blank.settle key), index := s.index.insert key next }

/-- The slot of a cell, taking and resetting one when the cell is new. -/
def add (s : Store) (key : Key) : Store × Except Fault Nat :=
  match s.index[key]? with
  | some i => (s, .ok i)
  | none =>
    match s.free with
    | i :: rest => ({ s with free := rest }.settle i key, .ok i)
    | [] =>
      let next := s.slots.size
      if next < s.capacity then (s.settleNext key, .ok next)
      else
        match s.grow? with
        | some grown => (grown.settleNext key, .ok next)
        | none => (s, .error (.exhausted s.capacity))

/-- A slot given back, and the shape it owned: the caller releases it in the simulation. -/
structure Removed where
  index : Nat
  shape : Option Handle
deriving DecidableEq, Repr

/-- Turn a cell out and give its slot back. -/
def remove (s : Store) (key : Key) : Store × Option Removed :=
  match s.index[key]? with
  | none => (s, none)
  | some i =>
    let index := s.index.erase key
    match s.slot? i with
    | none => ({ s with index }, some ⟨i, none⟩)
    | some slot => ({ s.put i slot.vacate with index, free := i :: s.free }, some ⟨i, slot.shape⟩)

end Store

end TerrainStream
