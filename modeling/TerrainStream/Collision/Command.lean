import TerrainStream.Exchange.Mailbox
import TerrainStream.Shape.Basic
import TerrainStream.Store.Slot

/-! Commands to the collision simulation, and what draining them came to. Everyone else only posts
commands; shapes are added, removed and switched where the queue is drained and nowhere else. -/

namespace TerrainStream.Collision

open Cell Store

structure Delivery where
  key : Key
  index : Nat
  version : UInt32
  shape : Shape
  placeholder : Bool
  /-- Whether the cell had no completed build when the claim was made. -/
  initial : Bool
deriving DecidableEq, Repr, Inhabited

inductive Command
  | install (delivery : Delivery)
  | remove (key : Key) (shape : Handle)
  | toggle (key : Key) (index : Nat) (enabled : Bool)
deriving DecidableEq, Repr, Inhabited

structure Tally where
  installed : Nat
  /-- Installs that gave a cell its first collision. -/
  firstInstalls : Nat
  placeholders : Nat
  replaced : Nat
  stale : Nat
  removed : Nat
  toggled : Nat
deriving DecidableEq, Repr, Inhabited

namespace Tally

def zero : Tally := ⟨0, 0, 0, 0, 0, 0, 0⟩

def total (t : Tally) : Nat := t.installed + t.stale + t.removed + t.toggled

def add (t u : Tally) : Tally where
  installed := t.installed + u.installed
  firstInstalls := t.firstInstalls + u.firstInstalls
  placeholders := t.placeholders + u.placeholders
  replaced := t.replaced + u.replaced
  stale := t.stale + u.stale
  removed := t.removed + u.removed
  toggled := t.toggled + u.toggled

instance : Add Tally := ⟨add⟩

end Tally

end TerrainStream.Collision
