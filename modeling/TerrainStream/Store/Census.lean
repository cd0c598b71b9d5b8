import TerrainStream.Store.Basic

namespace TerrainStream.Store

structure Census where
  live : Nat
  capacity : Nat
  freeSlots : Nat
  unloaded : Nat
  scheduled : Nat
  generating : Nat
  ready : Nat
  removing : Nat
  active : Nat
  withShape : Nat
deriving DecidableEq, Repr

/-- The slots that cells live in, lowest first. -/
def tenants (s : Store) : List Slot := (List.range s.slots.size).filterMap s.live?

def census (s : Store) : Census :=
  let inStage (stage : Stage) : Nat := s.tenants.countP (·.stage = stage)
  { live := s.tenants.length
    capacity := s.capacity
    freeSlots := s.free.length
    unloaded := inStage .unloaded
    scheduled := inStage .scheduled
    generating := inStage .generating
    ready := inStage .ready
    removing := inStage .removing
    active := s.tenants.countP (·.active)
    withShape := s.tenants.countP (·.shape.isSome) }

end TerrainStream.Store
