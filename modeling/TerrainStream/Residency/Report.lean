namespace TerrainStream.Residency

structure Report where
  pass : Nat
  events : Nat
  trackers : Nat
  acquired : Nat
  released : Nat
  activated : Nat
  deactivated : Nat
  invalidated : Nat
  retried : Nat
  abandoned : Nat
  removed : Nat
  admitted : Nat
  pending : Nat
  /-- Edits that wait for a build under way. -/
  deferred : Nat
deriving DecidableEq, Repr, Inhabited

namespace Report

def ofPass (pass : Nat) : Report := ⟨pass, 0, 0, 0, 0, 0, 0, 0, 0, 0, 0, 0, 0, 0⟩

def isIdle (r : Report) : Bool :=
  r.acquired + r.released + r.activated + r.deactivated + r.invalidated + r.retried + r.abandoned +
    r.removed + r.admitted == 0

def text (r : Report) : String :=
  s!"pass {r.pass}: ev={r.events} trk={r.trackers} ref+{r.acquired} ref-{r.released} act+{r.activated} " ++
    s!"act-{r.deactivated} inval={r.invalidated} retry={r.retried} abandon={r.abandoned} rm={r.removed} " ++
    s!"admit={r.admitted} pending={r.pending} deferred={r.deferred}"

end Report

end TerrainStream.Residency
