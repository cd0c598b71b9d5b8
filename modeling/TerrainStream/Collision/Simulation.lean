import TerrainStream.Collision.Command
import TerrainStream.Store.Lifecycle

/-! Applying commands to a simulation. An install checks the claim, adds the shape, and then commits;
while the simulation adds the shape other owners of the store may go on working, so the commit checks
again and a build that lost its claim meanwhile takes its shape back out. -/

namespace TerrainStream.Collision

open Cell Store

class Simulation (σ : Type) where
  /-- Add a shape for a cell, enabled or not, and name it. -/
  addShape : σ → Key → Shape → Bool → Handle × σ
  removeShape : σ → Handle → σ
  setEnabled : σ → Handle → Bool → σ

/-- Work that other owners of the store do while a collaborator is busy. -/
abbrev Interlude := Store → Store

def runInterlude : List Interlude → Store → List Interlude × Store
  | [], store => ([], store)
  | work :: rest, store => (rest, work store)

/-- A simulation beside the store it serves, and the interludes in line for its next additions. -/
structure Site (σ : Type) where
  sim : σ
  store : Store
  interludes : List Interlude

namespace Site

variable {σ : Type} [Simulation σ]

/-- Commit a checked build whose shape, if it has any, the simulation has just been given. -/
def commit (site : Site σ) (d : Delivery) (shape : Option Handle) : Site σ × Tally :=
  match site.store.finish d.index d.key d.version shape d.placeholder with
  | (store, .ok previous) =>
    ({ site with store, sim := previous.elim site.sim (Simulation.removeShape site.sim) },
      { Tally.zero with
        installed := 1
        firstInstalls := d.initial.toNat
        placeholders := d.placeholder.toNat
        replaced := previous.isSome.toNat })
  | (store, .error _) =>
    ({ site with store, sim := shape.elim site.sim (Simulation.removeShape site.sim) },
      { Tally.zero with stale := 1 })

def present (site : Site σ) (d : Delivery) : Site σ × Handle :=
  let (handle, sim) := Simulation.addShape site.sim d.key d.shape (site.store.isActive d.index)
  let (interludes, store) := runInterlude site.interludes site.store
  (⟨sim, store, interludes⟩, handle)

/-- Install a finished build. A cell of air alone gets no shape. -/
def install (site : Site σ) (d : Delivery) : Site σ × Tally :=
  match site.store.checkInstall d.index d.key d.version with
  | .error _ => (site, { Tally.zero with stale := 1 })
  | .ok () =>
    if d.shape.isEmpty then site.commit d none
    else
      let (site, handle) := site.present d
      site.commit d (some handle)

/-- Switch the shape of a cell, unless the slot has changed hands or owns no shape. -/
def toggle (site : Site σ) (key : Key) (index : Nat) (enabled : Bool) : Site σ × Tally :=
  if site.store.keyAt index = some key then
    match site.store.shape index with
    | some handle =>
      ({ site with sim := Simulation.setEnabled site.sim handle enabled }, { Tally.zero with toggled := 1 })
    | none => (site, Tally.zero)
  else (site, Tally.zero)

def apply (site : Site σ) : Command → Site σ × Tally
  | .install d => site.install d
  | .remove _ shape =>
    ({ site with sim := Simulation.removeShape site.sim shape }, { Tally.zero with removed := 1 })
  | .toggle key index enabled => site.toggle key index enabled

def applyAll (site : Site σ) (commands : List Command) : Site σ × Tally :=
  commands.foldl (fun (site, tally) c => let (site, t) := site.apply c; (site, tally + t)) (site, Tally.zero)

def drain (site : Site σ) (queue : Mailbox Command) (most : Nat) : Site σ × Mailbox Command × Tally :=
  let (site, tally) := site.applyAll (queue.firsts most)
  (site, queue.rest most, tally)

end Site

end TerrainStream.Collision
