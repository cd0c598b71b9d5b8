import TerrainStream.Proofs.Pipeline.Ledger

/-! When things happened in a run. Moves are numbered in the order they are made; a chronicle keeps the
number of the move in which a snapshot was taken, and follows it into the build that comes from it. -/

namespace TerrainStream

open Cell Store Shape Collision Build Residency Physics World

variable {σ ω : Type}

structure Chronicle where
  /-- The number of the move that is being made. -/
  now : Nat
  /-- When the last snapshot for a claim was taken. -/
  taken : Claim → Option Nat
  /-- When the snapshot was taken that the last build of a cell comes from. -/
  built : Key → Option Nat

namespace Chronicle

def blank : Chronicle := ⟨0, fun _ => none, fun _ => none⟩

/-- A snapshot is taken for a claim. -/
def snap (c : Chronicle) (claim : Claim) : Chronicle :=
  { c with taken := fun other => if other = claim then some c.now else c.taken other }

/-- The build for a claim is installed. -/
def install (c : Chronicle) (claim : Claim) : Chronicle :=
  { c with built := fun key => if key = claim.key then c.taken claim else c.built key }

/-- Cells that are not there have no build. -/
def forget (c : Chronicle) (s : Store) : Chronicle :=
  { c with built := fun key => if s.contains key then c.built key else none }

end Chronicle

namespace Pipeline

/-- A request that the world supplies gets a snapshot. -/
def noteServe [Supplier ω] (p : Pipeline σ ω) (c : Chronicle) (r : Request) : Chronicle :=
  if (p.serve r).2.taken = 1 then c.snap r.claim else c

def noteSupply [Supplier ω] (p : Pipeline σ ω) (c : Chronicle) : List Request → Chronicle
  | [] => c
  | r :: rest => noteSupply (p.serve r).1 (p.noteServe c r) rest

/-- A delivery that is not turned away is the cell's last build from then on. -/
def noteApply [Simulation σ] (site : Site σ) (c : Chronicle) : Command → Chronicle
  | .install d => if (site.apply (.install d)).2.installed = 1 then c.install d.claim else c
  | _ => c

def noteDrain [Simulation σ] (site : Site σ) (c : Chronicle) : List Command → Chronicle
  | [] => c
  | command :: rest => noteDrain (site.apply command).1 (noteApply site c command) rest

variable [Simulation σ] [Supplier ω]

def note (p : Pipeline σ ω) (c : Chronicle) : Move ω → Chronicle
  | .pass => c.forget p.pass.1.store
  | .supply most => noteSupply { p with requests := p.requests.rest most } c (p.requests.firsts most)
  | .drain most => noteDrain ⟨p.sim, p.store, p.interludes.addition⟩ c (p.commands.firsts most)
  | _ => c

/-- The chronicle after some moves. -/
def chronicle (p : Pipeline σ ω) (c : Chronicle) : List (Move ω) → Chronicle
  | [] => c
  | m :: rest => chronicle (p.move m) { p.note c m with now := c.now + 1 } rest

/-- Whether every move of a run, made where it is made, is of a kind. -/
def Throughout (kind : Pipeline σ ω → Move ω → Prop) (p : Pipeline σ ω) : List (Move ω) → Prop
  | [] => True
  | m :: rest => kind p m ∧ Throughout kind (p.move m) rest

instance decideThroughout (kind : Pipeline σ ω → Move ω → Prop) [∀ p m, Decidable (kind p m)] (p : Pipeline σ ω) :
    (moves : List (Move ω)) → Decidable (p.Throughout kind moves)
  | [] => .isTrue trivial
  | m :: rest =>
    have := decideThroughout kind (p.move m) rest
    inferInstanceAs (Decidable (kind p m ∧ (p.move m).Throughout kind rest))

/-- Requests that the world has no snapshot for. -/
def unanswered (p : Pipeline σ ω) : Move ω → Nat
  | .supply most => (p.supply most).2.unavailable
  | _ => 0

/-- Whether the world supplies every snapshot that it is asked for. -/
def Supplied (p : Pipeline σ ω) (moves : List (Move ω)) : Prop := p.Throughout (fun p m => p.unanswered m = 0) moves

instance decideSupplied (p : Pipeline σ ω) (moves : List (Move ω)) : Decidable (p.Supplied moves) :=
  decideThroughout _ p moves

end Pipeline

end TerrainStream
