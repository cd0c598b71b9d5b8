import TerrainStream.Residency.Settings
import TerrainStream.Shape.Merge
import TerrainStream.Toml.Document

/-! The settings file of the terrain. Every section and every field may be left out; unknown ones are
passed over. A section may also be written as an array of its fields in order. -/

namespace TerrainStream

open Residency Toml

structure Settings where
  cellSize : Nat
  pacing : Pacing
  margins : Margins
  editWorkers : Nat
  /-- 0 leaves the number of workers to the machine. -/
  backgroundWorkers : Nat
  maxBoxes : Nat
deriving Inhabited

namespace Settings

def standard : Settings := ⟨16, Pacing.standard, Margins.standard, 1, 0, Shape.usualLimit⟩

inductive Failure
  | unreadable
  | malformed
deriving DecidableEq, Repr

/-- The fields of a section as they were written; none of them if the section was left out. -/
structure Section where
  field : Nat → String → Option Value

/-- A section by its name. A date in its place has no fields; any other value that is neither a table nor an
array is malformed. -/
def section? (rows : Rows) (name : String) : Except Failure Section :=
  match rows.lookup name with
  | none | some .moment => .ok ⟨fun _ _ => none⟩
  | some (.table _ inner) | some (.inline _ inner) => .ok ⟨fun _ field => inner.lookup field⟩
  | some (.array items) => .ok ⟨fun place _ => items[place]?⟩
  | some (.tables elements) => .ok ⟨fun place _ => elements.reverse[place]?⟩
  | some _ => .error .malformed

def Section.nat (s : Section) (place : Nat) (name : String) (usual : Nat) : Except Failure Nat :=
  match s.field place name with
  | none => .ok usual
  | some (.integer n) => if n < 0 then .error .malformed else .ok n.toNat
  | some _ => .error .malformed

/-- A single-precision number, which may be written as a whole one. -/
def Section.real (s : Section) (place : Nat) (name : String) (usual : Float32) : Except Failure Float32 :=
  match s.field place name with
  | none => .ok usual
  | some (.decimal x) => .ok x.toFloat32
  | some (.integer n) => .ok (Int64.ofInt n).toFloat32
  | some _ => .error .malformed

/-- Cells are held to what box coordinates can tell apart. -/
def clampSize (size : Nat) : Nat := min (max size 1) 65535

def pacingOf (rows : Rows) : Except Failure Pacing := do
  let s ← section? rows "scheduler"
  let usual := Pacing.standard
  let passIntervalMs ← s.nat 0 "pass_interval_ms" usual.passIntervalMs
  let snapshotsPerPass ← s.nat 1 "max_snapshots_per_pass" usual.snapshotsPerPass
  let removalGrace ← s.nat 2 "removal_grace_passes" usual.removalGrace
  let retryAfter ← s.nat 3 "retry_after_passes" usual.retryAfter
  let trackerThreads ← s.nat 4 "tracker_threads" usual.trackerThreads
  pure ⟨passIntervalMs, snapshotsPerPass, removalGrace, retryAfter, trackerThreads⟩

def marginsOf (rows : Rows) : Except Failure Margins := do
  let s ← section? rows "tracker"
  let usual := Margins.standard
  let load ← s.real 0 "load_margin" usual.load
  let activation ← s.real 1 "activation_margin" usual.activation
  let lookaheadSecs ← s.real 2 "lookahead_secs" usual.lookaheadSecs
  let maxLookahead ← s.real 3 "max_lookahead" usual.maxLookahead
  let maxCells ← s.nat 4 "max_cells_per_body" usual.maxCells
  pure ⟨load, activation, lookaheadSecs, maxLookahead, maxCells⟩

def ofRows (rows : Rows) : Except Failure Settings := do
  let usual := standard
  let cellSize ← (← section? rows "cell").nat 0 "size" usual.cellSize
  let pacing ← pacingOf rows
  let margins ← marginsOf rows
  let workers ← section? rows "runtime"
  let editWorkers ← workers.nat 0 "edit_workers" usual.editWorkers
  let backgroundWorkers ← workers.nat 1 "bg_workers" usual.backgroundWorkers
  let maxBoxes ← (← section? rows "shape").nat 0 "max_boxes" usual.maxBoxes
  pure ⟨clampSize cellSize, pacing, margins, editWorkers, backgroundWorkers, maxBoxes⟩

def parse (text : String) : Except Failure Settings :=
  match Toml.parse? text with
  | none => .error .malformed
  | some rows => ofRows rows

def load (content : Option ByteArray) : Except Failure Settings :=
  match content.bind String.fromUTF8? with
  | none => .error .unreadable
  | some text => parse text

/-- Read settings from the content of a file, or take the standard ones where there is no file. -/
def loadOrStandard (content : Option ByteArray) : Except Failure Settings :=
  if content.isNone then .ok standard else load content

end Settings

end TerrainStream
