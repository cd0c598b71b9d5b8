import TerrainStream.Toml.Number
import TerrainStream.Toml.Text

/-! Whole documents: values, key and value lines, and headers. A key is set once; a table is stated
once, and dotted keys add only to tables that dotted keys made. -/

namespace TerrainStream.Toml

/-- Go into the table that a value stands for: a list of tables stands for its latest. -/
def Value.enter (go : Value → Option Value) : Value → Option Value
  | .tables (t :: ts) => (go t).map fun t => .tables (t :: ts)
  | .table origin rows => go (.table origin rows)
  | _ => none

/-- Whether a dotted key may not go through this value. -/
def Value.isStated : Value → Bool
  | .table .stated _ | .inline .stated _ => true
  | _ => false

/-- Change the table that a header's path leads to; missing parents are implied. -/
def Value.under (f : Rows → Option Rows) : List String → Value → Option Value
  | [], .table origin rows => (f rows).map (.table origin)
  | part :: path, .table origin rows => do
    let child := (rows.lookup part).getD (.table .implied [])
    let child ← child.enter (Value.under f path)
    pure (.table origin (Rows.put rows part child))
  | _, _ => none

/-- Set a dotted key below a table. Its parents must not be stated, and the last of them must be made by
dotted keys. -/
def Value.setDotted (v : Value) : List String → Rows → Option Rows
  | [], _ => none
  | [key], rows => Rows.add? rows key v
  | part :: next :: path, rows => do
    let child := (rows.lookup part).getD (.table .dotted [])
    if child.isStated then none
    else
      let child ← child.enter fun
        | .table origin rows =>
          if path.isEmpty ∧ origin ≠ .dotted then none
          else (Value.setDotted v (next :: path) rows).map (.table origin)
        | _ => none
      pure (Rows.put rows part child)

/-- Set a dotted key inside braces, where every parent must be made by dotted keys. -/
def Value.setInline (v : Value) : List String → Rows → Option Rows
  | [], _ => none
  | [key], rows => Rows.add? rows key v
  | part :: next :: path, rows =>
    match (rows.lookup part).getD (.inline .dotted []) with
    | .inline .dotted inner => do
      let inner ← Value.setInline v (next :: path) inner
      pure (Rows.put rows part (.inline .dotted inner))
    | _ => none

/-- State the table of a header in the rows of its parent. -/
def stateTable (name : String) (rows : Rows) : Option Rows :=
  match rows.lookup name with
  | none => some ((name, .table .stated []) :: rows)
  | some (.table .implied inner) => some (Rows.put rows name (.table .stated inner))
  | some _ => none

/-- Add a table to the list of a doubled header in the rows of its parent. -/
def stateElement (name : String) (rows : Rows) : Option Rows :=
  match rows.lookup name with
  | none => some ((name, .tables [.table .stated []]) :: rows)
  | some (.tables elements) => some (Rows.put rows name (.tables (.table .stated [] :: elements)))
  | some _ => none

namespace Reader

def array (item : Reader Value) : Reader Value := do
  char '['
  filler
  let items ← optional (separated (do filler; let v ← item; filler; pure v) (char ','))
  if items.isSome then
    let _ ← optional (char ',')
  filler
  char ']'
  pure (.array (items.getD []))

def pair (item : Reader Value) : Reader (List String × Value) := do
  let path ← key
  char '='
  blanks
  let v ← item
  pure (path, v)

def braces (item : Reader Value) : Reader Value := do
  char '{'
  blanks
  let pairs ← optional (separated (do let p ← pair item; blanks; pure p) (char ','))
  blanks
  char '}'
  match (pairs.getD []).foldlM (fun rows (path, v) => Value.setInline v path rows) [] with
  | some rows => pure (.inline .stated rows)
  | none => failure

/-- A value with at most this many levels of arrays and braces, less one. -/
def value : Nat → Reader Value
  | 0 => failure
  | depth + 1 => do
    match ← peek with
    | some '"' | some '\'' => Value.text <$> text
    | some '[' => if depth = 0 then failure else array (value depth)
    | some '\x7b' => if depth = 0 then failure else braces (value depth)
    | _ => scalar

/-- A document as far as it has been read: its root table, and the table that lines now go to. -/
structure Progress where
  root : Value
  current : List String

def ofOption {α : Type} : Option α → Reader α
  | some a => pure a
  | none => failure

def header (p : Progress) : Reader Progress := do
  let doubled := (← optional (word ['[', '['])).isSome
  if !doubled then char '['
  let path ← key
  if doubled then word [']', ']'] else char ']'
  lineEnd
  let place := if doubled then stateElement else stateTable
  let root ← ofOption (p.root.under (place (path.getLastD "")) path.dropLast)
  pure ⟨root, path⟩

def setting (p : Progress) : Reader Progress := do
  let (path, v) ← pair (value (depthLimit + 1))
  lineEnd
  let root ← ofOption (p.root.under (Value.setDotted v path) p.current)
  pure { p with root }

def line (p : Progress) : Reader Progress := do
  match ← peek with
  | some '#' => do comment; lineEnd; pure p
  | some '[' => header p
  | some '\n' | some '\r' => do newline; pure p
  | _ => setting p

/-- Read lines to the end of the text; every line takes at least one character. -/
def lines : Nat → Progress → Reader Progress
  | 0, _ => failure
  | bound + 1, p => do
    blanks
    if ← atEnd then pure p
    else
      let p ← line p
      lines bound p

end Reader

/-- The rows of a document, or none if it is not well formed. A byte order mark in front is let pass. -/
def parse? (s : String) : Option Rows :=
  let cs := s.toList
  let cs := if cs.head? = some '\ufeff' then cs.tail else cs
  match (Reader.lines (cs.length + 1) ⟨.table .stated [], []⟩).run' cs with
  | some ⟨.table _ rows, _⟩ => some rows
  | _ => none

end TerrainStream.Toml
