/-! The values of a TOML document. Tables remember how they came to be, since that decides whether a
later line may add to them. -/

namespace TerrainStream.Toml

/-- How a table came into a document. -/
inductive Origin
  /-- By a header of its own, or written out in braces. -/
  | stated
  /-- As a parent in the header of another table. -/
  | implied
  /-- As a parent in a dotted key. -/
  | dotted
deriving DecidableEq, Repr

inductive Value
  | text (s : String)
  | integer (n : Int)
  | decimal (x : Float)
  | truth (b : Bool)
  | moment
  | array (items : List Value)
  | inline (origin : Origin) (rows : List (String × Value))
  | table (origin : Origin) (rows : List (String × Value))
  /-- A list of tables under one header, the latest first. -/
  | tables (elements : List Value)
deriving Inhabited

abbrev Rows := List (String × Value)

namespace Rows

def put (rows : Rows) (key : String) (v : Value) : Rows := (key, v) :: rows.filter (·.1 ≠ key)

def add? (rows : Rows) (key : String) (v : Value) : Option Rows :=
  if (rows.lookup key).isSome then none else some ((key, v) :: rows)

end Rows

end TerrainStream.Toml
