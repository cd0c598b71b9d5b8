/-! Readers take characters from the front of a text and either give a value with the rest, or fail. -/

namespace TerrainStream.Toml

/-- A reader of characters; a failed one leaves the text to the next alternative. -/
abbrev Reader := StateT (List Char) Option

namespace Reader

def peek : Reader (Option Char) := fun s => some (s.head?, s)

def atEnd : Reader Bool := fun s => some (s.isEmpty, s)

def one (p : Char → Bool) : Reader Char
  | [] => none
  | c :: s => if p c then some (c, s) else none

def char (c : Char) : Reader Unit := do let _ ← one (· == c)

def word : List Char → Reader Unit
  | [] => pure ()
  | c :: cs => do char c; word cs

def run (p : Char → Bool) : Reader (List Char) := fun s => some (s.takeWhile p, s.dropWhile p)

def exactly (p : Char → Bool) : Nat → Reader (List Char)
  | 0 => pure []
  | n + 1 => do
    let c ← one p
    let cs ← exactly p n
    pure (c :: cs)

/-- Try a reader; without success nothing is taken. -/
def optional {α : Type} (r : Reader α) : Reader (Option α) := (some <$> r) <|> pure none

/-- Go round as long as `r` gives something; the bound is more than the rounds a text can take. -/
def rounds {α : Type} (r : Reader (Option α)) : Nat → Reader (List α)
  | 0 => failure
  | bound + 1 => do
    match ← r with
    | none => pure []
    | some a =>
      let rest ← rounds r bound
      pure (a :: rest)

/-- Collect what `r` gives until it gives nothing; every success takes at least one character. -/
def many {α : Type} (r : Reader (Option α)) : Reader (List α) := fun s => rounds r (s.length + 1) s

/-- Items with separators in between, one at least. -/
def separated {α : Type} (item : Reader α) (separator : Reader Unit) : Reader (List α) := do
  let first ← item
  let rest ← many (optional (do separator; item))
  pure (first :: rest)

end Reader

/-- The characters that may stand in a comment: no control characters but tabs. -/
def isPrintable (c : Char) : Bool := c == '\t' || (' ' ≤ c && c ≤ '~') || '\x80' ≤ c

def isBlank (c : Char) : Bool := c == ' ' || c == '\t'

def isHex (c : Char) : Bool := c.isDigit || ('a' ≤ c && c ≤ 'f') || ('A' ≤ c && c ≤ 'F')

def isBare (c : Char) : Bool := c.isAlphanum || c == '-' || c == '_'

def digitValue (c : Char) : Nat :=
  if c.isDigit then c.toNat - '0'.toNat
  else if 'a' ≤ c && c ≤ 'f' then c.toNat - 'a'.toNat + 10
  else c.toNat - 'A'.toNat + 10

def numeral (base : Nat) (digits : List Char) : Nat := digits.foldl (fun n c => n * base + digitValue c) 0

namespace Reader

def blanks : Reader Unit := do let _ ← run isBlank

/-- The end of a line: a line feed, with or without a carriage return before it. -/
def newline : Reader Unit := char '\n' <|> word ['\r', '\n']

def comment : Reader Unit := do
  char '#'
  let _ ← run isPrintable

/-- What may follow on a line once it has said its say. -/
def lineEnd : Reader Unit := do
  blanks
  let _ ← optional comment
  if ← atEnd then pure () else newline

/-- Blanks, comments and line ends, in any order. -/
def filler : Reader Unit := do
  let _ ← many (optional ((do let _ ← one isBlank) <|> newline <|> (do comment; newline)))

end Reader

end TerrainStream.Toml
