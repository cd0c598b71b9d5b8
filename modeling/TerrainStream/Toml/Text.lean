import TerrainStream.Toml.Reader

/-! Quoted texts: in double quotes with escapes, in single quotes as they stand, and both on several
lines between tripled quotes. -/

namespace TerrainStream.Toml.Reader

def codePoint (n : Nat) : Reader Char := do
  let code := numeral 16 (← exactly isHex n)
  if code < 0xD800 ∨ (0xDFFF < code ∧ code < 0x110000) then pure (Char.ofNat code) else failure

def escape : Reader Char := do
  char '\\'
  match ← one (fun _ => true) with
  | 'b' => pure '\x08'
  | 't' => pure '\t'
  | 'n' => pure '\n'
  | 'f' => pure '\x0c'
  | 'r' => pure '\r'
  | '"' => pure '"'
  | '\\' => pure '\\'
  | 'u' => codePoint 4
  | 'U' => codePoint 8
  | _ => failure

/-- A character that stands for itself between quotes of this kind. -/
def plain (quote : Char) : Reader Char :=
  one fun c => isPrintable c && c != quote && (quote == '\'' || c != '\\')

def symbol (quote : Char) : Reader Char := if quote == '"' then plain quote <|> escape else plain quote

def lineText (quote : Char) : Reader String := do
  char quote
  let cs ← many (optional (symbol quote))
  char quote
  pure (String.ofList cs)

/-- A line end that an escape takes out, with all blank space after it. -/
def joinedLines : Reader Unit := do
  char '\\'
  blanks
  newline
  let _ ← many (optional ((do let _ ← one isBlank) <|> newline))

def piece (quote : Char) : Reader (List Char) :=
  let content := (do let c ← symbol quote; pure [c]) <|> (do newline; pure ['\n'])
  if quote == '"' then (do joinedLines; pure []) <|> content else content

/-- One or two quotes inside a text on several lines: something other than a quote follows. -/
def innerQuotes (quote : Char) : Reader (List Char) := do
  let quotes ← run (· == quote)
  if quotes.length = 1 ∨ quotes.length = 2 then pure quotes else failure

/-- The closing quotes of a text on several lines; one or two more belong to the text. -/
def closingQuotes (quote : Char) : Reader (List Char) := do
  let quotes ← run (· == quote)
  if 3 ≤ quotes.length ∧ quotes.length ≤ 5 then pure (quotes.drop 3) else failure

/-- A text on several lines; a line end right after the opening quotes does not count. -/
def blockText (quote : Char) : Reader String := do
  word [quote, quote, quote]
  let _ ← optional newline
  let body ← many (optional (innerQuotes quote <|> piece quote))
  let tail ← closingQuotes quote
  pure (String.ofList (body.flatten ++ tail))

def text : Reader String :=
  blockText '"' <|> lineText '"' <|> blockText '\'' <|> lineText '\''

def keyPart : Reader String := do
  match ← peek with
  | some '"' => lineText '"'
  | some '\'' => lineText '\''
  | _ =>
    let cs ← run isBare
    if cs.isEmpty then failure else pure (String.ofList cs)

/-- The most parts that a key may have, and the most levels of nested values. -/
def depthLimit : Nat := 79

def key : Reader (List String) := do
  let parts ← separated (do blanks; let part ← keyPart; blanks; pure part) (char '.')
  if parts.length ≤ depthLimit then pure parts else failure

end TerrainStream.Toml.Reader
