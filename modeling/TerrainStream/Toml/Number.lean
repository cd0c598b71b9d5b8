import TerrainStream.Toml.Reader
import TerrainStream.Toml.Value

namespace TerrainStream.Toml.Reader

/-- Digits of a class, with single underscores allowed in between. -/
def digits (p : Char → Bool) : Reader (List Char) := do
  let first ← one p
  let rest ← many (optional (one p <|> (do char '_'; one p)))
  pure (first :: rest)

/-- A sign in front of a number; true for a minus. -/
def sign : Reader Bool := do
  match ← optional (one fun c => c == '+' || c == '-') with
  | some '-' => pure true
  | _ => pure false

/-- A decimal whole number: no zero in front of other digits. -/
def whole : Reader (List Char) := do
  match ← peek with
  | some '0' => do char '0'; pure ['0']
  | _ => digits Char.isDigit

def fitting (n : Int) : Reader Int :=
  if Int64.minValue.toInt ≤ n ∧ n ≤ Int64.maxValue.toInt then pure n else failure

def integer : Reader Int :=
  let based (letter : Char) (base : Nat) (p : Char → Bool) : Reader Int := do
    char '0'
    char letter
    fitting (numeral base (← digits p))
  based 'x' 16 isHex <|> based 'o' 8 (fun c => '0' ≤ c && c ≤ '7') <|> based 'b' 2 (fun c => c == '0' || c == '1') <|> do
    let negative ← sign
    let n : Int := numeral 10 (← whole)
    fitting (if negative then -n else n)

/-- The double-precision number nearest to `m` times ten to the power `e`. -/
def nearest (m : Nat) (e : Int) : Float :=
  let size := e + (Nat.toDigits 10 m).length
  if m = 0 ∨ size < -400 then 0.0
  else if 400 < size then 1.0 / 0.0
  else Float.ofScientific m (e < 0) e.natAbs

def fraction : Reader (List Char) := do
  char '.'
  digits Char.isDigit

def exponent : Reader Int := do
  let _ ← one fun c => c == 'e' || c == 'E'
  let negative ← sign
  let n : Int := numeral 10 (← digits Char.isDigit)
  pure (if negative then -n else n)

/-- A decimal number with a fraction, an exponent, or both. One too large upwards is refused; one too
large downwards is minus infinity. -/
def decimal : Reader Float := do
  let negative ← sign
  let ws ← whole
  let (fs, e) ← (do let e ← exponent; pure ([], e)) <|> (do
    let fs ← fraction
    let e ← optional exponent
    pure (fs, e.getD 0))
  let x := nearest (numeral 10 (ws ++ fs)) (e - fs.length)
  if negative then pure (-x) else if x.isInf then failure else pure x

def special : Reader Float := do
  let negative ← sign
  let x ← (do word ['i', 'n', 'f']; pure (1.0 / 0.0)) <|> (do word ['n', 'a', 'n']; pure (0.0 / 0.0))
  pure (if negative then -x else x)

def between (n lo hi : Nat) : Reader Nat := do
  let v := numeral 10 (← exactly Char.isDigit n)
  if lo ≤ v ∧ v ≤ hi then pure v else failure

def daysIn (year month : Nat) : Nat :=
  let leap := year % 4 = 0 ∧ (year % 100 ≠ 0 ∨ year % 400 = 0)
  if month = 2 then (if leap then 29 else 28)
  else if month = 4 ∨ month = 6 ∨ month = 9 ∨ month = 11 then 30
  else 31

def date : Reader Unit := do
  let year ← between 4 0 9999
  char '-'
  let month ← between 2 1 12
  char '-'
  let _ ← between 2 1 (daysIn year month)

def time : Reader Unit := do
  let _ ← between 2 0 23
  char ':'
  let _ ← between 2 0 59
  char ':'
  let _ ← between 2 0 60
  let _ ← optional (do char '.'; let _ ← one Char.isDigit; let _ ← run Char.isDigit)

def zone : Reader Unit :=
  (do let _ ← one fun c => c == 'Z' || c == 'z') <|> do
    let _ ← one fun c => c == '+' || c == '-'
    let _ ← between 2 0 23
    char ':'
    let _ ← between 2 0 59

/-- A date, a time of day, or a date with a time and maybe a zone. -/
def moment : Reader Unit :=
  (do
    date
    let _ ← optional (do
      let _ ← one fun c => c == 'T' || c == 't' || c == ' '
      time
      let _ ← optional zone)) <|> time

/-- A value that starts with a sign, a digit or a letter. -/
def scalar : Reader Value :=
  (do moment; pure .moment) <|> Value.decimal <$> decimal <|> Value.decimal <$> special <|>
    Value.integer <$> integer <|> (do word ['t', 'r', 'u', 'e']; pure (.truth true)) <|>
    (do word ['f', 'a', 'l', 's', 'e']; pure (.truth false))

end TerrainStream.Toml.Reader
