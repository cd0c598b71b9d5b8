import TerrainStream.Demo.Basic

namespace TerrainStream.Demo

structure Arguments where
  /-- The settings file; the standard settings apply where there is none. -/
  config : String
  options : Options
  /-- Whether to take over the settings file whenever it changes. -/
  watch : Bool
deriving DecidableEq, Repr, Inhabited

inductive Mistake
  | unknown (word : String)
  | valueMissing (option : String)
  | valueMalformed (option value : String)
deriving DecidableEq, Repr

def Mistake.message : Mistake → String
  | unknown word => s!"unexpected argument: {word}"
  | valueMissing option => s!"a value is required for {option}"
  | valueMalformed option value => s!"invalid value for {option}: {value}"

namespace Arguments

def standard : Arguments := ⟨"terrain.toml", ⟨600, 4, 1337, 8⟩, false⟩

def usage : String :=
  "usage: [--config FILE] [--ticks N] [--bodies N] [--seed N] [--extent N] [--watch]"

def valued : List String := ["--config", "--ticks", "--bodies", "--seed", "--extent"]

def set (a : Arguments) (option value : String) : Option Arguments :=
  let o := a.options
  match option with
  | "--config" => some { a with config := value }
  | "--ticks" => value.toNat?.map fun ticks => { a with options := { o with ticks } }
  | "--bodies" => value.toNat?.map fun bodies => { a with options := { o with bodies } }
  | "--seed" => value.toNat?.map fun seed => { a with options := { o with seed } }
  | "--extent" => value.toInt?.map fun extent => { a with options := { o with extent } }
  | _ => none

/-- Take in words one by one; the last value given for an option counts. -/
def read (a : Arguments) : List String → Except Mistake Arguments
  | [] => .ok a
  | word :: rest =>
    if word = "--watch" then read { a with watch := true } rest
    else if word ∈ valued then
      match rest with
      | [] => .error (.valueMissing word)
      | value :: rest =>
        match a.set word value with
        | some a => read a rest
        | none => .error (.valueMalformed word value)
    else .error (.unknown word)

def parse (words : List String) : Except Mistake Arguments := standard.read words

end Arguments

end TerrainStream.Demo
