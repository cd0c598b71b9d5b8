import TerrainStream.Demo.CommandLine

namespace TerrainStream.Demo

def readFile? (path : String) : IO (Option ByteArray) := do
  try
    some <$> IO.FS.readBinFile path
  catch
    | .noFileOrDirectory .. => pure none
    | e => throw e

/-- The content of a settings file, and the settings to go by. -/
def loadSettings (path : String) : IO (Option ByteArray × Except Settings.Failure Settings) := do
  try
    let content ← readFile? path
    return (content, Settings.loadOrStandard content)
  catch _ =>
    return (none, .error .unreadable)

def tickMs : UInt32 := 10

/-- Take over the settings file if it has changed and still makes sense. -/
def follow (s : State) (before after : Option ByteArray) : State :=
  if before.map (·.data) = after.map (·.data) then s
  else
    match Settings.load after with
    | .ok settings => reconfigure s settings
    | .error _ => s

def runTimed (a : Arguments) (settings : Settings) (content : Option ByteArray) : IO (Except Store.Fault Summary) := do
  let mut state := start settings a.options
  let mut seen := content
  for _ in [0:a.options.ticks] do
    if a.watch then
      let (now, _) ← loadSettings a.config
      state := follow state seen now
      seen := now
    match tick settings state with
    | .ok next => state := next
    | .error fault => return .error fault
    IO.sleep tickMs
  return State.summary <$> finish state

end TerrainStream.Demo

open TerrainStream TerrainStream.Demo in
def main (words : List String) : IO UInt32 := do
  match Arguments.parse words with
  | .error mistake =>
    IO.eprintln mistake.message
    IO.eprintln Arguments.usage
    return 2
  | .ok a =>
    match ← loadSettings a.config with
    | (_, .error _) =>
      IO.eprintln s!"failed to load {a.config}"
      return 1
    | (content, .ok settings) =>
      match ← runTimed a settings content with
      | .error fault =>
        IO.eprintln s!"demonstration failed: {fault.message}"
        return 1
      | .ok summary =>
        summary.lines.forM IO.println
        return 0
