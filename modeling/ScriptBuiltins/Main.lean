import ScriptBuiltins.CommandLine.Reader
import ScriptBuiltins.CommandLine.Run
import Std.Time.DateTime.Timestamp

set_option autoImplicit false

namespace ScriptBuiltins

/-- The local time of the machine is taken to be UTC. -/
def systemClock : IO SystemClock := do
  let now ← Std.Time.Timestamp.now
  let time :=
    match Timestamp.ofSeconds now.toSecondsSinceUnixEpoch.val with
    | .ok time => time
    | .error _ => .epoch
  return ⟨time, fun _ => some .utc⟩

def contents? (path : String) : IO (Option String) := do
  try
    return some (← IO.FS.readFile path)
  catch _ => return none

def runCommand (words : List String) : IO UInt32 := do
  let request := CommandLine.parse words
  let text ←
    match CommandLine.file? request with
    | some path => contents? path
    | none => pure none
  let report := CommandLine.respond request (← systemClock) text
  IO.eprint report.diagnostics
  IO.print report.output
  return report.exitCode

end ScriptBuiltins

def main (words : List String) : IO UInt32 := ScriptBuiltins.runCommand words
