import ScriptBuiltins.Argument
import ScriptBuiltins.Builtin
import ScriptBuiltins.CommandLine
import ScriptBuiltins.Fixture.Reader

set_option autoImplicit false

namespace ScriptBuiltins.CommandLine

inductive Error where
  | unreadableHost (path : String)
  | invalidHost (path : String)
  | fixture (error : FixtureError)
  | argument (error : ArgumentError)
  | call (error : CallError)

def Error.message : Error → String
  | unreadableHost path => "failed to read host fixture " ++ path
  | invalidHost path => "invalid host fixture " ++ path
  | fixture error => error.message
  | argument error => error.message
  | call error => error.message

structure Report where
  exitCode : UInt32
  output : String
  diagnostics : String
deriving DecidableEq, Repr

def success (output : String) : Report := ⟨0, output, ""⟩

def versionText : String := "chirp 0.1.0"

def helpText : String :=
  "Call chirp builtin functions from the command line.\n\n" ++
  "Usage: chirp [OPTIONS] [FUNCTION] [ARG]...\n\n" ++
  "Options:\n" ++
  "      --host <FILE>     JSON file describing windows, consoles and application state\n" ++
  "      --window <ID>     Id of the window the call is made from\n" ++
  "      --json-args       Parse every argument as JSON instead of passing it as text\n" ++
  "      --json            Print the result as JSON\n" ++
  "      --disable <NAME>  Remove a builtin from the registry (repeatable)\n" ++
  "      --list            Print every registered function with its parameters\n" ++
  "  -v, --verbose         Log dispatch details to stderr\n" ++
  "  -h, --help            Print help\n" ++
  "  -V, --version         Print version"

def registry (c : CommandLine) : Registry := .initial true c.disabled

def listing (c : CommandLine) : String :=
  String.join (c.registry.entries.map fun e => "$" ++ e.name ++ e.signature.render ++ "\n")

def client (c : CommandLine) (text : Option String) : Except Error Client :=
  match c.host with
  | none => .ok .empty
  | some path =>
    match text with
    | none => .error (.unreadableHost path)
    | some text =>
      match Fixture.read text with
      | none => .error (.invalidHost path)
      | some fixture => fixture.toClient.mapError .fixture

def call (c : CommandLine) (system : SystemClock) (text : Option String) :
    Except Error CallRecord := do
  let client ← c.client text
  let args ← (parseArguments c.jsonArguments c.arguments).mapError .argument
  let site : CallSite := ⟨client.toHost system, c.window⟩
  return c.registry.call site (c.function.getD "") args

def eventLine (e : Event) : String :=
  " ".intercalate (e.level.name :: e.fields.map fun field => field.1 ++ "=" ++ field.2) ++ "\n"

def failure (log : String) (error : Error) : Report :=
  ⟨1, "", log ++ "Error: " ++ error.message ++ "\n"⟩

def execute (c : CommandLine) (system : SystemClock) (text : Option String) : Report :=
  if c.list then success c.listing
  else
    match c.call system text with
    | .error error => failure "" error
    | .ok record =>
      let log := if c.verbose then String.join (record.events.map eventLine) else ""
      match record.result with
      | .error error => failure log (.call error)
      | .ok outcome =>
        let warning := outcome.warning.elim "" fun message => "warning: " ++ message ++ "\n"
        let result := if c.json then outcome.value.render else outcome.value.text
        ⟨0, result ++ "\n", log ++ warning⟩

def file? : Except UsageError Request → Option String
  | .ok (.run c) => if c.list then none else c.host
  | _ => none

def respond (request : Except UsageError Request) (system : SystemClock) (text : Option String) :
    Report :=
  match request with
  | .error error => ⟨2, "", "error: " ++ error.message ++ "\n"⟩
  | .ok .help => success (helpText ++ "\n")
  | .ok .version => success (versionText ++ "\n")
  | .ok (.run c) => c.execute system text

end ScriptBuiltins.CommandLine
