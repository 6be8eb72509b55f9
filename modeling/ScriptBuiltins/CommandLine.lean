import ScriptBuiltins.Host

set_option autoImplicit false

namespace ScriptBuiltins

structure CommandLine where
  function : Option String := none
  arguments : List String := []
  host : Option String := none
  window : Option WindowId := none
  jsonArguments : Bool := false
  json : Bool := false
  list : Bool := false
  verbose : Bool := false
  disabled : List String := []
deriving DecidableEq, Repr

/-- The text is the option or the argument that is meant. -/
inductive UsageError where
  | unknownOption (token : String)
  | missingValue (option : String)
  | unexpectedValue (option : String)
  | invalidValue (option value : String)
  | repeatedOption (option : String)
  | missingFunction
deriving DecidableEq, Repr

def UsageError.message : UsageError → String
  | unknownOption token => "unexpected argument '" ++ token ++ "'"
  | missingValue option => "a value is required for '" ++ option ++ "'"
  | unexpectedValue option => "'" ++ option ++ "' takes no value"
  | invalidValue option value => "invalid value '" ++ value ++ "' for '" ++ option ++ "'"
  | repeatedOption option => "'" ++ option ++ "' cannot be used twice"
  | missingFunction => "a function is required"

inductive Request where
  | help
  | version
  | run (command : CommandLine)
deriving DecidableEq, Repr

end ScriptBuiltins
