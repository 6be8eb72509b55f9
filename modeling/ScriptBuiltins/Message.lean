set_option autoImplicit false

namespace ScriptBuiltins.Message

def quotable (s : String) : String :=
  String.ofList (s.toList.flatMap fun c => if c = '\'' then ['\\', c] else [c])

def ofCall (function message : String) : String :=
  "$" ++ function ++ ": " ++ message

def ofCallOn (function input message : String) : String :=
  "$" ++ function ++ "('" ++ quotable input ++ "'): " ++ message

def noWindowContext (function : String) : String :=
  ofCall function "this window has no associated IRC context"

def noSuchContext (function : String) (context : UInt64) : String :=
  ofCall function ("no such IRC context (" ++ toString context.toNat ++ ")")

def invalidDate (function reason : String) : String :=
  ofCall function ("could not construct date/time: " ++ reason)

def undecodable (function input reason : String) : String :=
  ofCallOn function input ("decoding failed: " ++ reason)

def missingArgument (parameter : String) : String :=
  "missing required argument '" ++ quotable parameter ++ "'"

def emptyArgument (parameter : String) : String :=
  "argument '" ++ quotable parameter ++ "' must not be an empty string"

end ScriptBuiltins.Message
