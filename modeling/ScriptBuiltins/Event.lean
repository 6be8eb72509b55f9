import ScriptBuiltins.Call

set_option autoImplicit false

namespace ScriptBuiltins

inductive Level where
  | debug
  | warn
deriving DecidableEq, Repr

def Level.name : Level → String
  | debug => "DEBUG"
  | warn => "WARN"

inductive Event where
  | unknownFunction (name : String)
  | dispatchingCall (function : String) (arguments : Nat)
  | ignoringExtraArguments (function : String) (ignored : Nat)
  | bindingFailed (function : String) (error : BindingError)
  | noted (function : String) (note : Note)
  | handlerFailed (function : String) (failure : Failure)
deriving DecidableEq, Repr

namespace Event

def level : Event → Level
  | noted _ (.warning _) => .warn
  | _ => .debug

/-- The text of a warning is a message beside the message that there was one; of a failure only the
outermost message is logged. -/
def fields : Event → List (String × String)
  | unknownFunction name => [("function", name), ("message", "unknown function")]
  | dispatchingCall function arguments =>
    [("function", function), ("args", toString arguments), ("message", "dispatching call")]
  | ignoringExtraArguments function ignored =>
    [("function", function), ("ignored", toString ignored), ("message", "ignoring extra arguments")]
  | bindingFailed function error =>
    [("function", function), ("error", error.message), ("message", "argument binding failed")]
  | noted function (.warning message) =>
    [("function", function), ("message", message), ("message", "builtin raised a warning")]
  | noted _ (.remark message) => [("message", message)]
  | handlerFailed function failure =>
    [("function", function), ("error", failure.outermost), ("message", "handler failed")]

end Event

end ScriptBuiltins
