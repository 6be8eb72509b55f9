import ScriptBuiltins.Binding
import ScriptBuiltins.Host

set_option autoImplicit false

namespace ScriptBuiltins

structure CallSite where
  host : Host
  window : Option WindowId

namespace CallSite

def callingWindow (site : CallSite) : Option Window :=
  site.window.bind site.host.findWindow

def context (site : CallSite) : Option ContextId :=
  site.callingWindow.bind (·.context)

def console (site : CallSite) : Option Console :=
  site.context.bind site.host.findConsole

end CallSite

structure CallContext extends CallSite where
  /-- The name under which the function is registered. -/
  function : String

/-- A cause, and what was being done when it arose, the outermost last. -/
inductive Failure where
  | cause (message : String)
  | during (inner : Failure) (message : String)
deriving DecidableEq, Repr

namespace Failure

def outermost : Failure → String
  | cause message => message
  | during _ message => message

def message : Failure → String
  | cause message => message
  | during inner message => message ++ ": " ++ inner.message

end Failure

inductive Note where
  | warning (message : String)
  /-- Only of interest to who looks for a fault. -/
  | remark (message : String)
deriving DecidableEq, Repr

structure Reply where
  notes : List Note
  result : Except Failure Value

namespace Reply

def value (v : Value) : Reply := ⟨[], .ok v⟩

def warn (message : String) (v : Value) : Reply := ⟨[.warning message], .ok v⟩

def warnings (reply : Reply) : List String :=
  reply.notes.filterMap fun
    | .warning message => some message
    | .remark _ => none

end Reply

abbrev Handler := CallContext → Bound → Reply

structure Outcome where
  value : Value
  warning : Option String

inductive CallError where
  | unknownFunction (name : String)
  | binding (function : String) (error : BindingError)
  | handler (function : String) (failure : Failure)
deriving DecidableEq, Repr

def CallError.message : CallError → String
  | unknownFunction name => "unknown function '$" ++ name ++ "'"
  | binding function error => Message.ofCall function error.message
  | handler function failure => Message.ofCall function failure.message

end ScriptBuiltins
