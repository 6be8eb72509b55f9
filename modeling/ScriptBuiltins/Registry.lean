import ScriptBuiltins.Event
import Std.Data.ExtTreeMap

set_option autoImplicit false

namespace ScriptBuiltins

structure Entry where
  name : String
  signature : Signature
  handler : Handler

/-- By name in lowercase: functions whose names differ in case only replace one another. -/
structure Registry where
  table : Std.ExtTreeMap String Entry

namespace Registry

def empty : Registry := ⟨∅⟩

def register (r : Registry) (entry : Entry) : Registry :=
  ⟨r.table.insert (Text.lowercase entry.name) entry⟩

def unregister (r : Registry) (name : String) : Registry :=
  ⟨r.table.erase (Text.lowercase name)⟩

def lookup (r : Registry) (name : String) : Option Entry :=
  r.table[Text.lowercase name]?

def remove (r : Registry) (name : String) : Option Entry × Registry :=
  (r.table[Text.lowercase name]?, r.unregister name)

def entries (r : Registry) : List Entry :=
  r.table.toList.map (·.2)

end Registry

structure CallRecord where
  events : List Event
  result : Except CallError Outcome

def Entry.call (entry : Entry) (site : CallSite) (args : List Value) : CallRecord :=
  let extra := args.length - entry.signature.params.length
  let opening :=
    .dispatchingCall entry.name args.length ::
      if entry.signature.variadic || extra == 0 then []
      else [.ignoringExtraArguments entry.name extra]
  match bind entry.signature args with
  | .error error =>
    ⟨opening ++ [.bindingFailed entry.name error], .error (.binding entry.name error)⟩
  | .ok bound =>
    let reply := entry.handler ⟨site, entry.name⟩ bound
    let events := opening ++ reply.notes.map (.noted entry.name)
    match reply.result with
    | .error failure =>
      ⟨events ++ [.handlerFailed entry.name failure], .error (.handler entry.name failure)⟩
    | .ok value => ⟨events, .ok ⟨value, reply.warnings.head?⟩⟩

def Registry.call (r : Registry) (site : CallSite) (name : String) (args : List Value) :
    CallRecord :=
  match r.lookup name with
  | none => ⟨[.unknownFunction name], .error (.unknownFunction name)⟩
  | some entry => entry.call site args

end ScriptBuiltins
