import ScriptBuiltins.Message
import ScriptBuiltins.Signature

set_option autoImplicit false

namespace ScriptBuiltins

inductive Slot where
  | unsigned (n : UInt64)
  | signed (n : Int)
  | text (s : String)
  | boolean (b : Bool)
  | variant (v : Value)

inductive BindingError where
  | missingRequiredArgument (parameter : String)
  | emptyStringNotAllowed (parameter : String)
deriving DecidableEq, Repr

def BindingError.message : BindingError → String
  | missingRequiredArgument parameter => Message.missingArgument parameter
  | emptyStringNotAllowed parameter => Message.emptyArgument parameter

def Kind.zero : Kind → Slot
  | unsigned => .unsigned 0
  | signed => .signed 0
  | text | nonemptyText => .text ""
  | boolean => .boolean false
  | variant => .variant .nothing

/-- Only a text that must not be empty can fail. -/
def Param.coerce (p : Param) (v : Value) : Except BindingError Slot :=
  match p.kind with
  | .unsigned => .ok (.unsigned (UInt64.ofNat v.integer.toNat))
  | .signed => .ok (.signed v.integer)
  | .text => .ok (.text v.text)
  | .nonemptyText =>
    if v.text.isEmpty then .error (.emptyStringNotAllowed p.name) else .ok (.text v.text)
  | .boolean => .ok (.boolean v.boolean)
  | .variant => .ok (.variant v)

structure Bound where
  slots : List Slot
  /-- The number of parameters that got an argument. -/
  supplied : Nat
  rest : List Value

namespace Bound

def isSupplied (b : Bound) (i : Nat) : Bool := i < b.supplied

def unsigned (b : Bound) (i : Nat) : UInt64 :=
  match b.slots[i]? with
  | some (.unsigned n) => n
  | _ => 0

def signed (b : Bound) (i : Nat) : Int :=
  match b.slots[i]? with
  | some (.signed n) => n
  | _ => 0

def text (b : Bound) (i : Nat) : String :=
  match b.slots[i]? with
  | some (.text s) => s
  | _ => ""

def boolean (b : Bound) (i : Nat) : Bool :=
  match b.slots[i]? with
  | some (.boolean v) => v
  | _ => false

def variant (b : Bound) (i : Nat) : Value :=
  match b.slots[i]? with
  | some (.variant v) => v
  | _ => .nothing

end Bound

/-- From left to right, so the first parameter that is not satisfied decides the error. -/
def bindSlots : List Param → List Value → Except BindingError (List Slot × List Value)
  | [], args => .ok ([], args)
  | p :: params, [] =>
    if p.required then .error (.missingRequiredArgument p.name)
    else do
      let (slots, rest) ← bindSlots params []
      return (p.kind.zero :: slots, rest)
  | p :: params, v :: args => do
    let slot ← p.coerce v
    let (slots, rest) ← bindSlots params args
    return (slot :: slots, rest)

def bind (signature : Signature) (args : List Value) : Except BindingError Bound := do
  let (slots, rest) ← bindSlots signature.params args
  return {
    slots
    supplied := min args.length signature.params.length
    rest := if signature.variadic then rest else [] }

end ScriptBuiltins
