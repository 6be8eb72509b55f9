import ScriptBuiltins.Value

set_option autoImplicit false

namespace ScriptBuiltins

inductive Kind where
  /-- A negative integer counts as zero. -/
  | unsigned
  | signed
  | text
  | nonemptyText
  | boolean
  | variant
deriving DecidableEq, Repr

def Kind.name : Kind → String
  | unsigned => "uint"
  | signed => "int"
  | text => "string"
  | nonemptyText => "non-empty string"
  | boolean => "boolean"
  | variant => "variant"

structure Param where
  name : String
  kind : Kind
  required : Bool
deriving DecidableEq, Repr

def Param.mandatory (name : String) (kind : Kind) : Param := ⟨name, kind, true⟩

def Param.optional (name : String) (kind : Kind) : Param := ⟨name, kind, false⟩

/-- Angle brackets for what has to be given, square ones for what may be left out. -/
def Param.render (p : Param) : String :=
  if p.required then "<" ++ p.name ++ ":" ++ p.kind.name ++ ">"
  else "[" ++ p.name ++ ":" ++ p.kind.name ++ "]"

structure Signature where
  params : List Param
  variadic : Bool
deriving DecidableEq, Repr

namespace Signature

def fixed (params : List Param) : Signature := ⟨params, false⟩

def render (s : Signature) : String :=
  let more := if s.variadic then ["..."] else []
  "(" ++ ", ".intercalate (s.params.map Param.render ++ more) ++ ")"

end Signature

end ScriptBuiltins
