import ScriptBuiltins.Json.Printer
import ScriptBuiltins.Json.Reader
import ScriptBuiltins.Value

set_option autoImplicit false

namespace ScriptBuiltins.Value

mutual

/-- A hole is written as `null`, which is read as nothing. -/
def ofJson : Json → Value
  | .null => nothing
  | .bool b => ofBool b
  | .number n => scalar n.text
  | .string s => scalar s
  | .array items => ofList (ofItems items)
  | .object members => map (.ofList (ofMembers members))
termination_by structural v => v

def ofItems : List Json → List Value
  | [] => []
  | v :: items => ofJson v :: ofItems items
termination_by structural items => items

def ofMembers : List (String × Json) → List (String × Value)
  | [] => []
  | (key, v) :: members => (key, ofJson v) :: ofMembers members
termination_by structural members => members

end

mutual

def toJson : Value → Json
  | nothing => .null
  | scalar s => .string s
  | array ⟨slots⟩ => .array (toItems slots)
  | map ⟨entries⟩ => .object (toMembers entries)
termination_by structural v => v

def toItems : List (Option Value) → List Json
  | [] => []
  | none :: slots => .null :: toItems slots
  | some v :: slots => toJson v :: toItems slots
termination_by structural slots => slots

def toMembers : List (String × Value) → List (String × Json)
  | [] => []
  | (key, v) :: entries => (key, toJson v) :: toMembers entries
termination_by structural entries => entries

end

def read (s : String) : Option Value := (Json.read s).map ofJson

def render (v : Value) : String := v.toJson.render

end ScriptBuiltins.Value

namespace ScriptBuiltins

/-- An argument that is no JSON, by its place, counted from 1, and its text. -/
structure ArgumentError where
  position : Nat
  argument : String
deriving DecidableEq, Repr

def ArgumentError.message (e : ArgumentError) : String :=
  "argument " ++ toString e.position ++ " is not valid JSON: " ++ e.argument

def readArguments (position : Nat) : List String → Except ArgumentError (List Value)
  | [] => .ok []
  | argument :: arguments =>
    match Value.read argument with
    | none => .error ⟨position, argument⟩
    | some v => do return v :: (← readArguments (position + 1) arguments)

def parseArguments (inJson : Bool) (arguments : List String) : Except ArgumentError (List Value) :=
  if inJson then readArguments 1 arguments else .ok (arguments.map .scalar)

end ScriptBuiltins
