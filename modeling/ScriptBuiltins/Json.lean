set_option autoImplicit false

namespace ScriptBuiltins

/-- A number is kept as an integer where it fits 64 bits, with or without a sign. -/
inductive Number where
  | integer (n : Int)
  | double (x : Float)

/-- A name may be there more than once among the members. -/
inductive Json where
  | null
  | bool (b : Bool)
  | number (n : Number)
  | string (s : String)
  | array (items : List Json)
  | object (members : List (String × Json))

instance : Inhabited Json := ⟨.null⟩

end ScriptBuiltins
