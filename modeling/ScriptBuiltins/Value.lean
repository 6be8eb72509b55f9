import ScriptBuiltins.Integer
import ScriptBuiltins.OrderedMap
import ScriptBuiltins.SparseArray

set_option autoImplicit false

namespace ScriptBuiltins

/-- Numbers and truth values are kept as their text. -/
inductive Value where
  | nothing
  | scalar (text : String)
  | array (items : SparseArray Value)
  | map (entries : OrderedMap Value)
deriving Inhabited

namespace Value

def ofInt (n : Int) : Value := scalar (toString n)

def ofNat (n : Nat) : Value := scalar (toString n)

def ofBool (b : Bool) : Value := scalar (if b then "1" else "0")

def ofChar (c : Char) : Value := scalar (String.singleton c)

def ofList (values : List Value) : Value := array (.ofList values)

def element (items : SparseArray Value) (i : Nat) : Value := (items.get? i).getD nothing

def member (entries : OrderedMap Value) (key : String) : Value := (entries.get? key).getD nothing

def typeName : Value → String
  | nothing => "nothing"
  | scalar _ => "scalar"
  | array _ => "array"
  | map _ => "hash"

def integer : Value → Int
  | nothing => 0
  | scalar text => Integer.ofText text
  | array items => min items.size Integer.greatest
  | map entries => min entries.size Integer.greatest

def boolean (v : Value) : Bool := v.integer != 0

mutual

/-- A container is written as its elements with commas between them; a hole is not written. -/
def text : Value → String
  | nothing => ""
  | scalar s => s
  | array ⟨slots⟩ => ",".intercalate (slotTexts slots)
  | map ⟨entries⟩ => ",".intercalate (entryTexts entries)
termination_by structural v => v

def slotTexts : List (Option Value) → List String
  | [] => []
  | none :: slots => slotTexts slots
  | some v :: slots => text v :: slotTexts slots
termination_by structural slots => slots

def entryTexts : List (String × Value) → List String
  | [] => []
  | (_, v) :: entries => text v :: entryTexts entries
termination_by structural entries => entries

end

mutual

/-- Arrays are equal slot by slot, a hole being different from a slot set to nothing. Maps are
equal if they have the same keys with equal values, in whatever order. -/
def equal : Value → Value → Bool
  | nothing, nothing => true
  | scalar s, scalar t => s == t
  | array ⟨slots⟩, array items => equalSlots slots items.slots
  | map ⟨entries⟩, map other => entries.length == other.size && agree entries other
  | _, _ => false
termination_by structural v => v

def equalSlots : List (Option Value) → List (Option Value) → Bool
  | [], [] => true
  | none :: slots, none :: others => equalSlots slots others
  | some v :: slots, some w :: others => equal v w && equalSlots slots others
  | _, _ => false
termination_by structural slots => slots

def agree : List (String × Value) → OrderedMap Value → Bool
  | [], _ => true
  | (key, v) :: entries, other =>
    (match other.get? key with
      | some w => equal v w
      | none => false) && agree entries other
termination_by structural entries => entries

end

instance : BEq Value := ⟨equal⟩

end Value

end ScriptBuiltins
