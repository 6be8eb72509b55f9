set_option autoImplicit false

/-! A sequence with holes. The last slot is always set, so the size is one past the highest index
that is set: `set?`, `push`, `unset` and `ofList` keep it so. Storage is dense: an index above
`maxIndex` is refused. -/
namespace ScriptBuiltins

structure SparseArray (α : Type) where
  slots : List (Option α)
deriving Inhabited

namespace SparseArray

variable {α : Type}

def maxIndex : Nat := 1 <<< 24 - 1

def empty : SparseArray α := ⟨[]⟩

def ofList (values : List α) : SparseArray α := ⟨values.map some⟩

def size (a : SparseArray α) : Nat := a.slots.length

def isEmpty (a : SparseArray α) : Bool := a.slots.isEmpty

def get? (a : SparseArray α) (i : Nat) : Option α := a.slots[i]?.join

def isSet (a : SparseArray α) (i : Nat) : Bool := (a.get? i).isSome

def place (slots : List (Option α)) (i : Nat) (value : α) : List (Option α) :=
  (slots ++ List.replicate (i + 1 - slots.length) none).set i (some value)

def set? (a : SparseArray α) (i : Nat) (value : α) : Option (SparseArray α) :=
  if i ≤ maxIndex then some ⟨place a.slots i value⟩ else none

/-- Leaves the array as it is if the index is refused. -/
def set (a : SparseArray α) (i : Nat) (value : α) : SparseArray α :=
  (a.set? i value).getD a

def push (a : SparseArray α) (value : α) : SparseArray α := ⟨a.slots ++ [some value]⟩

def dropHoles (slots : List (Option α)) : List (Option α) :=
  (slots.reverse.dropWhile Option.isNone).reverse

/-- The array is left without the holes that are then at its end. -/
def unset (a : SparseArray α) (i : Nat) : Option α × SparseArray α :=
  (a.slots[i]?.join, ⟨dropHoles (a.slots.set i none)⟩)

/-- `start` is the index of the first slot. -/
def entriesFrom (start : Nat) : List (Option α) → List (Nat × α)
  | [] => []
  | none :: slots => entriesFrom (start + 1) slots
  | some value :: slots => (start, value) :: entriesFrom (start + 1) slots

def entries (a : SparseArray α) : List (Nat × α) := entriesFrom 0 a.slots

end SparseArray

end ScriptBuiltins
