set_option autoImplicit false

/-! Writing to a key that is there keeps its place; a key that is removed and written again goes to
the end. No key is there twice: `insert`, `erase` and `ofList` keep it so. -/
namespace ScriptBuiltins

structure OrderedMap (α : Type) where
  entries : List (String × α)
deriving Inhabited

namespace OrderedMap

variable {α : Type}

def empty : OrderedMap α := ⟨[]⟩

def size (m : OrderedMap α) : Nat := m.entries.length

def isEmpty (m : OrderedMap α) : Bool := m.entries.isEmpty

def get? (m : OrderedMap α) (key : String) : Option α := m.entries.lookup key

def insertEntry (key : String) (value : α) : List (String × α) → List (String × α)
  | [] => [(key, value)]
  | entry :: entries =>
    if entry.1 = key then (key, value) :: entries
    else entry :: insertEntry key value entries

def insert (m : OrderedMap α) (key : String) (value : α) : OrderedMap α :=
  ⟨insertEntry key value m.entries⟩

def erase (m : OrderedMap α) (key : String) : OrderedMap α :=
  ⟨m.entries.eraseP (·.1 == key)⟩

def remove (m : OrderedMap α) (key : String) : Option α × OrderedMap α :=
  (m.get? key, m.erase key)

def keys (m : OrderedMap α) : List String := m.entries.map (·.1)

def values (m : OrderedMap α) : List α := m.entries.map (·.2)

/-- A repeated key keeps its first place and has its last value. -/
def ofList (pairs : List (String × α)) : OrderedMap α :=
  pairs.foldl (fun m pair => m.insert pair.1 pair.2) empty

end OrderedMap

end ScriptBuiltins
