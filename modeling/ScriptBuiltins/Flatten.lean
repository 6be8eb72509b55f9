import ScriptBuiltins.Value

set_option autoImplicit false

namespace ScriptBuiltins.Value

/-- The first `next` slots are spoken for. A hole of an array takes up its slot and stays a hole. -/
def flattenStep (state : SparseArray Value × Nat) (arg : Value) : SparseArray Value × Nat :=
  let (flat, next) := state
  match arg with
  | nothing | scalar _ => (flat.set next arg, next + 1)
  | array items =>
    (items.entries.foldl (fun flat (i, v) => flat.set (next + i) v) flat, next + items.size)
  | map entries =>
    entries.values.foldl (fun (flat, next) v => (flat.set next v, next + 1)) (flat, next)

def flatten (args : List Value) : SparseArray Value :=
  (args.foldl flattenStep (.empty, 0)).1

end ScriptBuiltins.Value
