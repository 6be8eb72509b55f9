import Mathlib.Data.List.Forall2
import ScriptBuiltins.Value

set_option autoImplicit false

namespace ScriptBuiltins.Value

theorem equalSlots_iff (slots others : List (Option Value)) :
    equalSlots slots others = true ↔
      List.Forall₂ (Option.Rel fun v w => v.equal w = true) slots others := by
  induction slots generalizing others with
  | nil => cases others <;> simp [equalSlots]
  | cons slot slots ih =>
    cases others with
    | nil => cases slot <;> simp [equalSlots]
    | cons other others =>
      rw [List.forall₂_cons, ← ih]
      cases slot <;> cases other <;> simp [equalSlots]

theorem array_equal_iff (a b : SparseArray Value) :
    (array a).equal (array b) = true ↔
      List.Forall₂ (Option.Rel fun v w => v.equal w = true) a.slots b.slots := by
  rw [equal, equalSlots_iff]

end ScriptBuiltins.Value
