import Mathlib.Algebra.Group.Nat.Defs
import Mathlib.Data.List.Basic
import Mathlib.Data.List.Induction
import ScriptBuiltins.Proofs.Integer

set_option autoImplicit false

namespace ScriptBuiltins

namespace Integer

def signed (negative : Bool) (n : Nat) : Int := if negative then -n else n

theorem appendDigit_clamp (negative : Bool) (n : Nat) (c : Char) :
    appendDigit negative (clamp (signed negative n)) c =
      clamp (signed negative (10 * n + (c.toNat - '0'.toNat))) := by
  generalize hd : c.toNat - '0'.toNat = d
  simp only [appendDigit, hd, clamp, signed, least, greatest]
  cases negative with
  | true =>
    simp only [if_true]
    omega
  | false =>
    simp only [Bool.false_eq_true, if_false]
    omega

theorem ofDigits_eq (negative : Bool) (ds : List Char) :
    ofDigits negative ds = clamp (signed negative (Nat.ofDigitChars 10 ds 0)) := by
  -- What has been read so far is the number clamped, so the next digit is appended to that.
  induction ds using List.reverseRecOn with
  | nil =>
    cases negative with
    | true => decide
    | false => decide
  | append_singleton ds c ih =>
    rw [ofDigits, List.foldl_concat, ← ofDigits, ih, appendDigit_clamp, Nat.ofDigitChars_append,
      Nat.ofDigitChars_cons, Nat.ofDigitChars_nil]

theorem ofDigitChars_lt {ds : List Char} (h : ∀ c ∈ ds, c.isDigit = true) :
    Nat.ofDigitChars 10 ds 0 < 10 ^ ds.length := by
  induction ds with
  | nil => decide
  | cons c ds ih =>
    have hc : 48 ≤ c.toNat ∧ c.toNat ≤ 57 := Char.isDigit_iff_toNat.mp (h c List.mem_cons_self)
    have hrest := ih fun d hd => h d (List.mem_cons_of_mem c hd)
    have hzero : '0'.toNat = 48 := rfl
    have hdigit : 10 ^ ds.length * (c.toNat - 48) ≤ 10 ^ ds.length * 9 :=
      Nat.mul_le_mul_left _ (by omega)
    rw [Nat.ofDigitChars_cons, Nat.ofDigitChars_eq_ofDigitChars_zero, Nat.mul_zero, Nat.zero_add,
      hzero, List.length_cons, Nat.pow_succ]
    omega

end Integer

end ScriptBuiltins
