import ScriptBuiltins.Proofs.Binding
import ScriptBuiltins.Proofs.Call
import ScriptBuiltins.Proofs.Integer.Numeral

set_option autoImplicit false

namespace ScriptBuiltins

def Slot.toValue : Slot → Value
  | unsigned n => .ofNat n.toNat
  | signed n => .ofInt n
  | text s => .scalar s
  | boolean b => .ofBool b
  | variant v => v

namespace Value

theorem integer_ofInt {n : Int} (h : Integer.Fits n) : (ofInt n).integer = n := by
  have hclamp : (ofInt n).integer = Integer.clamp n := Integer.ofText_toString_int n
  rw [hclamp, Integer.clamp, Int.min_eq_right h.2, Int.max_eq_right h.1]

theorem integer_ofNat {n : Nat} (h : (n : Int) ≤ Integer.greatest) : (ofNat n).integer = n := by
  have hmin : (ofNat n).integer = min (n : Int) Integer.greatest := Integer.ofText_toString n
  rw [hmin, Int.min_eq_left h]

theorem boolean_ofBool (b : Bool) : (ofBool b).boolean = b := by
  cases b with
  | true => rfl
  | false => rfl

end Value

theorem Kind.Coerces.toValue {k : Kind} {v : Value} {slot : Slot} (h : k.Coerces v slot) :
    k.Coerces slot.toValue slot := by
  cases k with
  | unsigned =>
    obtain ⟨n, rfl, hn⟩ := h
    have hzero : 0 ≤ Integer.greatest := Integer.fits_zero.2
    have hv : v.integer ≤ Integer.greatest := v.fits_integer.2
    have hinteger : (Slot.unsigned n).toValue.integer = n.toNat :=
      Value.integer_ofNat (by omega)
    exact ⟨n, rfl, by omega⟩
  | signed =>
    cases h
    exact congrArg Slot.signed (Value.integer_ofInt v.fits_integer).symm
  | boolean =>
    obtain ⟨b, rfl, _⟩ := h
    have hboolean : (Slot.boolean b).toValue.boolean = b := Value.boolean_ofBool b
    refine ⟨b, rfl, ?_⟩
    rw [← bne_iff_ne, ← Value.boolean, hboolean]
  | text | nonemptyText | variant =>
    cases h
    rfl

theorem Param.coerce_toValue {p : Param} {v : Value} {slot : Slot} (h : p.coerce v = .ok slot) :
    p.coerce slot.toValue = .ok slot := by
  obtain ⟨hcoerces, hnonempty⟩ := coerce_eq_ok_iff.mp h
  refine coerce_eq_ok_iff.mpr ⟨hcoerces.toValue, fun hkind => ?_⟩
  rw [hkind] at hcoerces
  cases hcoerces
  exact hnonempty hkind

theorem call_boolean (function : String) (site : CallSite) (v : Value) :
    (Entry.call ⟨function, Builtin.boolean.signature, Builtin.boolean.handler⟩ site
      [v]).result = .ok ⟨.ofBool v.boolean, none⟩ :=
  Entry.call_of_value rfl rfl

/-- What an argument is turned into is not changed by turning it into that once more. -/
theorem coerce_idempotent :
    (∀ (p : Param) (v : Value) (slot : Slot), p.coerce v = .ok slot →
      p.coerce slot.toValue = .ok slot) ∧
    (∀ n : Int, -9223372036854775808 ≤ n → n ≤ 9223372036854775807 →
      (Value.ofInt n).integer = n) ∧
    ∀ (disabled : List String) (name : String), Builtin.boolean.goesBy name = true →
      Text.anyIgnoringCase disabled name = false → ∀ (site : CallSite) (v : Value),
        let call := fun args => ((Registry.initial true disabled).call site name args).result
        call [v] = .ok ⟨.ofBool v.boolean, none⟩ ∧ call [.ofBool v.boolean] = call [v] := by
  refine ⟨fun p v slot h => Param.coerce_toValue h, ?_, ?_⟩
  · intro n hleast hgreatest
    exact Value.integer_ofInt ⟨hleast, hgreatest⟩
  · intro disabled name hname henabled site v call
    obtain ⟨function, _, hcall⟩ := Registry.exists_call_initial hname henabled
    have hboolean : ∀ w, call [w] = .ok ⟨.ofBool w.boolean, none⟩ := by
      intro w
      change (Registry.call _ site name [w]).result = _
      rw [hcall, call_boolean]
    exact ⟨hboolean v, by rw [hboolean, hboolean, Value.boolean_ofBool]⟩

end ScriptBuiltins
