import Mathlib.Data.List.Forall2
import ScriptBuiltins.Argument
import ScriptBuiltins.Binding
import ScriptBuiltins.Proofs.Json.Number

set_option autoImplicit false

namespace ScriptBuiltins

namespace Json.IntegerLiteral

variable (l : IntegerLiteral)

def toLeadingDigits : Integer.LeadingDigits where
  negative := l.negative
  digits := l.digits
  after := []
  digits_ne_nil := l.digits_ne_nil
  isDigit_digits := l.isDigit_digits
  isDigit_after := Integer.isDigit_head?_nil
  isBlank_after := List.forall_mem_nil _

theorem ofText_text : Integer.ofText l.text = Integer.clamp l.value := by
  have htext : l.toLeadingDigits.text = l.text := by
    rw [Integer.LeadingDigits.text, text, chars, toLeadingDigits, List.append_nil]
  rw [← htext, l.toLeadingDigits.ofText_text]
  rfl

theorem read_text : Json.read l.text = (Number.ofChars? l.chars).map .number := by
  have hparts : ∃ c cs, l.chars = c :: cs ∧ (c = '-' ∨ c.isDigit = true) ∧
      ∀ d ∈ cs, d.isDigit = true := by
    obtain ⟨c, cs, hdigits⟩ := List.exists_cons_of_ne_nil l.digits_ne_nil
    have hdigit := l.isDigit_digits
    unfold chars
    cases l.negative with
    | true => exact ⟨'-', l.digits, rfl, .inl rfl, hdigit⟩
    | false =>
      rw [hdigits] at hdigit ⊢
      exact ⟨c, cs, rfl, .inr (hdigit c List.mem_cons_self),
        fun d hd => hdigit d (List.mem_cons_of_mem c hd)⟩
  obtain ⟨c, cs, hchars, hfirst, hrest⟩ := hparts
  rw [Json.read, text, String.toList_ofList, hchars]
  exact Reader.readChars_number hfirst fun d hd => Reader.isNumberChar_of_isDigit (hrest d hd)

theorem read_text_eq :
    Value.read l.text = (Number.ofChars? l.chars).map fun n => .scalar n.text := by
  rw [Value.read, l.read_text, Option.map_map]
  rfl

theorem digits_of_size_eq_zero (h : l.size = 0) : l.digits = ['0'] := by
  obtain ⟨c, cs, hdigits⟩ := List.exists_cons_of_ne_nil l.digits_ne_nil
  have hdigit : c.isDigit = true := l.isDigit_digits c (hdigits ▸ List.mem_cons_self)
  have hbounds : 48 ≤ c.toNat ∧ c.toNat ≤ 57 := Char.isDigit_iff_toNat.mp hdigit
  have hc : c = '0' := by
    rw [size, hdigits, Nat.ofDigitChars_cons, Nat.ofDigitChars_eq_ofDigitChars_zero,
      Nat.add_eq_zero_iff, Nat.mul_eq_zero, Nat.pow_eq_zero] at h
    have hzero : '0'.toNat = 48 := rfl
    apply Char.toNat_inj.mp
    omega
  have hcs : cs = [] := by
    have hzero := l.no_leading_zero
    rw [hdigits, hc, List.length_cons, List.head?_cons] at hzero
    have hlength : cs.length = 0 := by
      by_contra hlength
      exact hzero (by omega) rfl
    exact List.eq_nil_of_length_eq_zero hlength
  rw [hdigits, hc, hcs]

variable {l}

theorem exists_read_of_negative_zero (hnegative : l.negative = true) (hzero : l.size = 0) :
    ∃ v, Value.read l.text = some v ∧ v.integer = Integer.clamp l.value := by
  have htext : l.text = "-0" := by
    rw [text, chars, hnegative, l.digits_of_size_eq_zero hzero]
    rfl
  have hinteger : (Value.scalar "-0.0").integer = 0 := by decide +kernel
  refine ⟨.scalar "-0.0", ?_, ?_⟩
  · rw [htext]
    rfl
  · rw [hinteger, value, hnegative, hzero]
    rfl

theorem exists_read_of_fitsWord (h : l.FitsWord) :
    ∃ v, Value.read l.text = some v ∧ v.integer = Integer.clamp l.value := by
  by_cases hzero : l.negative = true → 0 < l.size
  · refine ⟨.scalar (toString l.value), ?_, Integer.ofText_toString_int l.value⟩
    rw [l.read_text_eq, ofChars?_of_fitsWord h hzero]
    rfl
  · rw [Classical.not_imp] at hzero
    exact exists_read_of_negative_zero hzero.1 (Nat.eq_zero_of_not_pos hzero.2)

/-- Beyond 64 bits the number that is read is too small by far. -/
theorem natAbs_integer_lt {v : Value} (h : ¬ l.FitsWord) (hread : Value.read l.text = some v) :
    v.integer.natAbs < 10 ^ 16 := by
  rw [l.read_text_eq, ofChars?_of_not_fitsWord h, Option.map_map] at hread
  obtain ⟨x, _, rfl⟩ := Option.map_eq_some_iff.mp hread
  exact Number.natAbs_ofText_doubleText_lt _

theorem le_natAbs_clamp (h : ¬ l.FitsWord) : 10 ^ 16 ≤ (Integer.clamp l.value).natAbs := by
  simp only [FitsWord] at h
  simp only [Integer.clamp, Integer.least, Integer.greatest]
  omega

theorem integer_eq_iff {v : Value} (hread : Value.read l.text = some v) :
    v.integer = Integer.clamp l.value ↔ l.FitsWord := by
  constructor
  · intro h
    by_contra hfits
    have hlt := natAbs_integer_lt hfits hread
    have hle := le_natAbs_clamp hfits
    rw [h] at hlt
    omega
  · intro hfits
    obtain ⟨w, hw, hinteger⟩ := exists_read_of_fitsWord hfits
    rw [hread, Option.some.injEq] at hw
    rw [hw, hinteger]

end Json.IntegerLiteral

theorem readArguments_eq_ok_iff {args : List String} {vs : List Value} (position : Nat) :
    readArguments position args = .ok vs ↔
      List.Forall₂ (fun argument v => Value.read argument = some v) args vs := by
  induction args generalizing position vs with
  | nil =>
    rw [List.forall₂_nil_left_iff, readArguments, Except.ok.injEq, eq_comm]
  | cons argument args ih =>
    rw [List.forall₂_cons_left_iff, readArguments]
    cases hread : Value.read argument with
    | none => simp
    | some v =>
      dsimp only
      constructor
      · intro h
        cases hargs : readArguments (position + 1) args with
        | error error =>
          rw [hargs] at h
          cases h
        | ok ws =>
          rw [hargs] at h
          cases h
          exact ⟨v, ws, rfl, (ih _).mp hargs, rfl⟩
      · rintro ⟨w, ws, hw, hargs, rfl⟩
        cases hw
        rw [(ih _).mpr hargs]
        rfl

theorem parseArguments_eq_ok_iff {args : List String} {vs : List Value} :
    parseArguments true args = .ok vs ↔
      List.Forall₂ (fun argument v => Value.read argument = some v) args vs :=
  readArguments_eq_ok_iff 1

theorem Param.coerce_congr_integer {p : Param} {v w : Value}
    (hkind : p.kind = .unsigned ∨ p.kind = .signed ∨ p.kind = .boolean)
    (h : v.integer = w.integer) : p.coerce v = p.coerce w := by
  unfold coerce
  obtain hkind | hkind | hkind := hkind
  · rw [hkind, h]
  · rw [hkind, h]
  · rw [hkind, Value.boolean, Value.boolean, h]

/-- As text an integer counts for itself, as far as the integers reach. As JSON it counts for the
same exactly if it fits 64 bits, with or without a sign. -/
theorem integer_argument_iff (l : Json.IntegerLiteral) :
    let plain := Value.scalar l.text
    let fits := -9223372036854775808 ≤ l.value ∧ l.value ≤ 18446744073709551615
    plain.integer = max (-9223372036854775808) (min 9223372036854775807 l.value) ∧
    ((∃ v, parseArguments true [l.text] = .ok [v] ∧ v.integer = plain.integer) ↔ fits) ∧
    ∀ (args : List String) (i : Nat), args[i]? = some l.text →
      ∃ plains, parseArguments false args = .ok plains ∧ plains[i]? = some plain ∧
        ∀ vs, parseArguments true args = .ok vs →
          ∃ v, vs[i]? = some v ∧ (v.integer = plain.integer ↔ fits) ∧
            (fits → ∀ p : Param, p.kind = .unsigned ∨ p.kind = .signed ∨ p.kind = .boolean →
              p.coerce v = p.coerce plain) := by
  intro plain fits
  have hplain : plain.integer = Integer.clamp l.value := l.ofText_text
  have hread : ∀ {v}, Value.read l.text = some v → (v.integer = plain.integer ↔ fits) := by
    intro v h
    rw [hplain]
    exact Json.IntegerLiteral.integer_eq_iff h
  refine ⟨hplain, ⟨?_, ?_⟩, ?_⟩
  · rintro ⟨v, hv, hinteger⟩
    obtain ⟨hfirst, _⟩ := List.forall₂_cons.mp (parseArguments_eq_ok_iff.mp hv)
    exact (hread hfirst).mp hinteger
  · intro hfits
    obtain ⟨v, hv, hinteger⟩ := Json.IntegerLiteral.exists_read_of_fitsWord hfits
    exact ⟨v, parseArguments_eq_ok_iff.mpr (.cons hv .nil), hinteger.trans hplain.symm⟩
  · intro args i hi
    refine ⟨args.map .scalar, rfl, by rw [List.getElem?_map, hi]; rfl, fun vs hvs => ?_⟩
    have hargs := parseArguments_eq_ok_iff.mp hvs
    obtain ⟨hlt, harg⟩ := List.getElem?_eq_some_iff.mp hi
    have hlt' : i < vs.length := hargs.length_eq ▸ hlt
    have hv : Value.read l.text = some vs[i] := harg ▸ hargs.get hlt hlt'
    refine ⟨vs[i], List.getElem?_eq_getElem hlt', hread hv, fun hfits p hkind => ?_⟩
    exact Param.coerce_congr_integer hkind ((hread hv).mpr hfits)

/-- The integer after those of 64 bits. -/
theorem great_integer_begins_with_one :
    (∃ l : Json.IntegerLiteral, l.text = "18446744073709551616") ∧
    (Value.scalar "18446744073709551616").integer = 9223372036854775807 ∧
    ∃ v, parseArguments true ["18446744073709551616"] = .ok [v] ∧
      v.text = "1.8446744073709552e+19" ∧ v.integer = 1 := by
  have hread : (Value.read "18446744073709551616").map (fun v => (v.text, v.integer)) =
      some ("1.8446744073709552e+19", 1) := by decide +kernel
  obtain ⟨v, hv, hforms⟩ := Option.map_eq_some_iff.mp hread
  obtain ⟨htext, hinteger⟩ := Prod.mk.inj hforms
  let l : Json.IntegerLiteral :=
    ⟨false, "18446744073709551616".toList, by simp, by simp, by simp⟩
  exact ⟨⟨l, rfl⟩, by decide +kernel, v, parseArguments_eq_ok_iff.mpr (.cons hv .nil), htext,
    hinteger⟩

end ScriptBuiltins
