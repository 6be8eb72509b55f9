import ScriptBuiltins.Proofs.Integer.Digits
import ScriptBuiltins.Proofs.Text.Blank

set_option autoImplicit false

namespace ScriptBuiltins

namespace Integer

/-- There is one sign at most, a sign that is there is taken, and so are all the digits that
follow. -/
structure Numeral where
  before : List Char
  sign : List Char
  digits : List Char
  after : List Char
  behind : List Char
  blank_before : ∀ c ∈ before, Text.isBlank c = true
  trimmed : Text.Trimmed (sign ++ digits ++ after)
  blank_behind : ∀ c ∈ behind, Text.isBlank c = true
  sign_cases : sign = [] ∨ sign = ['+'] ∨ sign = ['-']
  no_sign : sign = [] → ∀ c ∈ (digits ++ after).head?, c ≠ '+' ∧ c ≠ '-'
  isDigit_digits : ∀ c ∈ digits, c.isDigit = true
  isDigit_after : ∀ c ∈ after.head?, c.isDigit = false

namespace Numeral

def text (n : Numeral) : String :=
  String.ofList (n.before ++ (n.sign ++ n.digits ++ n.after) ++ n.behind)

def value (n : Numeral) : Int :=
  if n.sign = ['-'] then -(Nat.ofDigitChars 10 n.digits 0 : Int)
  else Nat.ofDigitChars 10 n.digits 0

end Numeral

theorem exists_sign (cs : List Char) :
    ∃ sign rest, cs = sign ++ rest ∧ (sign = [] ∨ sign = ['+'] ∨ sign = ['-']) ∧
      (sign = [] → ∀ c ∈ rest.head?, c ≠ '+' ∧ c ≠ '-') := by
  by_cases hsign : ∃ c ∈ cs.head?, c = '+' ∨ c = '-'
  · obtain ⟨c, hc, hsign⟩ := hsign
    obtain ⟨rest, rfl⟩ := List.head?_eq_some_iff.mp hc
    exact ⟨[c], rest, rfl, by simpa using hsign, by simp⟩
  · refine ⟨[], cs, rfl, .inl rfl, fun _ c hc => ?_⟩
    exact ⟨fun h => hsign ⟨c, hc, .inl h⟩, fun h => hsign ⟨c, hc, .inr h⟩⟩

theorem exists_numeral (s : String) : ∃ n : Numeral, n.text = s := by
  obtain ⟨before, behind, htext, hbefore, hbehind⟩ := Text.exists_trim s.toList
  obtain ⟨sign, rest, hcore, hsign, hnosign⟩ := exists_sign (Text.trim s.toList)
  have hrest : rest.takeWhile Char.isDigit ++ rest.dropWhile Char.isDigit = rest :=
    List.takeWhile_append_dropWhile
  have hparts : sign ++ rest.takeWhile Char.isDigit ++ rest.dropWhile Char.isDigit =
      Text.trim s.toList := by
    rw [List.append_assoc, hrest, hcore]
  refine ⟨⟨before, sign, rest.takeWhile Char.isDigit, rest.dropWhile Char.isDigit, behind,
    hbefore, hparts ▸ Text.trimmed_trim _, hbehind, hsign, ?_, ?_, ?_⟩, ?_⟩
  · rwa [hrest]
  · exact fun c hc => List.mem_takeWhile_imp hc
  · intro c hc
    have hnot := List.head?_dropWhile_not Char.isDigit rest
    rwa [hc] at hnot
  · change String.ofList (before ++ (sign ++ _ ++ _) ++ behind) = s
    rw [hparts, ← htext, String.ofList_toList]

namespace Numeral

variable (n : Numeral)

theorem trim_text : Text.trim n.text.toList = n.sign ++ n.digits ++ n.after := by
  rw [text, String.toList_ofList, Text.trim_eq n.blank_before n.trimmed n.blank_behind]

theorem splitSign_eq :
    splitSign (n.sign ++ n.digits ++ n.after) = (n.sign == ['-'], n.digits ++ n.after) := by
  rw [List.append_assoc]
  obtain h | h | h := n.sign_cases
  · have hno := n.no_sign h
    rw [h, List.nil_append]
    unfold splitSign
    split
    · next hhead => exact absurd rfl (hno '-' (by rw [hhead]; rfl)).2
    · next hhead => exact absurd rfl (hno '+' (by rw [hhead]; rfl)).1
    · rfl
  · rw [h]
    rfl
  · rw [h]
    rfl

theorem takeWhile_digits : (n.digits ++ n.after).takeWhile Char.isDigit = n.digits := by
  rw [List.takeWhile_append_of_pos n.isDigit_digits]
  cases hafter : n.after with
  | nil => rw [List.takeWhile_nil, List.append_nil]
  | cons c after =>
    have hc : c.isDigit = false := n.isDigit_after c (by rw [hafter]; rfl)
    rw [List.takeWhile_cons_of_neg (by simp [hc]), List.append_nil]

theorem ofText_text : ofText n.text = clamp n.value := by
  rw [ofText, n.trim_text, n.splitSign_eq]
  dsimp only
  rw [n.takeWhile_digits, ofDigits_eq, value]
  by_cases h : n.sign = ['-'] <;> simp [signed, h]

end Numeral

theorem trimmed_signed (negative : Prop) [Decidable negative] {digits after : List Char}
    (hdigits : ∀ c ∈ digits, c.isDigit = true) (hafter : ∀ c ∈ after, Text.isBlank c = false) :
    Text.Trimmed ((if negative then ['-'] else []) ++ digits ++ after) := by
  have hsign : ∀ c ∈ if negative then ['-'] else [], Text.isBlank c = false := by
    split_ifs
    · exact List.forall_mem_singleton.mpr rfl
    · exact List.forall_mem_nil _
  refine Text.trimmed_of_forall (List.forall_mem_append.mpr
    ⟨List.forall_mem_append.mpr ⟨hsign, fun c hc => ?_⟩, hafter⟩)
  exact Text.isBlank_of_isDigit (hdigits c hc)

theorem no_sign_of_isDigit {digits : List Char} (hne : digits ≠ [])
    (hdigits : ∀ c ∈ digits, c.isDigit = true) (after : List Char) :
    ∀ c ∈ (digits ++ after).head?, c ≠ '+' ∧ c ≠ '-' := by
  intro c hc
  rw [List.head?_append_of_ne_nil _ hne] at hc
  have hdigit := hdigits c (List.mem_of_mem_head? hc)
  constructor <;> rintro rfl <;> contradiction

theorem isDigit_head?_nil : ∀ c ∈ ([] : List Char).head?, c.isDigit = false := by
  simp

/-- A text without blanks by its sign, its digits and what comes after them. -/
structure LeadingDigits where
  negative : Bool
  digits : List Char
  after : List Char
  digits_ne_nil : digits ≠ []
  isDigit_digits : ∀ c ∈ digits, c.isDigit = true
  isDigit_after : ∀ c ∈ after.head?, c.isDigit = false
  isBlank_after : ∀ c ∈ after, Text.isBlank c = false

namespace LeadingDigits

variable (d : LeadingDigits)

def text : String := String.ofList ((if d.negative then ['-'] else []) ++ d.digits ++ d.after)

def toNumeral : Numeral where
  before := []
  sign := if d.negative then ['-'] else []
  digits := d.digits
  after := d.after
  behind := []
  blank_before := List.forall_mem_nil _
  trimmed := trimmed_signed (d.negative = true) d.isDigit_digits d.isBlank_after
  blank_behind := List.forall_mem_nil _
  sign_cases := by split_ifs <;> simp
  no_sign := fun _ => no_sign_of_isDigit d.digits_ne_nil d.isDigit_digits d.after
  isDigit_digits := d.isDigit_digits
  isDigit_after := d.isDigit_after

theorem text_toNumeral : d.toNumeral.text = d.text := by
  simp only [Numeral.text, toNumeral, text, List.nil_append, List.append_nil]

theorem ofText_text :
    ofText d.text = clamp (signed d.negative (Nat.ofDigitChars 10 d.digits 0)) := by
  have hvalue : d.toNumeral.value = signed d.negative (Nat.ofDigitChars 10 d.digits 0) := by
    simp only [toNumeral, Numeral.value, signed]
    by_cases hnegative : d.negative = true <;> simp [hnegative]
  rw [← d.text_toNumeral, d.toNumeral.ofText_text, hvalue]

end LeadingDigits

theorem isDigit_of_mem_toDigits {n : Nat} {c : Char} (h : c ∈ Nat.toDigits 10 n) :
    c.isDigit = true :=
  Nat.isDigit_of_mem_toDigits (by decide) (by decide) h

def Numeral.ofInt (n : Int) : Numeral where
  before := []
  sign := if n < 0 then ['-'] else []
  digits := Nat.toDigits 10 n.natAbs
  after := []
  behind := []
  blank_before := List.forall_mem_nil _
  trimmed := trimmed_signed (n < 0) (fun _ hc => isDigit_of_mem_toDigits hc)
    (List.forall_mem_nil _)
  blank_behind := List.forall_mem_nil _
  sign_cases := by split_ifs <;> simp
  no_sign := fun _ => no_sign_of_isDigit Nat.toDigits_ne_nil
    (fun _ hc => isDigit_of_mem_toDigits hc) []
  isDigit_digits := fun _ hc => isDigit_of_mem_toDigits hc
  isDigit_after := isDigit_head?_nil

theorem Numeral.text_ofInt (n : Int) : (Numeral.ofInt n).text = toString n := by
  have hlist : (toString n).toList = (if n < 0 then ['-'] else []) ++ Nat.toDigits 10 n.natAbs := by
    rw [Int.toString_eq_repr, Int.repr_eq_if]
    by_cases hneg : n < 0
    · have habs : (-n).toNat = n.natAbs := by omega
      rw [if_neg (by omega), if_pos hneg, habs, String.toList_append, Nat.toList_repr]
      rfl
    · have habs : n.toNat = n.natAbs := by omega
      rw [if_pos (by omega), if_neg hneg, habs, Nat.toList_repr]
      rfl
  rw [← String.ofList_toList (s := toString n), hlist]
  simp only [text, ofInt, List.nil_append, List.append_nil]

theorem Numeral.value_ofInt (n : Int) : (Numeral.ofInt n).value = n := by
  simp only [value, ofInt, Nat.ofDigitChars_ten_toDigits]
  by_cases hneg : n < 0
  · rw [if_pos hneg, if_pos rfl]
    omega
  · rw [if_neg hneg, if_neg (by simp)]
    omega

theorem ofText_toString_int (n : Int) : ofText (toString n) = clamp n := by
  rw [← Numeral.text_ofInt, Numeral.ofText_text, Numeral.value_ofInt]

theorem ofText_toString (n : Nat) : ofText (toString n) = min (n : Int) greatest := by
  have hclamp : ofText (toString n) = clamp n := ofText_toString_int n
  simp only [hclamp, clamp, least, greatest]
  omega

end Integer

/-- A text is read as the number at its front, brought once within the bounds, and no digit on the
way is read otherwise. What comes after the digits does not matter. -/
theorem Value.integer_scalar (s : String) :
    (∃ n : Integer.Numeral, n.text = s) ∧
    (∀ n : Integer.Numeral, n.text = s →
      (scalar s).integer = max (-9223372036854775808) (min 9223372036854775807 n.value)) ∧
    (∀ m n : Integer.Numeral, m.sign = n.sign → m.digits = n.digits →
      (scalar m.text).integer = (scalar n.text).integer) ∧
    ∀ (negative : Bool) (digits : List Char), Integer.ofDigits negative digits =
      max (-9223372036854775808) (min 9223372036854775807
        (Integer.signed negative (Nat.ofDigitChars 10 digits 0))) := by
  refine ⟨Integer.exists_numeral s, ?_, ?_, Integer.ofDigits_eq⟩
  · rintro n rfl
    exact n.ofText_text
  · intro m n hsign hdigits
    change Integer.ofText m.text = Integer.ofText n.text
    rw [m.ofText_text, n.ofText_text, Integer.Numeral.value, Integer.Numeral.value, hsign, hdigits]

/-- One below the lower bound, between blanks and letters. -/
example : (Value.scalar "\u2003 -0009223372036854775809e9 ").integer = -9223372036854775808 := by
  decide +kernel

end ScriptBuiltins
