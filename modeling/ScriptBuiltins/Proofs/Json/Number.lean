import ScriptBuiltins.Proofs.Integer.Numeral
import ScriptBuiltins.Proofs.Json.RoundTrip

set_option autoImplicit false

namespace ScriptBuiltins

namespace Json

/-- Digits without a zero in front, and a minus sign before them or none. -/
structure IntegerLiteral where
  negative : Bool
  digits : List Char
  digits_ne_nil : digits ≠ []
  isDigit_digits : ∀ c ∈ digits, c.isDigit = true
  no_leading_zero : 1 < digits.length → digits.head? ≠ some '0'

namespace IntegerLiteral

def chars (l : IntegerLiteral) : List Char := (if l.negative then ['-'] else []) ++ l.digits

def text (l : IntegerLiteral) : String := String.ofList l.chars

def size (l : IntegerLiteral) : Nat := Nat.ofDigitChars 10 l.digits 0

def value (l : IntegerLiteral) : Int := Integer.signed l.negative l.size

def FitsWord (l : IntegerLiteral) : Prop :=
  -9223372036854775808 ≤ l.value ∧ l.value ≤ 18446744073709551615

def lexeme (l : IntegerLiteral) : Number.Lexeme := ⟨l.negative, l.digits, [], none⟩

theorem ofChars?_chars (l : IntegerLiteral) : Number.Lexeme.ofChars? l.chars = some l.lexeme := by
  have htake : l.digits.takeWhile Char.isDigit = l.digits :=
    List.takeWhile_eq_self_iff.mpr l.isDigit_digits
  have hdrop : l.digits.dropWhile Char.isDigit = [] :=
    List.dropWhile_eq_nil_iff.mpr l.isDigit_digits
  have hzero : (l.digits.isEmpty || (decide (l.digits.length > 1) && l.digits.head? == some '0')) =
      false := by
    simpa [l.digits_ne_nil] using l.no_leading_zero
  -- Below, `simp` finds in this that the case for a sign is not taken.
  have hsign : ∀ rest, l.digits = '-' :: rest → False := by
    intro rest hrest
    have := l.isDigit_digits '-' (hrest ▸ List.mem_cons_self)
    contradiction
  cases hneg : l.negative with
  | true =>
    simp [Number.Lexeme.ofChars?, Number.exponent?, Number.digits, chars, lexeme, hneg, htake,
      hdrop, hzero]
  | false =>
    simp [Number.Lexeme.ofChars?, Number.exponent?, Number.digits, chars, lexeme, hneg, htake,
      hdrop, hzero]

theorem integer?_lexeme (l : IntegerLiteral) :
    l.lexeme.integer? =
      if l.negative then if 0 < l.size ∧ l.size ≤ 1 <<< 63 then some (-l.size : Int) else none
      else if l.size ≤ Number.greatestWord then some (l.size : Int)
      else none :=
  rfl

/-- Within 64 bits an integer is read as it is; the negative zero is not an integer. -/
theorem integer?_of_fitsWord {l : IntegerLiteral} (h : l.FitsWord)
    (hzero : l.negative = true → 0 < l.size) : l.lexeme.integer? = some l.value := by
  obtain ⟨hleast, hgreatest⟩ := h
  rw [integer?_lexeme]
  unfold value Integer.signed at *
  cases hneg : l.negative with
  | true =>
    have := hzero hneg
    simp only [hneg, if_true] at hleast hgreatest ⊢
    rw [if_pos (by omega)]
  | false =>
    simp only [hneg, Bool.false_eq_true, if_false] at hleast hgreatest ⊢
    rw [if_pos (by simp only [Number.greatestWord, UInt64.size]; omega)]

theorem integer?_of_not_fitsWord {l : IntegerLiteral} (h : ¬ l.FitsWord) :
    l.lexeme.integer? = none := by
  rw [integer?_lexeme]
  unfold FitsWord value Integer.signed at h
  cases hneg : l.negative with
  | true =>
    simp only [hneg, if_true] at h ⊢
    rw [if_neg (by omega)]
  | false =>
    simp only [hneg, Bool.false_eq_true, if_false] at h ⊢
    rw [if_neg (by simp only [Number.greatestWord, UInt64.size]; omega)]

theorem ofChars?_of_fitsWord {l : IntegerLiteral} (h : l.FitsWord)
    (hzero : l.negative = true → 0 < l.size) :
    Number.ofChars? l.chars = some (.integer l.value) := by
  rw [Number.ofChars?, l.ofChars?_chars]
  simp [integer?_of_fitsWord h hzero]

/-- Beyond 64 bits an integer is read as a double, if at all. -/
theorem ofChars?_of_not_fitsWord {l : IntegerLiteral} (h : ¬ l.FitsWord) :
    Number.ofChars? l.chars =
      l.lexeme.double?.map fun x => .double (if l.negative then -x else x) := by
  rw [Number.ofChars?, l.ofChars?_chars, Option.bind_eq_bind, Option.bind_some,
    integer?_of_not_fitsWord h]
  cases l.lexeme.double? <;> rfl

end IntegerLiteral

namespace Reader

theorem isNumberChar_of_isDigit {c : Char} (h : c.isDigit = true) : isNumberChar c = true := by
  simp [isNumberChar, h]

theorem run_numberChars {limit : Nat} {cs : List Char} (h : ∀ c ∈ cs, isNumberChar c = true)
    (stack : List Frame) (seen : List Char) :
    run limit ⟨stack, .number seen⟩ cs = some ⟨stack, .number (cs.reverse ++ seen)⟩ := by
  induction cs generalizing seen with
  | nil => rfl
  | cons c cs ih =>
    have hstep : step limit ⟨stack, .number seen⟩ c = some ⟨stack, .number (c :: seen)⟩ :=
      if_pos (h c List.mem_cons_self)
    rw [run_cons hstep, ih (fun d hd => h d (List.mem_cons_of_mem c hd)), List.reverse_cons,
      List.append_assoc, List.singleton_append]

/-- A text that begins like a number and goes on like one is read as a number or not at all. -/
theorem readChars_number {limit : Nat} {c : Char} {cs : List Char}
    (hfirst : c = '-' ∨ c.isDigit = true) (h : ∀ d ∈ cs, isNumberChar d = true) :
    readChars limit (c :: cs) = (Number.ofChars? (c :: cs)).map .number := by
  have hspace : ¬ isSpace c = true := by
    intro hspace
    simp only [isSpace, Bool.or_eq_true, beq_iff_eq] at hspace
    obtain ((rfl | rfl) | rfl) | rfl := hspace <;> revert hfirst <;> decide
  have hstep : step limit start c = some ⟨[], .number [c]⟩ := by
    change beginValue limit [] false c = _
    unfold beginValue
    rw [if_neg hspace, if_pos hfirst]
  change (run limit start (c :: cs)).bind finish = _
  rw [run_cons hstep, run_numberChars h]
  change (Number.ofChars? (cs.reverse ++ [c]).reverse).map _ = _
  rw [List.reverse_append, List.reverse_reverse, List.reverse_singleton, List.singleton_append]

end Reader

end Json

namespace Number

structure DecimalParts (digits after : List Char) : Prop where
  digits_ne_nil : digits ≠ []
  isDigit_digits : ∀ c ∈ digits, c.isDigit = true
  length_digits : digits.length ≤ 16
  isDigit_after : ∀ c ∈ after.head?, c.isDigit = false
  isBlank_after : ∀ c ∈ after, Text.isBlank c = false

theorem isDigit_zeros (n : Nat) : ∀ c ∈ List.replicate n '0', c.isDigit = true :=
  List.forall_mem_replicate.mpr (.inr rfl)

theorem isBlank_point {ds : List Char} (h : ∀ c ∈ ds, c.isDigit = true) :
    ∀ c ∈ '.' :: ds, Text.isBlank c = false :=
  List.forall_mem_cons.mpr ⟨rfl, fun c hc => Text.isBlank_of_isDigit (h c hc)⟩

theorem decimalParts_point {whole fraction : List Char} (hne : whole ≠ [])
    (hwhole : ∀ c ∈ whole, c.isDigit = true) (hlength : whole.length ≤ 16)
    (hfraction : ∀ c ∈ fraction, c.isDigit = true) :
    DecimalParts whole ('.' :: fraction) where
  digits_ne_nil := hne
  isDigit_digits := hwhole
  length_digits := hlength
  isDigit_after := by simp
  isBlank_after := isBlank_point hfraction

theorem decimalParts_exponent {ds exponent : List Char} (hne : ds ≠ [])
    (hdigit : ∀ c ∈ ds, c.isDigit = true) (negative : Prop) [Decidable negative]
    (hexponent : ∀ c ∈ exponent, c.isDigit = true) :
    DecimalParts (ds.take 1) ((if (ds.drop 1).isEmpty then [] else '.' :: ds.drop 1) ++
      'e' :: (if negative then '-' else '+') :: exponent) where
  digits_ne_nil := by simp [hne]
  isDigit_digits := fun c hc => hdigit c (List.mem_of_mem_take hc)
  length_digits := by
    rw [List.length_take]
    omega
  isDigit_after := by split_ifs <;> simp
  isBlank_after := by
    intro c hc
    rw [List.mem_append, List.mem_cons, List.mem_cons] at hc
    obtain hpoint | rfl | hsign | hc := hc
    · split_ifs at hpoint
      · cases hpoint
      · exact isBlank_point (fun c hc => hdigit c (List.mem_of_mem_drop hc)) c hpoint
    · rfl
    · rw [hsign]
      split_ifs <;> rfl
    · exact Text.isBlank_of_isDigit (hexponent c hc)

theorem exists_decimalParts (d : Decimal) :
    ∃ digits after, decimalText d = String.ofList (digits ++ after) ∧
      DecimalParts digits after := by
  have hne : Nat.toDigits 10 d.coefficient ≠ [] := Nat.toDigits_ne_nil
  have hdigit : ∀ c ∈ Nat.toDigits 10 d.coefficient, c.isDigit = true := fun c hc =>
    Integer.isDigit_of_mem_toDigits hc
  unfold decimalText
  dsimp only
  generalize Nat.toDigits 10 d.coefficient = ds at *
  by_cases hplain : -5 ≤ d.exponent + ds.length - 1 ∧ d.exponent + ds.length - 1 ≤ 15
  · rw [if_pos hplain]
    by_cases hwhole : 0 ≤ d.exponent
    · have hlength : (ds ++ List.replicate d.exponent.toNat '0').length ≤ 16 := by
        rw [List.length_append, List.length_replicate]
        omega
      rw [if_pos hwhole]
      exact ⟨_, _, rfl, decimalParts_point (List.append_ne_nil_of_left_ne_nil hne _)
        (List.forall_mem_append.mpr ⟨hdigit, isDigit_zeros _⟩) hlength (isDigit_zeros 1)⟩
    · rw [if_neg hwhole]
      by_cases hpoint : 0 ≤ d.exponent + ds.length - 1
      · generalize hn : (d.exponent + ds.length - 1).toNat + 1 = n
        have hlength : (ds.take n).length ≤ 16 := by
          rw [List.length_take]
          omega
        rw [if_pos hpoint]
        exact ⟨_, _, rfl, decimalParts_point (by simp [hne, ← hn])
          (fun c hc => hdigit c (List.mem_of_mem_take hc)) hlength
          (fun c hc => hdigit c (List.mem_of_mem_drop hc))⟩
      · rw [if_neg hpoint]
        exact ⟨['0'], _, rfl, decimalParts_point (List.cons_ne_nil _ _) (isDigit_zeros 1)
          (by decide) (List.forall_mem_append.mpr ⟨isDigit_zeros _, hdigit⟩)⟩
  · rw [if_neg hplain, List.append_assoc]
    exact ⟨_, _, rfl, decimalParts_exponent hne hdigit _ fun c hc =>
      Integer.isDigit_of_mem_toDigits hc⟩

theorem exists_leadingDigits (x : Float) :
    ∃ l : Integer.LeadingDigits, doubleText x = l.text ∧ l.digits.length ≤ 16 := by
  have hsign : ∀ (negative : Prop) [Decidable negative] (cs : List Char),
      (if negative then "-" else "") ++ String.ofList cs =
        String.ofList ((if decide negative = true then ['-'] else []) ++ cs) := by
    intro negative _ cs
    rw [String.ofList_append]
    by_cases h : negative <;> simp [h]
  have hparts : ∃ digits after, (if (Binary.ofBits x.toBits.toNat).mantissa = 0 then "0.0" else
      decimalText (Binary.ofBits x.toBits.toNat).shortest) = String.ofList (digits ++ after) ∧
      DecimalParts digits after := by
    split_ifs
    · exact ⟨['0'], ['.', '0'], rfl, decimalParts_point (List.cons_ne_nil _ _) (isDigit_zeros 1)
        (by decide) (isDigit_zeros 1)⟩
    · exact exists_decimalParts _
  obtain ⟨digits, after, htext, h⟩ := hparts
  refine ⟨⟨1 <<< 63 ≤ x.toBits.toNat, digits, after, h.digits_ne_nil, h.isDigit_digits,
    h.isDigit_after, h.isBlank_after⟩, ?_, h.length_digits⟩
  unfold doubleText Integer.LeadingDigits.text
  dsimp only
  rw [htext, hsign, List.append_assoc]

/-- The text of a double begins with a number of sixteen digits at most. -/
theorem natAbs_ofText_doubleText_lt (x : Float) :
    (Integer.ofText (doubleText x)).natAbs < 10 ^ 16 := by
  obtain ⟨l, htext, hlength⟩ := exists_leadingDigits x
  have hlt : Nat.ofDigitChars 10 l.digits 0 < 10 ^ 16 :=
    Nat.lt_of_lt_of_le (Integer.ofDigitChars_lt l.isDigit_digits)
      (Nat.pow_le_pow_right (by decide) hlength)
  rw [htext, l.ofText_text, Integer.signed, Integer.clamp, Integer.least, Integer.greatest]
  split_ifs <;> omega

end Number

end ScriptBuiltins
