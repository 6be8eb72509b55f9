import Mathlib.Data.List.DropRight
import ScriptBuiltins.Proofs.Dates.Composite

set_option autoImplicit false

namespace ScriptBuiltins

namespace DateFormat

/-- The number that a field shows: its digits, negative if there is a minus sign. What the field is
filled up with does not count. -/
def shownNumber (s : String) : Int :=
  let n := Nat.ofDigitChars 10 (s.toList.filter Char.isDigit) 0
  if '-' ∈ s.toList then -n else n

def lastWord (s : String) : String := String.ofList (s.toList.rtakeWhile fun c => c != ' ')

section
variable {fill : Char} (hfill : fill = ' ' ∨ fill = '0')
include hfill

theorem ofDigitChars_filter_leftpad (width n : Nat) :
    Nat.ofDigitChars 10 (((digits n).leftpad width fill).filter Char.isDigit) 0 = n := by
  have hdigits : (digits n).filter Char.isDigit = digits n :=
    List.filter_eq_self.mpr fun _ hc => Integer.isDigit_of_mem_toDigits hc
  rw [List.leftpad, List.filter_append, hdigits, List.filter_replicate]
  obtain rfl | rfl := hfill
  · exact Nat.ofDigitChars_ten_toDigits
  · exact ofDigitChars_padded width n

theorem minus_notMem_leftpad (width n : Nat) :
    '-' ∉ (digits n).leftpad width fill := by
  intro h
  rw [List.leftpad, List.mem_append] at h
  obtain h | h := h
  · have := List.eq_of_mem_replicate h
    obtain rfl | rfl := hfill <;> contradiction
  · have := Integer.isDigit_of_mem_toDigits h
    contradiction

theorem shownNumber_leftpad (width : Nat) (n : Int) :
    shownNumber (String.ofList
      ((if n < 0 then ['-'] else []) ++ (digits n.natAbs).leftpad width fill)) = n := by
  have hvalue := ofDigitChars_filter_leftpad hfill width n.natAbs
  have hminus := minus_notMem_leftpad hfill width n.natAbs
  have hsign : ['-'].filter Char.isDigit = [] := rfl
  rw [shownNumber, String.toList_ofList]
  split_ifs with hneg hmem hmem
  · rw [List.filter_append, hsign, List.nil_append, hvalue]
    omega
  · exact absurd (List.mem_append_left _ (List.mem_singleton_self '-')) hmem
  · exact absurd hmem hminus
  · rw [List.nil_append, hvalue]
    omega

theorem shownNumber_column (width : Nat) (n : Int) :
    shownNumber (String.ofList (column width fill n)) = n :=
  shownNumber_leftpad hfill width n

end

theorem shownNumber_zeroPadded (width : Nat) (n : Int) :
    shownNumber (String.ofList (zeroPadded width n)) = n := by
  have hpadded : ∃ w, zeroPadded width n =
      (if n < 0 then ['-'] else []) ++ (digits n.natAbs).leftpad w '0' := by
    unfold zeroPadded
    split_ifs
    · exact ⟨width - 1, rfl⟩
    · exact ⟨width, rfl⟩
  obtain ⟨w, hw⟩ := hpadded
  rw [hw]
  exact shownNumber_leftpad (.inr rfl) w n

theorem leftpad_eq_self_iff {width : Nat} (hwidth : 0 < width) (n : Nat) :
    (digits n).leftpad (width + 1) '0' = digits n ↔ 10 ^ width ≤ n := by
  have hlength := Nat.length_toDigits_le_iff (b := 10) (n := n) (by decide) hwidth
  rw [List.leftpad, List.append_left_eq_self, List.replicate_eq_nil_iff, digits]
  omega

/-- The minus sign takes one of the four places. -/
theorem signed_eq_zeroPadded_iff (n : Int) :
    signed n = zeroPadded 4 n ↔ n ≤ -100 ∨ 1000 ≤ n := by
  unfold signed zeroPadded
  split_ifs with hneg
  · rw [List.singleton_append, List.cons_inj_right, eq_comm,
      leftpad_eq_self_iff (by decide : 0 < 2)]
    omega
  · rw [List.nil_append, eq_comm, leftpad_eq_self_iff (by decide : 0 < 3)]
    omega

theorem lastWord_of_append {before word : List Char} (h : ' ' ∉ word) :
    lastWord (String.ofList (before ++ ' ' :: word)) = String.ofList word := by
  have hword : ∀ c ∈ word.reverse, (c != ' ') = true := by
    intro c hc
    rw [bne_iff_ne]
    rintro rfl
    exact h (List.mem_reverse.mp hc)
  rw [lastWord, String.toList_ofList, List.rtakeWhile, List.reverse_append, List.reverse_cons,
    List.append_assoc, List.takeWhile_append_of_pos hword, List.singleton_append,
    List.takeWhile_cons_of_neg (by decide), List.append_nil, List.reverse_reverse]

theorem blank_notMem_signed (n : Int) : ' ' ∉ signed n := by
  intro h
  rw [signed, List.mem_append] at h
  obtain h | h := h
  · split_ifs at h <;> simp at h
  · have := Integer.isDigit_of_mem_toDigits h
    contradiction

theorem ofList_signed (n : Int) : String.ofList (signed n) = toString n := by
  rw [← Integer.Numeral.text_ofInt]
  simp [Integer.Numeral.text, Integer.Numeral.ofInt, signed, digits]

section

variable (t : CivilTime)

theorem lastWord_format_c : lastWord (format "c" t) = String.ofList (signed t.year) := by
  have hparts : ∃ before, expand t 'c' = before ++ ' ' :: signed t.year :=
    ⟨short (weekdayName t.weekday) ++ ' ' :: short (monthName t.month) ++ ' ' ::
      digits t.day.toNat ++ ' ' :: two t.hour ++ ':' :: two t.minute ++ ':' :: two t.second,
      by simp [expand]⟩
  obtain ⟨before, hbefore⟩ := hparts
  have hformat : format "c" t = String.ofList (expand t 'c') := format_singleton 'c' t
  rw [hformat, hbefore, lastWord_of_append (blank_notMem_signed _)]

theorem shownNumber_format_C : shownNumber (format "C" t) = century t.year := by
  have hformat : format "C" t = String.ofList (column 2 ' ' (century t.year)) :=
    format_singleton 'C' t
  rw [hformat, shownNumber_column (.inl rfl) _ _]

theorem shownNumber_format_y : shownNumber (format "y" t) = t.year % 100 := by
  have hformat : format "y" t = String.ofList (zeroPadded 2 (t.year % 100)) :=
    format_singleton 'y' t
  rw [hformat, shownNumber_zeroPadded]

theorem format_Y : format "Y" t = String.ofList (zeroPadded 4 t.year) := format_singleton 'Y' t

end

/-- The century is rounded toward zero, and the digits behind it are counted from below. -/
theorem century_add (year : Int) :
    100 * century year + year % 100 =
      year + if 0 ≤ year ∨ 100 ∣ year then 0 else 100 := by
  rw [century, Int.tdiv_eq_ediv]
  split_ifs
  · omega
  · rw [Int.sign_eq_one_of_pos (by decide)]
    omega

/-- The century and the two digits make up the year from the year 0 on, and in the first year of a
century before it; otherwise they make up the year a hundred years later. A full date ends with the
year as it stands by itself where that fills four places without padding. -/
theorem year_agrees_iff (t : CivilTime) :
    let shown (letter : String) := shownNumber (format letter t)
    shown "Y" = t.year ∧
    (100 * shown "C" + shown "y" = shown "Y" ↔ 0 ≤ t.year ∨ 100 ∣ t.year) ∧
    (¬ (0 ≤ t.year ∨ 100 ∣ t.year) → 100 * shown "C" + shown "y" = shown "Y" + 100) ∧
    lastWord (format "c" t) = toString t.year ∧
    (lastWord (format "c" t) = format "Y" t ↔ t.year ≤ -100 ∨ 1000 ≤ t.year) := by
  intro shown
  have hY : shown "Y" = t.year := by
    change shownNumber (format "Y" t) = _
    rw [format_Y, shownNumber_zeroPadded]
  have hsum : 100 * shown "C" + shown "y" =
      shown "Y" + if 0 ≤ t.year ∨ 100 ∣ t.year then 0 else 100 := by
    change 100 * shownNumber (format "C" t) + shownNumber (format "y" t) = _
    rw [shownNumber_format_C, shownNumber_format_y, century_add, hY]
  refine ⟨hY, ?_, ?_, ?_, ?_⟩
  · rw [hsum]
    split_ifs with h <;> simp [h]
  · intro h
    rw [hsum, if_neg h]
  · rw [lastWord_format_c, ofList_signed]
  · rw [lastWord_format_c, format_Y, String.ofList_inj, signed_eq_zeroPadded_iff]

end DateFormat

namespace Moment

/-- The year 5 is not filled up, and the year -5 is made up of the century 0 and of 95. -/
theorem early_years_disagree :
    let m : Moment := ⟨⟨-62009366400, by decide⟩, .utc, by decide⟩
    let m' : Moment := ⟨⟨-62324985600, by decide⟩, .utc, by decide⟩
    let shown (letter : String) := DateFormat.shownNumber (DateFormat.format letter m'.civilTime)
    ofSeconds (-62009366400) .utc = .ok m ∧ ofSeconds (-62324985600) .utc = .ok m' ∧
      DateFormat.format "c|Y" m.civilTime = "Sat Jan 1 00:00:00 5|0005" ∧
      DateFormat.lastWord (DateFormat.format "c" m.civilTime) ≠
        DateFormat.format "Y" m.civilTime ∧
      DateFormat.format "C|y|Y" m'.civilTime = " 0|95|-005" ∧
      100 * shown "C" + shown "y" ≠ shown "Y" := by
  intro m m' shown
  refine ⟨rfl, rfl, ?_, ?_, ?_, ?_⟩
  · decide +kernel
  · decide +kernel
  · decide +kernel
  · decide +kernel

end Moment

end ScriptBuiltins
