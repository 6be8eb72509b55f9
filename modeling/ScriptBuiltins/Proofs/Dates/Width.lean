import ScriptBuiltins.Proofs.Dates.Composite
import ScriptBuiltins.Proofs.Dates.Offset

set_option autoImplicit false

namespace ScriptBuiltins

namespace DateFormat

/-- Names in full, full dates and seconds since the epoch have no width of their own, and those that
show a century or a year have it in the years 0 to 9999. -/
def width : Char → Nat
  | 'n' | 't' | 'u' | 'w' => 1
  | 'a' | 'b' | 'h' | 'j' => 3
  | 'd' | 'e' | 'H' | 'I' | 'k' | 'l' | 'm' | 'M' | 'p' | 'P' | 'S' | 'V' | 'W' | 'y' => 2
  | 'R' | 'z' => 5
  | 'D' | 'T' => 8
  | 'r' => 11
  | 'C' => 2
  | 'Y' => 4
  | 'F' => 10
  | _ => 1

structure Fits (t : CivilTime) : Prop extends TwoDigits t where
  dayOfYear_lt : t.dayOfYear.toNat < 10 ^ 3
  weekday_lt : t.weekday.toNat < 10 ^ 1
  week_lt : t.week.toNat < 10 ^ 2

theorem fits_ofClocks (here utc : Int) : Fits (.ofClocks here utc) := by
  have h := CivilTime.reads_ofClocks here utc
  have hday : (CivilTime.ofClocks here utc).dayOfYear.toNat ≤ 366 := h.date.dayOfYear_le
  have hweekday : (CivilTime.ofClocks here utc).weekday.toNat ≤ 7 := h.date.weekday_le
  have hweek : (CivilTime.ofClocks here utc).week.toNat ≤ 53 := h.date.week_le
  exact ⟨twoDigits_ofClocks here utc, by omega, by omega, by omega⟩

theorem length_column {width n : Nat} (hwidth : 0 < width) (h : n < 10 ^ width) (fill : Char) :
    (column width fill n).length = width := by
  have hlength := length_padded hwidth h
  rw [padded, List.length_leftpad] at hlength
  rw [column_natCast, List.length_leftpad, hlength]

theorem length_two {n : UInt8} (h : n.toNat < 10 ^ 2) : (two n).length = 2 :=
  length_padded (by decide) h

theorem length_digits_of_lt {n : Nat} (h : n < 10) : (digits n).length = 1 := by
  rw [digits, Nat.toDigits_of_lt_base h, List.length_singleton]

theorem length_weekday (weekday : UInt8) : (short (weekdayName weekday)).length = 3 := by
  unfold weekdayName
  split <;> rfl

theorem length_month (month : UInt8) : (short (monthName month)).length = 3 := by
  unfold monthName
  split <;> rfl

theorem length_meridiem (hour : UInt8) : (meridiem hour).length = 2 := by
  unfold meridiem
  split_ifs <;> rfl

theorem hour12_lt (hour : UInt8) : (hour12 hour).toNat < 10 ^ 2 := by
  have h : ((hour + 11) % 12).toNat < 12 := by
    rw [UInt8.toNat_mod]
    exact Nat.mod_lt _ (by decide)
  rw [hour12, UInt8.toNat_add]
  change (((hour + 11) % 12).toNat + 1) % 256 < 100
  omega

theorem length_zeroPadded {width : Nat} {n : Int} (hwidth : 0 < width) (h : 0 ≤ n)
    (hlt : n.natAbs < 10 ^ width) : (zeroPadded width n).length = width := by
  rw [zeroPadded_of_nonneg h, length_padded hwidth hlt]

theorem length_yearOfCentury (year : Int) : (yearOfCentury year).length = 2 :=
  length_zeroPadded (by decide) (by omega) (by omega)

theorem length_offsetText (t : CivilTime) : (offsetText t).length = 5 := by
  have hbounds := offsetNumber_bounds t
  have hnumber : (offsetNumber t).natAbs < 10 ^ 4 := by omega
  exact congrArg Nat.succ (length_padded (by decide) hnumber)

def yearLetters : List Char := ['C', 'Y', 'F']

/-- The letters that have no width even in the years 0 to 9999. -/
def varyingLetters : List Char := ['A', 'B', 'c', 's']

section

variable {t : CivilTime} {c : Char}

theorem length_expand (h : Fits t) (hvarying : c ∉ varyingLetters) (hyear : c ∉ yearLetters) :
    (expand t c).length = width c := by
  obtain ⟨⟨hmonth, hday, hhour, hminute, hsecond⟩, hdayOfYear, hweekday, hweek⟩ := h
  have hhour12 := hour12_lt t.hour
  simp only [varyingLetters, yearLetters, List.mem_cons, List.not_mem_nil, or_false, not_or]
    at hvarying hyear
  obtain ⟨hA, hB, hc, hs⟩ := hvarying
  obtain ⟨hC, hY, hF⟩ := hyear
  -- One case per directive; those that vary are excluded, and the last is any other character.
  unfold expand
  split
  all_goals try contradiction
  pick_goal -1
  · unfold width
    split
    all_goals first | contradiction | rfl
  all_goals
    simp (disch := omega) only [width, List.length_append, List.length_cons, List.length_nil,
      List.length_map, length_two, length_column, length_weekday, length_month, length_meridiem,
      length_yearOfCentury, length_offsetText, length_digits_of_lt]

theorem length_expand_year (h : Fits t) (hyears : 0 ≤ t.year ∧ t.year ≤ 9999)
    (hyear : c ∈ yearLetters) : (expand t c).length = width c := by
  have hY : (zeroPadded 4 t.year).length = 4 :=
    length_zeroPadded (by decide) hyears.1 (by omega)
  rw [yearLetters, List.mem_cons, List.mem_cons, List.mem_singleton] at hyear
  obtain rfl | rfl | rfl := hyear
  · have hcentury : century t.year = (t.year.toNat / 100 : Nat) := by
      rw [century, Int.tdiv_eq_ediv_of_nonneg hyears.1]
      omega
    change (column 2 ' ' (century t.year)).length = 2
    rw [hcentury, length_column (by decide) (by omega)]
  · exact hY
  · change (zeroPadded 4 t.year ++ '-' :: two t.month ++ '-' :: two t.day).length = 10
    simp only [List.length_append, List.length_cons, hY, length_two h.month_lt,
      length_two h.day_lt]

theorem length_format (h : Fits t) {s : String} (hvarying : ∀ c ∈ s.toList, c ∉ varyingLetters)
    (hyear : (∀ c ∈ s.toList, c ∉ yearLetters) ∨ 0 ≤ t.year ∧ t.year ≤ 9999) :
    (format s t).length = (s.toList.map width).sum := by
  rw [← String.length_toList, toList_format, List.length_flatten, List.map_map]
  refine congrArg List.sum (List.map_congr_left fun c hc => ?_)
  by_cases hletter : c ∈ yearLetters
  · obtain hnone | hyears := hyear
    · exact absurd hletter (hnone c hc)
    · exact length_expand_year h hyears hletter
  · exact length_expand h (hvarying c hc) hletter

end

end DateFormat

namespace Moment

/-- A date takes as many characters as its format says, whatever the time and the offset, if no
directive of the format varies in its width. -/
theorem length_written (m : Moment) {s : String}
    (hvarying : ∀ c ∈ s.toList, c ∉ DateFormat.varyingLetters)
    (hyear : (∀ c ∈ s.toList, c ∉ DateFormat.yearLetters) ∨ 0 ≤ m.civilTime.year) :
    (DateFormat.format s m.civilTime).length = (s.toList.map DateFormat.width).sum := by
  have hfits : DateFormat.Fits m.civilTime :=
    DateFormat.fits_ofClocks m.localSeconds m.utc.seconds
  refine DateFormat.length_format hfits hvarying (hyear.imp_right fun hpos => ?_)
  exact ⟨hpos, m.year_bounds.2⟩

/-- The year 0 has begun on the local clock, though not on the UTC clock. -/
theorem length_written_year_zero :
    let offset : UtcOffset := ⟨50400, by decide, by decide⟩
    let m : Moment := ⟨⟨-62167219201, by decide⟩, offset, by decide⟩
    (∀ c ∈ "F r z|jC".toList, c ∉ DateFormat.varyingLetters) ∧ 0 ≤ m.civilTime.year ∧
      DateFormat.format "F r z|jC" m.civilTime = "0000-01-01 01:59:59 PM -1000|001 0" ∧
      (DateFormat.format "F r z|jC" m.civilTime).length = 34 := by
  intro offset m
  have hvarying : ∀ c ∈ "F r z|jC".toList, c ∉ DateFormat.varyingLetters := by
    simp [DateFormat.varyingLetters]
  have hpos : 0 ≤ m.civilTime.year := by decide
  refine ⟨hvarying, hpos, by decide +kernel, ?_⟩
  rw [length_written m hvarying (.inr hpos)]
  rfl

end Moment

end ScriptBuiltins
