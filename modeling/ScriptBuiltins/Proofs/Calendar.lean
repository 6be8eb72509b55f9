import Mathlib
import ScriptBuiltins.Calendar

set_option autoImplicit false

namespace ScriptBuiltins.Calendar

/-- The number of the first of January: 365 days for each year before it, and one more for each of
them that is a leap year. -/
def newYear (year : Int) : Int :=
  365 * (year - 1) + (year - 1) / 4 - (year - 1) / 100 + (year - 1) / 400

/-- The Monday of the week of the fourth of January. -/
def firstMonday (year : Int) : Int :=
  let fourth := newYear year + 3
  fourth - fourth % 7

structure Date.IsOf (date : Date) (day : Int) : Prop where
  month_pos : 1 ≤ date.month
  day_pos : 1 ≤ date.day
  day_le : ∃ length, (monthLengths date.year)[date.month - 1]? = some length ∧ date.day ≤ length
  dayOfYear_eq :
    date.dayOfYear = ((monthLengths date.year).take (date.month - 1)).sum + date.day
  day_eq : day + 1 = newYear date.year + date.dayOfYear
  weekday_pos : 1 ≤ date.weekday
  weekday_le : date.weekday ≤ 7
  /-- Day 0 is a Monday. -/
  weekday_eq : day % 7 + 1 = date.weekday
  week_pos : 1 ≤ date.week
  /-- The week is one of a year, that of the date or one beside it. -/
  week_eq : ∃ year, firstMonday year + 7 * date.week ≤ firstMonday (year + 1) ∧
    firstMonday year + 7 * date.week ≤ day + 7 ∧ day < firstMonday year + 7 * date.week

theorem isLeap_iff (year : Int) :
    isLeap year = true ↔ year % 4 = 0 ∧ (year % 100 ≠ 0 ∨ year % 400 = 0) := by
  simp [isLeap]

theorem newYear_add_one (year : Int) : newYear (year + 1) = newYear year + yearLength year := by
  have hleap := isLeap_iff year
  simp only [newYear, yearLength]
  split_ifs with h
  · have := hleap.mp h
    omega
  · have := mt hleap.mpr h
    omega

/-- The parts of a day number: cycles of 400 years, then centuries, then four years, then years. -/
theorem yearDay_parts (day : Int) :
    ∃ (cycle : Int) (century four year before : Nat),
      yearDay day = ⟨400 * cycle + 100 * century + 4 * four + year + 1, before⟩ ∧
      day = 146097 * cycle + 36524 * century + 1461 * four + 365 * year + before ∧
      century ≤ 3 ∧ four ≤ 24 ∧ year ≤ 3 ∧ before ≤ 365 ∧
      (before = 365 → year = 3 ∧ (four = 24 → century = 3)) := by
  -- The centuries and the years are cut off at 3, where the odd days at the end belong.
  generalize hr : (day % 146097).toNat = r
  have hday : day = 146097 * (day / 146097) + r := by omega
  have hr' : r < 146097 := by omega
  generalize hc : min (r / 36524) 3 = c
  generalize hi : r - c * 36524 = i
  generalize hf : i % 1461 = f
  generalize hy : min (f / 365) 3 = y
  refine ⟨day / 146097, c, i / 1461, y, f - y * 365, ?_, ?_, ?_, ?_, ?_, ?_, ?_⟩
  · unfold yearDay
    dsimp only
    rw [hr, hc, hi, hf, hy]
    congr 1
    omega
  all_goals omega

theorem newYear_yearDay (day : Int) :
    newYear (yearDay day).year + (yearDay day).before = day ∧
      (yearDay day).before < yearLength (yearDay day).year := by
  obtain ⟨cycle, century, four, year, before, heq, hday, hcentury, hfour, hyear, hbefore, hlast⟩ :=
    yearDay_parts day
  rw [heq]
  have hleap := isLeap_iff (400 * cycle + 100 * century + 4 * four + year + 1)
  constructor
  · simp only [newYear]
    omega
  · simp only [yearLength]
    split_ifs with h
    · omega
    · have := mt hleap.mpr h
      omega

theorem newYear_mono : Monotone newYear := by
  intro a b h
  simp only [newYear]
  omega

theorem firstMonday_mono : Monotone firstMonday := by
  intro a b h
  have := newYear_mono h
  simp only [firstMonday]
  omega

theorem year_unique {start : Int → Int} (hstart : Monotone start) {a b d : Int}
    (ha : start a ≤ d) (ha' : d < start (a + 1)) (hb : start b ≤ d) (hb' : d < start (b + 1)) :
    a = b := by
  have hab : a < b + 1 := hstart.reflect_lt (Int.lt_of_le_of_lt ha hb')
  have hba : b < a + 1 := hstart.reflect_lt (Int.lt_of_le_of_lt hb ha')
  omega

theorem sum_monthLengths (year : Int) : (monthLengths year).sum = yearLength year := by
  simp only [monthLengths, yearLength]
  split_ifs <;> rfl

theorem monthDay_eq (lengths : List Nat) (before : Nat) (h : before < lengths.sum) :
    ∃ i length day, monthDay lengths before = (i + 1, day) ∧ lengths[i]? = some length ∧
      1 ≤ day ∧ day ≤ length ∧ before + 1 = (lengths.take i).sum + day := by
  induction lengths generalizing before with
  | nil => simp at h
  | cons length lengths ih =>
    rw [monthDay]
    rw [List.sum_cons] at h
    split_ifs with hfirst
    · exact ⟨0, length, before + 1, rfl, rfl, by omega, by omega, by simp⟩
    · obtain ⟨i, l, day, hday, hl, hpos, hle, hsum⟩ := ih (before - length) (by omega)
      refine ⟨i + 1, l, day, ?_, hl, hpos, hle, ?_⟩
      · rw [hday]
      · rw [List.take_succ_cons, List.sum_cons]
        omega

theorem monthDay_of_sum (lengths : List Nat) (i : Nat) {length day : Nat}
    (hlength : lengths[i]? = some length) (hpos : 1 ≤ day) (hle : day ≤ length) :
    (lengths.take i).sum + day ≤ lengths.sum ∧
      monthDay lengths ((lengths.take i).sum + day - 1) = (i + 1, day) := by
  induction i generalizing lengths with
  | zero =>
    cases lengths with
    | nil => cases hlength
    | cons first lengths =>
      cases hlength
      rw [List.take_zero, List.sum_nil, List.sum_cons, Nat.zero_add, monthDay, if_pos (by omega),
        Nat.sub_add_cancel hpos]
      exact ⟨Nat.le_add_right_of_le hle, rfl⟩
  | succ i ih =>
    cases lengths with
    | nil => cases hlength
    | cons first lengths =>
      obtain ⟨hsum, hrest⟩ := ih lengths hlength
      have hbefore : first + (lengths.take i).sum + day - 1 - first =
          (lengths.take i).sum + day - 1 := by omega
      rw [List.take_succ_cons, List.sum_cons, List.sum_cons, monthDay, if_neg (by omega), hbefore,
        hrest]
      exact ⟨by omega, rfl⟩

theorem week_spec (day : Int) :
    1 ≤ week day ∧ ∃ year, firstMonday year + 7 * week day ≤ firstMonday (year + 1) ∧
      firstMonday year + 7 * week day ≤ day + 7 ∧ day < firstMonday year + 7 * week day := by
  obtain ⟨hday, hbefore⟩ := newYear_yearDay (day - day % 7 + 3)
  refine ⟨Nat.succ_pos _, (yearDay (day - day % 7 + 3)).year, ?_⟩
  have hnext := newYear_add_one (yearDay (day - day % 7 + 3)).year
  simp only [week, firstMonday]
  omega

theorem dateOf_isOf (day : Int) : (dateOf day).IsOf day := by
  obtain ⟨hday, hbefore⟩ := newYear_yearDay day
  rw [← sum_monthLengths] at hbefore
  obtain ⟨i, length, d, hmd, hlength, hpos, hle, hsum⟩ := monthDay_eq _ _ hbefore
  obtain ⟨hweek, hyear⟩ := week_spec day
  constructor
  case month_pos => simp [dateOf, hmd]
  case day_pos => simpa [dateOf, hmd] using hpos
  case day_le => exact ⟨length, by simpa [dateOf, hmd] using hlength, by simpa [dateOf, hmd]⟩
  case dayOfYear_eq => simpa [dateOf, hmd] using hsum
  case day_eq => simp only [dateOf]; omega
  case weekday_pos => exact Nat.succ_pos _
  case weekday_le => simp only [dateOf, weekday]; omega
  case weekday_eq => simp only [dateOf, weekday]; omega
  case week_pos => exact hweek
  case week_eq => exact hyear

theorem Date.IsOf.dayOfYear_bounds {date : Date} {day : Int} (h : date.IsOf day) :
    1 ≤ date.dayOfYear ∧ date.dayOfYear ≤ yearLength date.year := by
  obtain ⟨length, hlength, hle⟩ := h.day_le
  have hsum := (monthDay_of_sum _ _ hlength h.day_pos hle).1
  rw [← h.dayOfYear_eq, sum_monthLengths] at hsum
  have := h.dayOfYear_eq
  have := h.day_pos
  omega

theorem Date.IsOf.newYear_bounds {date : Date} {day : Int} (h : date.IsOf day) :
    newYear date.year ≤ day ∧ day < newYear (date.year + 1) := by
  have hday := h.day_eq
  have hbounds := h.dayOfYear_bounds
  have hnext := newYear_add_one date.year
  omega

theorem Date.IsOf.monthDay_eq {date : Date} {day : Int} (h : date.IsOf day) :
    monthDay (monthLengths date.year) (date.dayOfYear - 1) = (date.month, date.day) := by
  obtain ⟨length, hlength, hle⟩ := h.day_le
  have hmd := (monthDay_of_sum _ _ hlength h.day_pos hle).2
  rwa [← h.dayOfYear_eq, Nat.sub_add_cancel h.month_pos] at hmd

theorem dateOf_eq_iff (day : Int) (date : Date) : dateOf day = date ↔ date.IsOf day := by
  constructor
  · rintro rfl
    exact dateOf_isOf day
  intro h
  have hd := dateOf_isOf day
  have hyear : (dateOf day).year = date.year :=
    year_unique newYear_mono hd.newYear_bounds.1 hd.newYear_bounds.2 h.newYear_bounds.1
      h.newYear_bounds.2
  have hdayOfYear : (dateOf day).dayOfYear = date.dayOfYear := by
    have := h.day_eq
    have := hd.day_eq
    rw [hyear] at this
    omega
  have hmonth : (dateOf day).month = date.month ∧ (dateOf day).day = date.day := by
    have hmd := hd.monthDay_eq
    rw [hyear, hdayOfYear, h.monthDay_eq, Prod.mk.injEq] at hmd
    exact ⟨hmd.1.symm, hmd.2.symm⟩
  have hweekday : (dateOf day).weekday = date.weekday := by
    have := h.weekday_eq
    have := hd.weekday_eq
    omega
  have hweek : (dateOf day).week = date.week := by
    obtain ⟨a, ha, ha', ha''⟩ := h.week_eq
    obtain ⟨b, hb, hb', hb''⟩ := hd.week_eq
    have := h.week_pos
    have := hd.week_pos
    have hab : a = b := by apply year_unique firstMonday_mono (d := day) <;> omega
    rw [hab] at ha' ha''
    omega
  cases date
  simp_all [dateOf]

theorem le_year_iff (year day : Int) : year ≤ (dateOf day).year ↔ newYear year ≤ day := by
  obtain ⟨hday, hbefore⟩ := newYear_yearDay day
  have hnext := newYear_add_one (yearDay day).year
  change year ≤ (yearDay day).year ↔ _
  constructor
  · intro h
    have := newYear_mono h
    omega
  · intro h
    have hlt : year < (yearDay day).year + 1 := newYear_mono.reflect_lt (by omega)
    omega

namespace Date.IsOf

variable {date : Date} {day : Int} (h : date.IsOf day)

include h

theorem month_le : date.month ≤ 12 := by
  obtain ⟨length, hlength, _⟩ := h.day_le
  have hlt := (List.getElem?_eq_some_iff.mp hlength).1
  have : (monthLengths date.year).length = 12 := rfl
  omega

theorem day_le_31 : date.day ≤ 31 := by
  obtain ⟨length, hlength, hle⟩ := h.day_le
  have hmem := List.mem_of_getElem? hlength
  have hall : ∀ l ∈ monthLengths date.year, l ≤ 31 := by
    rw [monthLengths]
    split_ifs <;> decide
  exact Nat.le_trans hle (hall length hmem)

theorem dayOfYear_le : date.dayOfYear ≤ 366 := by
  have hle := h.dayOfYear_bounds.2
  rw [yearLength] at hle
  split_ifs at hle <;> omega

theorem week_le : date.week ≤ 53 := by
  obtain ⟨year, hyear, _⟩ := h.week_eq
  have hnext := newYear_add_one year
  simp only [firstMonday, yearLength] at hyear hnext
  split_ifs at hnext <;> omega

end Date.IsOf

theorem newYear_1970 : newYear 1970 = epoch := by decide

theorem timeOfSecond_spec (second : Int) :
    (timeOfSecond second).hour < 24 ∧ (timeOfSecond second).minute < 60 ∧
      (timeOfSecond second).second < 60 ∧
      second % 86400 = 3600 * (timeOfSecond second).hour + 60 * (timeOfSecond second).minute +
        (timeOfSecond second).second := by
  simp only [timeOfSecond, timeOfDay]
  omega

end ScriptBuiltins.Calendar
