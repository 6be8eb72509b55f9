import ScriptBuiltins.Proofs.Dates

set_option autoImplicit false

namespace ScriptBuiltins

section

variable {α : Type} [LT α]

theorem append_lt_append_iff {x y u v : List α} (h : x.length = y.length) :
    x ++ u < y ++ v ↔ x < y ∨ x = y ∧ u < v := by
  induction x generalizing y with
  | nil =>
    rw [List.length_nil, eq_comm, List.length_eq_zero_iff] at h
    simp [h]
  | cons a x ih =>
    cases y with
    | nil => cases h
    | cons b y =>
      have htail := ih (Nat.succ.inj h)
      simp only [List.cons_append, List.cons_lt_cons_iff, htail, List.cons.injEq]
      tauto

theorem flatten_lt_flatten_iff {xs ys : List (List α)}
    (h : xs.map List.length = ys.map List.length) : xs.flatten < ys.flatten ↔ xs < ys := by
  induction xs generalizing ys with
  | nil =>
    rw [List.map_nil, eq_comm, List.map_eq_nil_iff] at h
    rw [h]
    exact Iff.of_eq (by simp)
  | cons x xs ih =>
    cases ys with
    | nil => cases h
    | cons y ys =>
      rw [List.map_cons, List.map_cons, List.cons.injEq] at h
      rw [List.flatten_cons, List.flatten_cons, append_lt_append_iff h.1, ih h.2,
        List.cons_lt_cons_iff]

end

namespace DateFormat

def padded (width n : Nat) : List Char := (digits n).leftpad width '0'

theorem length_padded {width n : Nat} (hwidth : 0 < width) (h : n < 10 ^ width) :
    (padded width n).length = width := by
  have hlength := (Nat.length_toDigits_le_iff (b := 10) (by decide) hwidth).mpr h
  rw [padded, List.length_leftpad]
  exact Nat.max_eq_left hlength

theorem padded_one {n : Nat} (h : n < 10) : padded 1 n = [n.digitChar] := by
  rw [padded, digits, Nat.toDigits_of_lt_base h]
  rfl

theorem padded_succ {width : Nat} (hwidth : 0 < width) (n : Nat) :
    padded (width + 1) n = padded width (n / 10) ++ [(n % 10).digitChar] := by
  unfold padded digits List.leftpad
  rw [Nat.toDigits_eq_if (by decide)]
  split_ifs with h
  · have hzero : Nat.toDigits 10 (n / 10) = ['0'] := by rw [Nat.div_eq_of_lt h, Nat.toDigits_zero]
    rw [hzero, Nat.mod_eq_of_lt h]
    change _ = List.replicate (width - 1) '0' ++ List.replicate 1 '0' ++ _
    rw [← List.replicate_add, Nat.sub_add_cancel hwidth]
    rfl
  · rw [List.length_append, List.length_singleton, Nat.add_sub_add_right, List.append_assoc]

theorem ofDigitChars_padded (width n : Nat) : Nat.ofDigitChars 10 (padded width n) 0 = n := by
  rw [padded, List.leftpad, Nat.ofDigitChars_append, Nat.ofDigitChars_replicate_zero, Nat.mul_zero]
  exact Nat.ofDigitChars_ten_toDigits

theorem padded_injective (width : Nat) : Function.Injective (padded width) :=
  Function.LeftInverse.injective (ofDigitChars_padded width)

theorem digitChar_lt : ∀ b < 10, ∀ a < b, Nat.digitChar a < Nat.digitChar b := by decide

theorem strictMonoOn_padded {width : Nat} (hwidth : 0 < width) :
    StrictMonoOn (padded width) (Set.Iio (10 ^ width)) := by
  -- All digits but the last are those of the quotient by ten, so that the width goes down.
  induction width, hwidth using Nat.le_induction with
  | base =>
    intro a ha b hb hab
    rw [padded_one ha, padded_one hb, List.cons_lt_cons_iff]
    exact .inl (digitChar_lt b hb a hab)
  | succ width hwidth ih =>
    intro a ha b hb hab
    rw [Set.mem_Iio, Nat.pow_succ] at ha hb
    have ha' : a / 10 < 10 ^ width := by omega
    have hb' : b / 10 < 10 ^ width := by omega
    have hlength : (padded width (a / 10)).length = (padded width (b / 10)).length := by
      rw [length_padded hwidth ha', length_padded hwidth hb']
    rw [padded_succ hwidth, padded_succ hwidth, append_lt_append_iff hlength]
    obtain hlt | heq : a / 10 < b / 10 ∨ a / 10 = b / 10 := by omega
    · exact .inl (ih ha' hb' hlt)
    · have hdigit := digitChar_lt (b % 10) (by omega) (a % 10) (by omega)
      exact .inr ⟨by rw [heq], List.cons_lt_cons_iff.mpr (.inl hdigit)⟩

theorem isDigit_of_mem_padded {width n : Nat} {c : Char} (h : c ∈ padded width n) :
    c.isDigit = true := by
  rw [padded, List.leftpad, List.mem_append, List.mem_replicate] at h
  obtain ⟨_, rfl⟩ | h := h
  · rfl
  · exact Integer.isDigit_of_mem_toDigits h

theorem zeroPadded_of_nonneg {n : Int} (h : 0 ≤ n) (width : Nat) :
    zeroPadded width n = padded width n.natAbs :=
  if_neg (by omega)

theorem zeroPadded_injective (width : Nat) : Function.Injective (zeroPadded width) := by
  intro a b h
  have hminus : ∀ (n : Nat) (rest : List Char), padded width n ≠ '-' :: rest := by
    intro n rest hn
    have := isDigit_of_mem_padded (hn ▸ List.mem_cons_self)
    contradiction
  unfold zeroPadded at h
  split_ifs at h with ha hb hb
  · have := padded_injective _ (List.cons.inj h).2
    omega
  · exact absurd h.symm (hminus _ _)
  · exact absurd h (hminus _ _)
  · have := padded_injective _ h
    omega

end DateFormat

namespace Calendar

theorem monthDay_pos (lengths : List Nat) (before : Nat) : 0 < (monthDay lengths before).1 := by
  unfold monthDay
  split
  · exact Nat.one_pos
  · split_ifs
    · exact Nat.one_pos
    · exact Nat.succ_pos _

theorem monthDay_lt (lengths : List Nat) {a b : Nat} (h : a < b) :
    (monthDay lengths a).1 < (monthDay lengths b).1 ∨
      (monthDay lengths a).1 = (monthDay lengths b).1 ∧
        (monthDay lengths a).2 < (monthDay lengths b).2 := by
  induction lengths generalizing a b with
  | nil => exact .inr ⟨rfl, Nat.succ_lt_succ h⟩
  | cons length lengths ih =>
    unfold monthDay
    split_ifs with ha hb hb
    · exact .inr ⟨rfl, Nat.succ_lt_succ h⟩
    · exact .inl (Nat.succ_lt_succ (monthDay_pos lengths _))
    · omega
    · have := ih (show a - length < b - length by omega)
      dsimp only
      omega

def Date.fields (date : Date) : List Int := [date.year, date.month, date.day]

theorem Date.IsOf.fields_lt {date date' : Date} {day day' : Int} (h : date.IsOf day)
    (h' : date'.IsOf day') (hlt : day < day') : date.fields < date'.fields := by
  have hle : date.year < date'.year + 1 :=
    newYear_mono.reflect_lt (by have := h.newYear_bounds; have := h'.newYear_bounds; omega)
  unfold Date.fields
  simp only [List.cons_lt_cons_iff, Int.ofNat_lt, Int.natCast_inj, List.not_lt_nil, and_false,
    or_false]
  obtain hyear | hyear : date.year < date'.year ∨ date.year = date'.year := by omega
  · exact .inl hyear
  · refine .inr ⟨hyear, ?_⟩
    have hday := h.day_eq
    have hday' := h'.day_eq
    have hpos := h.dayOfYear_bounds
    rw [hyear] at hday
    have hmonth := monthDay_lt (monthLengths date'.year)
      (show date.dayOfYear - 1 < date'.dayOfYear - 1 by omega)
    rwa [h'.monthDay_eq, ← hyear, h.monthDay_eq] at hmonth

end Calendar

namespace CivilTime

def date (t : CivilTime) : Calendar.Date :=
  ⟨t.year, t.month.toNat, t.day.toNat, t.dayOfYear.toNat, t.weekday.toNat, t.week.toNat⟩

def fields (t : CivilTime) : List Int :=
  t.date.fields ++ [(t.hour.toNat : Int), (t.minute.toNat : Int), (t.second.toNat : Int)]

theorem fields_eq (t : CivilTime) :
    t.fields = [t.year, (t.month.toNat : Int), (t.day.toNat : Int), (t.hour.toNat : Int),
      (t.minute.toNat : Int), (t.second.toNat : Int)] :=
  rfl

/-- On a later clock the fields are greater, compared from the year down. -/
theorem Reads.fields_lt {t t' : CivilTime} {here here' utc utc' : Int} (h : t.Reads here utc)
    (h' : t'.Reads here' utc') (hlt : here < here') : t.fields < t'.fields := by
  have hdate : t.date.IsOf (Calendar.newYear 1970 + here / 86400) := h.date
  have hdate' : t'.date.IsOf (Calendar.newYear 1970 + here' / 86400) := h'.date
  unfold fields
  rw [append_lt_append_iff (by rfl)]
  obtain hday | hday : here / 86400 < here' / 86400 ∨ here / 86400 = here' / 86400 := by omega
  · exact .inl (hdate.fields_lt hdate' (by omega))
  · rw [hday] at hdate
    have heq : t.date = t'.date :=
      ((Calendar.dateOf_eq_iff _ _).mpr hdate).symm.trans ((Calendar.dateOf_eq_iff _ _).mpr hdate')
    refine .inr ⟨congrArg Calendar.Date.fields heq, ?_⟩
    have := h.clock
    have := h'.clock
    have := h.minute_lt
    have := h'.minute_lt
    have := h.second_lt
    have := h'.second_lt
    simp only [List.cons_lt_cons_iff, Int.ofNat_lt, Int.natCast_inj, List.not_lt_nil, and_false,
      or_false]
    omega

theorem strictMono_fields (utc : Int) : StrictMono fun here => (ofClocks here utc).fields :=
  fun here here' => (reads_ofClocks here utc).fields_lt (reads_ofClocks here' utc)

end CivilTime

namespace DateFormat

theorem toList_format (s : String) (t : CivilTime) :
    (format s t).toList = (s.toList.map (expand t)).flatten := by
  rw [format, String.toList_ofList, List.flatMap]

theorem map_expand (t : CivilTime) :
    "Y-m-d H:M:S".toList.map (expand t) =
      [zeroPadded 4 t.year, ['-'], padded 2 t.month.toNat, ['-'], padded 2 t.day.toNat, [' '],
        padded 2 t.hour.toNat, [':'], padded 2 t.minute.toNat, [':'], padded 2 t.second.toNat] := by
  rfl

structure TwoDigits (t : CivilTime) : Prop where
  month_lt : t.month.toNat < 10 ^ 2
  day_lt : t.day.toNat < 10 ^ 2
  hour_lt : t.hour.toNat < 10 ^ 2
  minute_lt : t.minute.toNat < 10 ^ 2
  second_lt : t.second.toNat < 10 ^ 2

theorem twoDigits_ofClocks (here utc : Int) : TwoDigits (.ofClocks here utc) := by
  have h := CivilTime.reads_ofClocks here utc
  have hmonth : (CivilTime.ofClocks here utc).month.toNat ≤ 12 := h.date.month_le
  have hday : (CivilTime.ofClocks here utc).day.toNat ≤ 31 := h.date.day_le_31
  have hhour := h.hour_lt
  have hminute := h.minute_lt
  have hsecond := h.second_lt
  constructor <;> omega

section

variable {t t' : CivilTime}

theorem map_length_expand (h : TwoDigits t) :
    ("Y-m-d H:M:S".toList.map (expand t)).map List.length =
      [(zeroPadded 4 t.year).length, 1, 2, 1, 2, 1, 2, 1, 2, 1, 2] := by
  have htwo : ∀ n < 10 ^ 2, (padded 2 n).length = 2 := fun n => length_padded (by decide)
  rw [map_expand]
  simp only [List.map_cons, List.map_nil, List.length_singleton, htwo _ h.month_lt,
    htwo _ h.day_lt, htwo _ h.hour_lt, htwo _ h.minute_lt, htwo _ h.second_lt]

theorem format_eq_iff (h : TwoDigits t) (h' : TwoDigits t') :
    format "Y-m-d H:M:S" t = format "Y-m-d H:M:S" t' ↔ t.fields = t'.fields := by
  have hparts : "Y-m-d H:M:S".toList.map (expand t) = "Y-m-d H:M:S".toList.map (expand t') ↔
      t.fields = t'.fields := by
    rw [map_expand, map_expand, t.fields_eq, t'.fields_eq]
    simp only [List.cons.injEq, (zeroPadded_injective 4).eq_iff, (padded_injective 2).eq_iff,
      Nat.cast_inj, true_and, and_true]
  rw [← String.toList_inj, toList_format, toList_format, ← hparts]
  refine ⟨fun heq => List.eq_iff_flatten_eq.mpr ⟨heq, ?_⟩, fun heq => by rw [heq]⟩
  -- Only the year may vary in its length, and what comes after it has one length.
  have hlength := congrArg List.length heq
  rw [List.length_flatten, List.length_flatten, map_length_expand h,
    map_length_expand h'] at hlength
  have hyear : (zeroPadded 4 t.year).length = (zeroPadded 4 t'.year).length := by
    simpa using hlength
  rw [map_length_expand h, map_length_expand h', hyear]

theorem format_lt_iff (h : TwoDigits t) (h' : TwoDigits t')
    (hyear : 0 ≤ t.year ∧ t.year ≤ 9999) (hyear' : 0 ≤ t'.year ∧ t'.year ≤ 9999) :
    format "Y-m-d H:M:S" t < format "Y-m-d H:M:S" t' ↔ t.fields < t'.fields := by
  have hfour : t.year.natAbs < 10 ^ 4 := by omega
  have hfour' : t'.year.natAbs < 10 ^ 4 := by omega
  have hlength : ("Y-m-d H:M:S".toList.map (expand t)).map List.length =
      ("Y-m-d H:M:S".toList.map (expand t')).map List.length := by
    rw [map_length_expand h, map_length_expand h', zeroPadded_of_nonneg hyear.1,
      zeroPadded_of_nonneg hyear'.1, length_padded (by decide) hfour,
      length_padded (by decide) hfour']
  have hY : zeroPadded 4 t.year < zeroPadded 4 t'.year ↔ t.year < t'.year := by
    rw [zeroPadded_of_nonneg hyear.1, zeroPadded_of_nonneg hyear'.1,
      (strictMonoOn_padded (by decide)).lt_iff_lt hfour hfour']
    omega
  have htwo : ∀ {m n : Nat}, m < 10 ^ 2 → n < 10 ^ 2 → (padded 2 m < padded 2 n ↔ m < n) :=
    (strictMonoOn_padded (by decide)).lt_iff_lt
  rw [String.lt_iff_toList_lt, toList_format, toList_format, flatten_lt_flatten_iff hlength,
    map_expand, map_expand, t.fields_eq, t'.fields_eq]
  simp only [List.cons_lt_cons_iff, hY, htwo h.month_lt h'.month_lt, htwo h.day_lt h'.day_lt,
    htwo h.hour_lt h'.hour_lt, htwo h.minute_lt h'.minute_lt, htwo h.second_lt h'.second_lt,
    (zeroPadded_injective 4).eq_iff, (padded_injective 2).eq_iff, Int.ofNat_lt, Int.natCast_inj,
    lt_irrefl, false_or, true_and]

/-- Before the year 0 the texts run the other way. -/
example : zeroPadded 4 (-1) < zeroPadded 4 (-2) := by decide

end

end DateFormat

namespace Moment

theorem year_bounds (m : Moment) : -9999 ≤ m.civilTime.year ∧ m.civilTime.year ≤ 9999 :=
  (inYears_iff _).mp m.localInYears

section

variable {offset : UtcOffset} {seconds seconds' : Int} {m m' : Moment}

theorem ofSeconds_eq_ok_iff :
    ofSeconds seconds offset = .ok m ↔ m.utc.seconds = seconds ∧ m.offset = offset := by
  constructor
  · intro h
    by_cases hyears : InYears seconds
    · rw [ofSeconds_eq hyears] at h
      split_ifs at h
      cases h
      exact ⟨rfl, rfl⟩
    · rw [ofSeconds, Timestamp.ofSeconds, dif_neg hyears] at h
      cases h
  · rintro ⟨rfl, rfl⟩
    rw [ofSeconds_eq m.utc.inYears, dif_pos m.localInYears]

theorem localSeconds_of_ofSeconds (h : ofSeconds seconds offset = .ok m) :
    m.localSeconds = seconds + offset.seconds := by
  obtain ⟨hutc, hoffset⟩ := ofSeconds_eq_ok_iff.mp h
  rw [localSeconds, hutc, hoffset]

/-- At one offset two times that are written alike are the same time, and in the years from 0 the
earlier time has the lesser text. -/
theorem format_faithful (h : ofSeconds seconds offset = .ok m)
    (h' : ofSeconds seconds' offset = .ok m') :
    let text (m : Moment) := DateFormat.format "Y-m-d H:M:S" m.civilTime
    (text m = text m' ↔ seconds = seconds') ∧
      (0 ≤ m.civilTime.year → 0 ≤ m'.civilTime.year →
        (text m < text m' ↔ seconds < seconds')) := by
  have hmono := CivilTime.strictMono_fields 0
  have hlocal := localSeconds_of_ofSeconds h
  have hlocal' := localSeconds_of_ofSeconds h'
  have hdigits : ∀ m : Moment, DateFormat.TwoDigits m.civilTime := fun m =>
    DateFormat.twoDigits_ofClocks m.localSeconds m.utc.seconds
  intro text
  constructor
  · calc
      text m = text m' ↔ m.civilTime.fields = m'.civilTime.fields :=
        DateFormat.format_eq_iff (hdigits m) (hdigits m')
      _ ↔ m.localSeconds = m'.localSeconds := hmono.injective.eq_iff
      _ ↔ seconds = seconds' := by omega
  · intro hyear hyear'
    calc
      text m < text m' ↔ m.civilTime.fields < m'.civilTime.fields :=
        DateFormat.format_lt_iff (hdigits m) (hdigits m') ⟨hyear, m.year_bounds.2⟩
          ⟨hyear', m'.year_bounds.2⟩
      _ ↔ m.localSeconds < m'.localSeconds := hmono.lt_iff_lt
      _ ↔ seconds < seconds' := by omega

end

/-- The last second of a leap day and the one after it. -/
theorem format_faithful_leap_day :
    let m : Moment := ⟨⟨951868799, by decide⟩, .utc, by decide⟩
    let m' : Moment := ⟨⟨951868800, by decide⟩, .utc, by decide⟩
    let text (m : Moment) := DateFormat.format "Y-m-d H:M:S" m.civilTime
    ofSeconds 951868799 .utc = .ok m ∧ ofSeconds 951868800 .utc = .ok m' ∧
      text m ≠ text m' ∧ text m < text m' := by
  intro m m' text
  have h : ofSeconds 951868799 .utc = .ok m := by rfl
  have h' : ofSeconds 951868800 .utc = .ok m' := by rfl
  have horder := format_faithful h h'
  have hyear : 0 ≤ m.civilTime.year := by decide
  have hyear' : 0 ≤ m'.civilTime.year := by decide
  exact ⟨h, h', fun heq => absurd (horder.1.mp heq) (by decide),
    (horder.2 hyear hyear').mpr (by decide)⟩

end Moment

end ScriptBuiltins
