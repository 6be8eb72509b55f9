import ScriptBuiltins.Proofs.Dates.Order

set_option autoImplicit false

/-! Where the minutes pass a full hour on the way from one clock to the other, that hour counts for
a hundred in the numbers and for sixty on the clocks, so forty is left over in what is written. -/
namespace ScriptBuiltins

namespace DateFormat

def writtenOffset (minutes : Int) : String :=
  String.ofList ((if minutes < 0 then '-' else '+') ::
    (padded 2 (minutes.natAbs / 60) ++ padded 2 (minutes.natAbs % 60)))

/-- Do the odd minutes lead out of the hour, forward or back? -/
def Carries (minute minutes : Int) : Prop :=
  (0 ≤ minutes ∧ 60 ≤ minute + minutes.natAbs % 60) ∨ (minutes < 0 ∧ minute < minutes.natAbs % 60)

instance (minute minutes : Int) : Decidable (Carries minute minutes) :=
  inferInstanceAs (Decidable (_ ∨ _))

def figures (minutes : Nat) : Nat := minutes / 60 * 100 + minutes % 60

theorem raise_spec (n : Int) : -1200 ≤ raise n ∧ raise n % 2400 = n % 2400 := by
  fun_induction raise n with
  | case1 n hlow ih => omega
  | case2 n hhigh => omega

theorem lower_spec (n : Int) :
    lower n ≤ 1200 ∧ lower n % 2400 = n % 2400 ∧ (-1200 ≤ n → -1200 ≤ lower n) := by
  fun_induction lower n with
  | case1 n hhigh ih => omega
  | case2 n hlow => omega

theorem offsetNumber_bounds (t : CivilTime) : -1200 ≤ offsetNumber t ∧ offsetNumber t ≤ 1200 := by
  unfold offsetNumber
  dsimp only
  generalize ((t.hour.toNat : Int) * 100 + t.minute.toNat -
    (t.utcHour.toNat * 100 + t.utcMinute.toNat)) = n
  have hraise := raise_spec n
  have hlower := lower_spec (raise n)
  exact ⟨hlower.2.2 hraise.1, hlower.1⟩

/-- Less than half a day away from zero there is one number only. -/
theorem lower_raise_eq {n k : Int} (hlow : -1200 < k) (hhigh : k < 1200)
    (h : n % 2400 = k % 2400) : lower (raise n) = k := by
  have hraise := raise_spec n
  have hlower := lower_spec (raise n)
  omega

theorem padded_append {width k : Nat} (hwidth : 0 < width) (hk : 0 < k) (a : Nat) {b : Nat}
    (hb : b < 10 ^ k) : padded (width + k) (a * 10 ^ k + b) = padded width a ++ padded k b := by
  induction k, hk using Nat.le_induction generalizing b with
  | base =>
    have hdiv : (a * 10 ^ 1 + b) / 10 = a := by omega
    have hmod : (a * 10 ^ 1 + b) % 10 = b := by omega
    rw [padded_succ hwidth, hdiv, hmod, padded_one hb]
  | succ k hk ih =>
    rw [Nat.pow_succ] at hb
    have hdiv : (a * 10 ^ (k + 1) + b) / 10 = a * 10 ^ k + b / 10 := by
      rw [Nat.pow_succ, ← Nat.mul_assoc]
      omega
    have hmod : (a * 10 ^ (k + 1) + b) % 10 = b % 10 := by
      rw [Nat.pow_succ, ← Nat.mul_assoc]
      omega
    rw [← Nat.add_assoc, padded_succ (Nat.add_pos_left hwidth k), hdiv, hmod,
      ih (b := b / 10) (by omega), padded_succ hk, List.append_assoc]

theorem padded_figures (minutes : Nat) :
    padded 4 (figures minutes) = padded 2 (minutes / 60) ++ padded 2 (minutes % 60) := by
  have hlt : minutes % 60 < 10 ^ 2 := by omega
  exact padded_append (by decide : 0 < 2) (by decide : 0 < 2) (minutes / 60) hlt

/-- The offset in figures, with forty more if it leads out of the hour. -/
def offsetFigures (minute minutes : Int) : Int :=
  (if minutes < 0 then -1 else 1) *
    (figures minutes.natAbs + if Carries minute minutes then 40 else 0)

theorem offsetFigures_neg_iff (minute minutes : Int) :
    offsetFigures minute minutes < 0 ↔ minutes < 0 := by
  simp only [offsetFigures, figures]
  split_ifs <;> omega

theorem natAbs_offsetFigures (minute minutes : Int) :
    (offsetFigures minute minutes).natAbs =
      figures minutes.natAbs + if Carries minute minutes then 40 else 0 := by
  simp only [offsetFigures]
  split_ifs <;> omega

theorem offsetFigures_bounds {minutes : Int} (h : minutes.natAbs < 720) (minute : Int) :
    -1200 < offsetFigures minute minutes ∧ offsetFigures minute minutes < 1200 := by
  simp only [offsetFigures, figures]
  split_ifs <;> omega

theorem figures_sub {hour minute hour' minute' minutes : Int} (hminute : 0 ≤ minute ∧ minute < 60)
    (hminute' : 0 ≤ minute' ∧ minute' < 60)
    (h : (60 * hour' + minute') % 1440 = (60 * hour + minute + minutes) % 1440) :
    (hour' * 100 + minute' - (hour * 100 + minute)) % 2400 =
      offsetFigures minute minutes % 2400 := by
  simp only [offsetFigures, figures, Carries]
  split_ifs <;> omega

end DateFormat

namespace CivilTime.Reads

variable {t : CivilTime} {here utc minutes : Int}

theorem utcMinute_eq (h : t.Reads here utc) : (t.utcMinute.toNat : Int) = utc / 60 % 60 := by
  have := h.utcMinute_lt
  have := h.utcClock
  omega

theorem offsetNumber_eq (h : t.Reads here utc) (hhere : here = utc + 60 * minutes)
    (hhalf : minutes.natAbs < 720) :
    DateFormat.offsetNumber t = DateFormat.offsetFigures (utc / 60 % 60) minutes := by
  have hminute := h.minute_lt
  have hclock := h.clock
  have hutcMinute := h.utcMinute_lt
  have hutcClock := h.utcClock
  have hsecond := h.second_lt
  have hday : (60 * t.hour.toNat + t.minute.toNat : Int) % 1440 =
      (60 * t.utcHour.toNat + t.utcMinute.toNat + minutes) % 1440 := by omega
  have hbounds := DateFormat.offsetFigures_bounds hhalf (t.utcMinute.toNat : Int)
  rw [← h.utcMinute_eq]
  exact DateFormat.lower_raise_eq hbounds.1 hbounds.2
    (DateFormat.figures_sub (by omega) (by omega) hday)

theorem format_z (h : t.Reads here utc) (hhere : here = utc + 60 * minutes)
    (hhalf : minutes.natAbs < 720) :
    DateFormat.format "z" t = String.ofList ((if minutes < 0 then '-' else '+') ::
      DateFormat.padded 4 (DateFormat.figures minutes.natAbs +
        if DateFormat.Carries (utc / 60 % 60) minutes then 40 else 0)) := by
  have hletter : "z".toList.flatMap (DateFormat.expand t) = DateFormat.offsetText t :=
    List.append_nil _
  have hsign := DateFormat.offsetFigures_neg_iff (utc / 60 % 60) minutes
  rw [DateFormat.format, hletter, DateFormat.offsetText, h.offsetNumber_eq hhere hhalf]
  simp only [hsign, DateFormat.natAbs_offsetFigures, DateFormat.padded]

end CivilTime.Reads

namespace Moment

open DateFormat (Carries figures padded)

/-- An offset of whole minutes is written as it is unless the minutes lead out of the hour; then it
is written with forty minutes too many. -/
theorem offset_written_iff {seconds minutes : Int} {offset : UtcOffset} {m : Moment}
    (h : ofSeconds seconds offset = .ok m) (hminutes : offset.seconds = 60 * minutes)
    (hhalf : minutes.natAbs < 720) :
    let text := DateFormat.format "z" m.civilTime
    (text = DateFormat.writtenOffset minutes ↔ ¬ Carries (seconds / 60 % 60) minutes) ∧
    (Carries (seconds / 60 % 60) minutes →
      text = String.ofList ((if minutes < 0 then '-' else '+') ::
        padded 4 (figures minutes.natAbs + 40))) := by
  intro text
  obtain ⟨hutc, hoffset⟩ := ofSeconds_eq_ok_iff.mp h
  have hreads : m.civilTime.Reads m.localSeconds m.utc.seconds := CivilTime.reads_ofClocks _ _
  have hhere : m.localSeconds = m.utc.seconds + 60 * minutes := by
    rw [localSeconds, hoffset, hminutes]
  have htext : text = _ := hreads.format_z hhere hhalf
  rw [hutc] at htext
  constructor
  · rw [htext, DateFormat.writtenOffset, ← DateFormat.padded_figures, String.ofList_inj,
      List.cons.injEq, (DateFormat.padded_injective 4).eq_iff]
    by_cases hcarries : Carries (seconds / 60 % 60) minutes
    · simp [hcarries]
    · simp [hcarries]
  · intro hcarries
    rw [htext, if_pos hcarries]

/-- Half an hour after two hours, on the day before. -/
theorem offset_written_across_midnight :
    let offset : UtcOffset := ⟨-9000, by decide, by decide⟩
    let m : Moment := ⟨⟨2700, by decide⟩, offset, by decide⟩
    ofSeconds 2700 offset = .ok m ∧ offset.seconds = 60 * -150 ∧ (-150 : Int).natAbs < 720 ∧
      DateFormat.format "z" m.civilTime = "-0230" := by
  intro offset m
  have h : ofSeconds 2700 offset = .ok m := rfl
  have hminutes : offset.seconds = 60 * -150 := by decide
  have hhalf : (-150 : Int).natAbs < 720 := by decide
  have hcarries : ¬ Carries (2700 / 60 % 60) (-150) := by decide
  have htext : DateFormat.writtenOffset (-150) = "-0230" := rfl
  exact ⟨h, hminutes, hhalf, ((offset_written_iff h hminutes hhalf).1.mpr hcarries).trans htext⟩

/-- Half past midnight is three o'clock two and a half hours ahead, so 300 less 30 is written. -/
theorem offset_with_forty_minutes_more :
    let offset : UtcOffset := ⟨9000, by decide, by decide⟩
    let m : Moment := ⟨⟨1800, by decide⟩, offset, by decide⟩
    ofSeconds 1800 offset = .ok m ∧ offset.seconds = 60 * 150 ∧
      DateFormat.writtenOffset 150 = "+0230" ∧ DateFormat.format "z" m.civilTime = "+0270" := by
  intro offset m
  have hreads : m.civilTime.Reads 10800 1800 := CivilTime.reads_ofClocks _ _
  have hhere : (10800 : Int) = 1800 + 60 * 150 := by decide
  exact ⟨rfl, by decide, rfl, hreads.format_z hhere (by decide)⟩

end Moment

end ScriptBuiltins
