import Mathlib.Data.Int.ModEq
import ScriptBuiltins.Proofs.Dates.Offset

set_option autoImplicit false

namespace ScriptBuiltins.DateFormat

/-- A loop that takes the step as long as the guard holds goes this many rounds, from the first
number to the last. -/
inductive Loop (guard : Int → Prop) (step : Int → Int) : Nat → Int → Int → Prop where
  | done {n : Int} (h : ¬ guard n) : Loop guard step 0 n n
  | again {rounds : Nat} {n last : Int} (h : guard n)
      (rest : Loop guard step rounds (step n) last) : Loop guard step (rounds + 1) n last

/-- The difference of the clocks, before it is brought to within half a day. -/
def clockDifference (t : CivilTime) : Int :=
  (t.hour.toNat * 100 + t.minute.toNat) - (t.utcHour.toNat * 100 + t.utcMinute.toNat)

section

variable {guard : Int → Prop} {step : Int → Int} {n : Int}

theorem Loop.unique {rounds rounds' : Nat} {last last' : Int} (h : Loop guard step rounds n last)
    (h' : Loop guard step rounds' n last') : rounds' = rounds ∧ last' = last := by
  induction h generalizing rounds' with
  | done hstop =>
    cases h' with
    | done => exact ⟨rfl, rfl⟩
    | again hguard => exact absurd hguard hstop
  | again hguard _ ih =>
    cases h' with
    | done hstop => exact absurd hguard hstop
    | again _ hrest => exact (ih hrest).imp_left (congrArg Nat.succ)

theorem Loop.iff_eq {rounds : Nat} {last : Int} (h : Loop guard step rounds n last)
    (rounds' : Nat) (last' : Int) :
    Loop guard step rounds' n last' ↔ rounds' = rounds ∧ last' = last := by
  constructor
  · exact h.unique
  · rintro ⟨rfl, rfl⟩
    exact h

end

theorem exists_loop_raise (n : Int) :
    ∃ rounds, Loop (· < -1200) (· + 2400) rounds n (raise n) ∧ raise n = n + 2400 * rounds ∧
      (0 < rounds → raise n < 1200) := by
  fun_induction raise n with
  | case1 n hlow ih =>
    obtain ⟨rounds, hloop, hsum, hhigh⟩ := ih
    exact ⟨rounds + 1, .again hlow hloop, by omega, by omega⟩
  | case2 n hstop => exact ⟨0, .done hstop, by omega, by omega⟩

theorem exists_loop_lower (n : Int) :
    ∃ rounds, Loop (1200 < ·) (· - 2400) rounds n (lower n) ∧ lower n = n - 2400 * rounds ∧
      (0 < rounds → -1200 < lower n) := by
  fun_induction lower n with
  | case1 n hhigh ih =>
    obtain ⟨rounds, hloop, hsum, hlow⟩ := ih
    exact ⟨rounds + 1, .again hhigh hloop, by omega, by omega⟩
  | case2 n hstop => exact ⟨0, .done hstop, by omega, by omega⟩

theorem clockDifference_bounds (t : CivilTime) :
    -25755 ≤ clockDifference t ∧ clockDifference t ≤ 25755 := by
  have hhour := t.hour.toNat_lt
  have hminute := t.minute.toNat_lt
  have hutcHour := t.utcHour.toNat_lt
  have hutcMinute := t.utcMinute.toNat_lt
  rw [clockDifference]
  omega

theorem toList_format_z (t : CivilTime) :
    (format "z" t).toList =
      (if offsetNumber t < 0 then '-' else '+') :: padded 4 (offsetNumber t).natAbs := by
  rw [toList_format]
  exact List.append_nil _

/-- Whatever the two clocks show, both loops end, after eleven rounds at most and one of them after
none. The number that they leave lies within half a day and differs from that of the clocks by whole
days; its sign and its four digits are what is written. -/
theorem offset_normalized (t : CivilTime) :
    ∃ (up down : Nat) (raised n : Int),
      (∀ rounds last, Loop (· < -1200) (· + 2400) rounds (clockDifference t) last ↔
        rounds = up ∧ last = raised) ∧
      (∀ rounds last, Loop (1200 < ·) (· - 2400) rounds raised last ↔
        rounds = down ∧ last = n) ∧
      up ≤ 11 ∧ down ≤ 11 ∧ (up = 0 ∨ down = 0) ∧
      -1200 ≤ n ∧ n ≤ 1200 ∧ n ≡ clockDifference t [ZMOD 2400] ∧
      (-1200 ≤ clockDifference t → clockDifference t ≤ 1200 → n = clockDifference t) ∧
      ∃ figures, (format "z" t).toList = (if n < 0 then '-' else '+') :: figures ∧
        figures.length = 4 ∧ (∀ c ∈ figures, c.isDigit = true) ∧
        Nat.ofDigitChars 10 figures 0 = n.natAbs := by
  have hdifference := clockDifference_bounds t
  have hbounds := offsetNumber_bounds t
  obtain ⟨up, hup, hraised, hbelow⟩ := exists_loop_raise (clockDifference t)
  obtain ⟨down, hdown, hlowered, habove⟩ := exists_loop_lower (raise (clockDifference t))
  have hnumber : offsetNumber t = lower (raise (clockDifference t)) := rfl
  rw [← hnumber] at hdown hlowered habove
  have hsmall : (offsetNumber t).natAbs < 10 ^ 4 := by omega
  refine ⟨up, down, raise (clockDifference t), offsetNumber t, hup.iff_eq, hdown.iff_eq, by omega,
    by omega, by omega, hbounds.1, hbounds.2, ?_, by omega, padded 4 (offsetNumber t).natAbs,
    toList_format_z t, length_padded (by decide) hsmall, fun _ => isDigit_of_mem_padded,
    ofDigitChars_padded 4 _⟩
  rw [Int.ModEq]
  omega

end ScriptBuiltins.DateFormat
