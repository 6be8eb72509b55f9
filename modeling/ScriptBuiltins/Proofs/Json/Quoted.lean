import Mathlib.Tactic.SplitIfs
import ScriptBuiltins.Json.Quoted

set_option autoImplicit false

namespace ScriptBuiltins.Json.Quoted

inductive Runs : Scan → List Char → Scan → Prop
  | nil (scan : Scan) : Runs scan [] scan
  | cons {scan next last : Scan} {c : Char} {cs : List Char} (hstep : scan.step c = .more next)
    (hrest : Runs next cs last) : Runs scan (c :: cs) last

theorem Runs.append {scan next last : Scan} {cs ds : List Char} (h : Runs scan cs next)
    (h' : Runs next ds last) : Runs scan (cs ++ ds) last := by
  induction h with
  | nil scan => exact h'
  | cons hstep _ ih => exact .cons hstep (ih h')

theorem hexValue?_digit (d : Nat) (h : d < 16) : hexValue? (Text.Hex.digit d) = some d := by
  decide +revert

theorem runs_escaped {seen : List Char} {letter c : Char} (h : escaped? letter = some c) :
    Runs ⟨seen, .plain⟩ ['\\', letter] ⟨c :: seen, .plain⟩ := by
  have hletter : letter ≠ 'u' := by
    rintro rfl
    cases h
  have hstep : Scan.step ⟨seen, .backslash⟩ letter = .more ⟨c :: seen, .plain⟩ := by
    simp only [Scan.step, if_neg hletter, h]
  exact .cons rfl (.cons hstep (.nil _))

theorem step_code {seen : List Char} {first : Option Nat} {left value d : Nat} {c : Char}
    (h : hexValue? c = some d) :
    Scan.step ⟨seen, .code first left value⟩ c =
      if left ≤ 1 then endCode seen first (value * 16 + d)
      else .more ⟨seen, .code first (left - 1) (value * 16 + d)⟩ := by
  simp only [Scan.step, h]

/-- A code of four digits, the first two of them zeros. -/
theorem runs_code (seen : List Char) {n : Nat} (h : n < 0x100) :
    Runs ⟨seen, .plain⟩ ['\\', 'u', '0', '0', Text.Hex.digit (n / 16), Text.Hex.digit (n % 16)]
      ⟨Char.ofNat n :: seen, .plain⟩ := by
  have hhigh : Scan.step ⟨seen, .code none 2 0⟩ (Text.Hex.digit (n / 16)) =
      .more ⟨seen, .code none 1 (n / 16)⟩ := by
    rw [step_code (hexValue?_digit (n / 16) (by omega)), if_neg (by decide), Nat.zero_mul,
      Nat.zero_add]
  have hlow : Scan.step ⟨seen, .code none 1 (n / 16)⟩ (Text.Hex.digit (n % 16)) =
      .more ⟨Char.ofNat n :: seen, .plain⟩ := by
    have hvalue : n / 16 * 16 + n % 16 = n := Nat.div_add_mod' n 16
    rw [step_code (hexValue?_digit (n % 16) (by omega)), if_pos (Nat.le_refl 1), hvalue]
    simp only [endCode]
    rw [if_neg (by omega), if_neg (by omega)]
  exact .cons rfl (.cons rfl (.cons rfl (.cons rfl (.cons hhigh (.cons hlow (.nil _))))))

theorem runs_escapeChar (seen : List Char) (c : Char) :
    Runs ⟨seen, .plain⟩ (escapeChar c) ⟨c :: seen, .plain⟩ := by
  unfold escapeChar
  -- Seven characters have a letter of their own; the last case is that of all others.
  split
  case h_8 hquote hbackslash _ _ _ _ _ =>
    split_ifs with hcontrol
    · have hrun := runs_code seen (show c.toNat < 0x100 by omega)
      rwa [Char.ofNat_toNat] at hrun
    · have hstep : Scan.step ⟨seen, .plain⟩ c = .more ⟨c :: seen, .plain⟩ := by
        simp only [Scan.step, if_neg hquote, if_neg hbackslash, if_neg hcontrol]
      exact .cons hstep (.nil _)
  all_goals exact runs_escaped rfl

theorem runs_flatMap (cs seen : List Char) :
    Runs ⟨seen, .plain⟩ (cs.flatMap escapeChar) ⟨cs.reverse ++ seen, .plain⟩ := by
  induction cs generalizing seen with
  | nil => exact .nil _
  | cons c cs ih =>
    rw [List.flatMap_cons, List.reverse_cons, List.append_assoc]
    exact (runs_escapeChar seen c).append (ih (c :: seen))

end ScriptBuiltins.Json.Quoted
