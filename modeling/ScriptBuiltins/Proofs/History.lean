import Mathlib.Data.List.Basic
import Mathlib.Data.Option.Basic
import Mathlib.Tactic.SplitIfs

set_option autoImplicit false

namespace ScriptBuiltins.History

variable {σ ε α : Type}

theorem foldl_keep {apply : σ → ε → σ} (get : σ → α) (h : ∀ s op, get (apply s op) = get s) (s : σ)
    (ops : List ε) : get (ops.foldl apply s) = get s := by
  induction ops generalizing s with
  | nil => rfl
  | cons op ops ih => rw [List.foldl_cons, ih, h]

/-- If every operation sets a value or leaves the one that is there, the last one set remains. -/
theorem foldl_last {apply : σ → ε → σ} (get : σ → Option α) {set? : ε → Option α}
    (h : ∀ s op, get (apply s op) = (set? op).or (get s)) (s : σ) (ops : List ε) :
    get (ops.foldl apply s) = (ops.findSomeRev? set?).or (get s) := by
  induction ops generalizing s with
  | nil => rfl
  | cons op ops ih =>
    have hlast : (op :: ops).findSomeRev? set? = (ops.findSomeRev? set?).or (set? op) := by
      rw [List.findSomeRev?]
      cases ops.findSomeRev? set? <;> rfl
    rw [List.foldl_cons, ih, h, hlast, Option.or_assoc]

theorem foldl_collect {apply : σ → ε → σ} (get : σ → List α) {more : ε → List α}
    (h : ∀ s op, get (apply s op) = get s ++ more op) (s : σ) (ops : List ε) :
    get (ops.foldl apply s) = get s ++ ops.flatMap more := by
  induction ops generalizing s with
  | nil => rw [List.foldl_nil, List.flatMap_nil, List.append_nil]
  | cons op ops ih => rw [List.foldl_cons, ih, h, List.flatMap_cons, List.append_assoc]

theorem exists_last_concat (kind : ε → Prop) [DecidablePred kind] (ops : List ε) (op last : ε) :
    (∃ before after, ops ++ [op] = before ++ last :: after ∧ kind last ∧ ∀ o ∈ after, ¬ kind o) ↔
      if kind op then op = last
      else ∃ before after, ops = before ++ last :: after ∧ kind last ∧ ∀ o ∈ after, ¬ kind o := by
  constructor
  · rintro ⟨before, after, hops, hlast, hafter⟩
    -- Either the new operation is the last one of the kind, or it came after that one.
    rcases List.eq_nil_or_concat' after with rfl | ⟨after, added, rfl⟩
    · obtain ⟨_, rfl⟩ := List.append_singleton_inj.mp hops
      exact (if_pos hlast).mpr rfl
    · rw [← List.cons_append, ← List.append_assoc] at hops
      obtain ⟨rfl, rfl⟩ := List.append_singleton_inj.mp hops
      rw [if_neg (hafter op (by simp))]
      exact ⟨before, after, rfl, hlast, fun o ho => hafter o (List.mem_append_left _ ho)⟩
  · intro h
    split_ifs at h with hkind
    · subst h
      exact ⟨ops, [], rfl, hkind, fun o ho => absurd ho List.not_mem_nil⟩
    · obtain ⟨before, after, rfl, hlast, hafter⟩ := h
      refine ⟨before, after ++ [op], by simp, hlast, ?_⟩
      intro o ho
      rcases List.mem_append.mp ho with ho | ho
      · exact hafter o ho
      · rwa [List.mem_singleton.mp ho]

end ScriptBuiltins.History
