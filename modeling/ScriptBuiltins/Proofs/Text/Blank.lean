import Mathlib.Data.List.DropRight
import Mathlib.Data.List.TakeWhile
import ScriptBuiltins.Text.Blank

set_option autoImplicit false

namespace ScriptBuiltins.Text

structure Trimmed (cs : List Char) : Prop where
  first : ∀ c ∈ cs.head?, isBlank c = false
  last : ∀ c ∈ cs.getLast?, isBlank c = false

theorem trimmed_of_forall {cs : List Char} (h : ∀ c ∈ cs, isBlank c = false) : Trimmed cs :=
  ⟨fun c hc => h c (List.mem_of_mem_head? hc), fun c hc => h c (List.mem_of_getLast? hc)⟩

theorem dropWhile_of_trimmed {cs : List Char} (h : Trimmed cs) (ds : List Char) (hcs : cs ≠ []) :
    (cs ++ ds).dropWhile isBlank = cs ++ ds := by
  cases cs with
  | nil => contradiction
  | cons c cs => exact List.dropWhile_cons_of_neg (by simp [h.first c rfl])

theorem trim_eq {before core behind : List Char} (hbefore : ∀ c ∈ before, isBlank c = true)
    (hcore : Trimmed core) (hbehind : ∀ c ∈ behind, isBlank c = true) :
    trim (before ++ core ++ behind) = core := by
  have hreverse : ∀ c ∈ behind.reverse, isBlank c = true := by simpa using hbehind
  rw [trim, List.append_assoc, List.dropWhile_append_of_pos hbefore]
  by_cases hempty : core = []
  · have hnone : behind.dropWhile isBlank = [] := List.dropWhile_eq_nil_iff.mpr hbehind
    rw [hempty, List.nil_append, hnone]
    rfl
  · have hback : Trimmed core.reverse :=
      ⟨by simpa using hcore.last, by simpa using hcore.first⟩
    have hdrop := dropWhile_of_trimmed hback [] (by simpa using hempty)
    rw [List.append_nil] at hdrop
    rw [dropWhile_of_trimmed hcore behind hempty, List.reverse_append,
      List.dropWhile_append_of_pos hreverse, hdrop, List.reverse_reverse]

theorem trim_eq_self {cs : List Char} (h : ∀ c ∈ cs, isBlank c = false) : trim cs = cs := by
  have hnone : ∀ c ∈ ([] : List Char), isBlank c = true := List.forall_mem_nil _
  have htrim := trim_eq hnone (trimmed_of_forall h) hnone
  rwa [List.nil_append, List.append_nil] at htrim

theorem trimmed_trim (cs : List Char) : Trimmed (trim cs) := by
  change Trimmed ((cs.dropWhile isBlank).rdropWhile isBlank)
  constructor
  · intro c hc
    obtain ⟨behind, hbehind⟩ := List.rdropWhile_prefix isBlank (cs.dropWhile isBlank)
    have hhead : (cs.dropWhile isBlank).head? = some c := by
      rw [← hbehind, List.head?_append, hc]
      rfl
    have hnot := List.head?_dropWhile_not isBlank cs
    rwa [hhead] at hnot
  · intro c hc
    obtain ⟨hne, rfl⟩ := List.mem_getLast?_eq_getLast hc
    simpa using List.rdropWhile_last_not isBlank (cs.dropWhile isBlank) hne

theorem exists_trim (cs : List Char) :
    ∃ before behind, cs = before ++ trim cs ++ behind ∧ (∀ c ∈ before, isBlank c = true) ∧
      ∀ c ∈ behind, isBlank c = true := by
  refine ⟨cs.takeWhile isBlank, (cs.dropWhile isBlank).rtakeWhile isBlank, ?_,
    fun c hc => List.mem_takeWhile_imp hc, fun c hc => List.mem_rtakeWhile_imp hc⟩
  change cs = _ ++ (cs.dropWhile isBlank).rdropWhile isBlank ++ _
  rw [List.append_assoc, List.rdropWhile_append_rtakeWhile, List.takeWhile_append_dropWhile]

theorem isBlank_of_isDigit {c : Char} (h : c.isDigit = true) : isBlank c = false := by
  have hc : 48 ≤ c.toNat ∧ c.toNat ≤ 57 := Char.isDigit_iff_toNat.mp h
  simp only [isBlank, Bool.or_eq_false_iff, Bool.and_eq_false_iff, decide_eq_false_iff_not,
    beq_eq_false_iff_ne]
  omega

end ScriptBuiltins.Text
