import Mathlib.Logic.Relation
import ScriptBuiltins.Proofs.Dates.Order

set_option autoImplicit false

namespace ScriptBuiltins.DateFormat

def abbreviations : List (Char × String) :=
  [('T', "H:M:S"), ('R', "H:M"), ('D', "m/d/y"), ('F', "Y-m-d"), ('r', "I:M:S p"), ('h', "b"),
    ('W', "V")]

/-- One abbreviation in a format is spelled out. -/
inductive SpelledOut : String → String → Prop
  | letter (before after : String) {c : Char} {text : String} (h : (c, text) ∈ abbreviations) :
    SpelledOut (before ++ String.singleton c ++ after) (before ++ text ++ after)

theorem format_append (s s' : String) (t : CivilTime) :
    format (s ++ s') t = format s t ++ format s' t := by
  simp only [format, String.toList_append, List.flatMap_append, String.ofList_append]

theorem format_singleton (c : Char) (t : CivilTime) :
    format (String.singleton c) t = String.ofList (expand t c) := by
  rw [format, String.toList_singleton, List.flatMap_singleton]

theorem column_natCast (width : Nat) (fill : Char) (n : Nat) :
    column width fill n = (digits n).leftpad width fill := by
  rw [column, if_neg (by omega), List.nil_append, Int.natAbs_natCast]

theorem expand_abbreviation {c : Char} {text : String} (h : (c, text) ∈ abbreviations)
    (t : CivilTime) : expand t c = text.toList.flatMap (expand t) := by
  simp only [abbreviations, List.mem_cons, Prod.mk.injEq, List.not_mem_nil, or_false] at h
  obtain ⟨rfl, rfl⟩ | ⟨rfl, rfl⟩ | ⟨rfl, rfl⟩ | ⟨rfl, rfl⟩ | ⟨rfl, rfl⟩ | ⟨rfl, rfl⟩ | ⟨rfl, rfl⟩ :=
    h
  all_goals simp [expand, column_natCast, two]

theorem expand_of_not_isAlpha {c : Char} (h : c.isAlpha = false) (t : CivilTime) :
    expand t c = [c] := by
  unfold expand
  split
  all_goals first | contradiction | rfl

theorem SpelledOut.format_eq {s s' : String} (h : SpelledOut s s') (t : CivilTime) :
    format s t = format s' t := by
  cases h with
  | letter before after hmem =>
    have hletter : format (String.singleton _) t = format _ t :=
      (format_singleton _ t).trans (congrArg String.ofList (expand_abbreviation hmem t))
    rw [format_append, format_append, format_append, format_append, hletter]

theorem format_eq_of_steps {s s' : String} (h : Relation.ReflTransGen SpelledOut s s')
    (t : CivilTime) : format s t = format s' t := by
  induction h with
  | refl => rfl
  | tail _ hstep ih => rw [ih, hstep.format_eq t]

theorem SpelledOut.append {s s' : String} (h : SpelledOut s s') (before after : String) :
    SpelledOut (before ++ s ++ after) (before ++ s' ++ after) := by
  cases h with
  | letter left right hmem =>
    have hstep := SpelledOut.letter (before ++ left) (right ++ after) hmem
    simpa only [String.append_assoc] using hstep

def Primitive (s : String) : Prop := ∀ c ∈ s.toList, c ∉ abbreviations.map Prod.fst

theorem primitive_of_mem {c : Char} {text : String} (h : (c, text) ∈ abbreviations) :
    Primitive text := by
  have hall : ∀ entry ∈ abbreviations, Primitive entry.2 := by
    simp [Primitive, abbreviations]
  exact hall _ h

theorem Primitive.append {s s' : String} (h : Primitive s) (h' : Primitive s') :
    Primitive (s ++ s') := by
  intro c hc
  rw [String.toList_append, List.mem_append] at hc
  exact hc.elim (h c) (h' c)

/-- Every format can be spelled out to the end. -/
theorem exists_primitive (s : String) :
    ∃ full, Relation.ReflTransGen SpelledOut s full ∧ Primitive full := by
  rw [← String.ofList_toList (s := s)]
  induction s.toList with
  | nil => exact ⟨_, .refl, List.forall_mem_nil _⟩
  | cons c cs ih =>
    obtain ⟨full, hsteps, hfull⟩ := ih
    have hcons : String.ofList (c :: cs) = String.singleton c ++ String.ofList cs := by
      rw [String.singleton_eq_ofList, ← String.ofList_append, List.singleton_append]
    have hlift : ∀ text : String,
        Relation.ReflTransGen SpelledOut (text ++ String.ofList cs) (text ++ full) := by
      intro text
      refine hsteps.lift (text ++ ·) fun s s' h => ?_
      simpa only [String.append_empty] using h.append text ""
    rw [hcons]
    by_cases hc : c ∈ abbreviations.map Prod.fst
    · obtain ⟨⟨_, text⟩, hmem, rfl⟩ := List.mem_map.mp hc
      have hfirst := SpelledOut.letter "" (String.ofList cs) hmem
      rw [String.empty_append, String.empty_append] at hfirst
      exact ⟨text ++ full, .head hfirst (hlift text), (primitive_of_mem hmem).append hfull⟩
    · refine ⟨String.singleton c ++ full, hlift _, Primitive.append ?_ hfull⟩
      intro d hd
      rw [String.toList_singleton, List.mem_singleton] at hd
      rwa [hd]

/-- Abbreviations may be spelled out one after the other, as many as there are, and what stands
between the directives that are put in stands for itself. -/
theorem format_of_spelledOut {s s' : String} (h : Relation.ReflTransGen SpelledOut s s')
    (t : CivilTime) :
    format s t = format s' t ∧
    (∃ full, Relation.ReflTransGen SpelledOut s' full ∧ Primitive full ∧
      format s t = format full t) ∧
    ∀ entry ∈ abbreviations, ∀ c ∈ entry.2.toList, c.isAlpha = false →
      format (String.singleton c) t = String.singleton c := by
  refine ⟨format_eq_of_steps h t, ?_, ?_⟩
  · obtain ⟨full, hsteps, hfull⟩ := exists_primitive s'
    exact ⟨full, hsteps, hfull, format_eq_of_steps (h.trans hsteps) t⟩
  · intro entry _ c _ hc
    rw [format_singleton, expand_of_not_isAlpha hc, String.singleton_eq_ofList]

/-- One of two dates and the time of day, where the fields are those of no time. -/
theorem format_of_spelledOut_overwide :
    let t : CivilTime := ⟨-5, 130, 7, 203, 60, 5, 400, 0, 0, 0, 24, 60⟩
    Relation.ReflTransGen SpelledOut "F F T" "F Y-m-d H:M:S" ∧
      format "F F T" t = format "F Y-m-d H:M:S" t ∧
      format "F F T" t = "-005-130-07 -005-130-07 203:60:05" := by
  intro t
  have hdate : SpelledOut "F F T" "F Y-m-d T" :=
    .letter "F " " T" (show ('F', "Y-m-d") ∈ abbreviations by decide)
  have htime : SpelledOut "F Y-m-d T" "F Y-m-d H:M:S" :=
    .letter "F Y-m-d " "" (show ('T', "H:M:S") ∈ abbreviations by decide)
  have hsteps := (Relation.ReflTransGen.single hdate).tail htime
  exact ⟨hsteps, (format_of_spelledOut hsteps t).1, by decide⟩

end ScriptBuiltins.DateFormat
