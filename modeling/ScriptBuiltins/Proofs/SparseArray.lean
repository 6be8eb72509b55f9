import Mathlib.Data.List.DropRight
import Mathlib.Data.List.Forall2
import Mathlib.Logic.Function.Basic
import Mathlib.Order.Bounds.Basic
import ScriptBuiltins.SparseArray

set_option autoImplicit false

namespace ScriptBuiltins.SparseArray

variable {α : Type}

/-- The slots do not end in a hole. -/
def Trimmed (a : SparseArray α) : Prop := a.slots.getLast? ≠ some none

theorem trimmed_iff (a : SparseArray α) : a.Trimmed ↔ a.slots[a.size - 1]? ≠ some none := by
  rw [Trimmed, List.getLast?_eq_getElem?]
  rfl

theorem get?_eq_none_of_size_le {a : SparseArray α} {i : Nat} (h : a.size ≤ i) :
    a.get? i = none := by
  have hi : a.slots[i]? = none := List.getElem?_eq_none h
  rw [get?, hi]
  rfl

theorem lt_size_of_get?_eq_some {a : SparseArray α} {i : Nat} {v : α} (h : a.get? i = some v) :
    i < a.size := by
  by_contra hi
  have hn := get?_eq_none_of_size_le (a := a) (i := i) (by omega)
  rw [hn] at h
  cases h

theorem Trimmed.exists_last {a : SparseArray α} (ha : a.Trimmed) (h : 0 < a.size) :
    ∃ v, a.get? (a.size - 1) = some v := by
  have hlast := (trimmed_iff a).mp ha
  have hlt : a.size - 1 < a.slots.length := Nat.sub_one_lt_of_lt h
  rw [List.getElem?_eq_getElem hlt] at hlast
  cases hs : a.slots[a.size - 1] with
  | none => simp [hs] at hlast
  | some v => exact ⟨v, by rw [get?, List.getElem?_eq_getElem hlt, hs]; rfl⟩

/-- The size is the least bound on the indices that are set. -/
theorem Trimmed.size_le_iff {a : SparseArray α} (ha : a.Trimmed) {n : Nat} :
    a.size ≤ n ↔ ∀ i, n ≤ i → a.get? i = none := by
  constructor
  · intro h i hi
    exact get?_eq_none_of_size_le (h.trans hi)
  · intro h
    by_contra hn
    obtain ⟨v, hv⟩ := ha.exists_last (by omega)
    rw [h _ (by omega)] at hv
    cases hv

theorem Trimmed.size_eq {β : Type} {a : SparseArray α} {b : SparseArray β} (ha : a.Trimmed)
    (hb : b.Trimmed) (h : ∀ i, a.get? i = none ↔ b.get? i = none) : a.size = b.size := by
  apply Nat.le_antisymm
  · rw [ha.size_le_iff]
    intro i hi
    exact (h i).mpr (get?_eq_none_of_size_le hi)
  · rw [hb.size_le_iff]
    intro i hi
    exact (h i).mp (get?_eq_none_of_size_le hi)

theorem Trimmed.size_cases {a : SparseArray α} (ha : a.Trimmed) :
    (a.size = 0 ∧ ∀ i, a.get? i = none) ∨
      ∃ m, IsGreatest {i | (a.get? i).isSome} m ∧ a.size = m + 1 := by
  rcases Nat.eq_zero_or_pos a.size with h | h
  · exact .inl ⟨h, fun i => get?_eq_none_of_size_le (by omega)⟩
  · refine .inr ⟨a.size - 1, ⟨?_, ?_⟩, by omega⟩
    · obtain ⟨v, hv⟩ := ha.exists_last h
      simp [hv]
    · intro i hi
      obtain ⟨v, hv⟩ := Option.isSome_iff_exists.mp hi
      have := lt_size_of_get?_eq_some hv
      omega

/-- Slots that are related one by one are found under the same indices. -/
theorem Trimmed.forall₂_iff {β : Type} {R : α → β → Prop} {a : SparseArray α} {b : SparseArray β}
    (ha : a.Trimmed) (hb : b.Trimmed) :
    List.Forall₂ (Option.Rel R) a.slots b.slots ↔ ∀ i, Option.Rel R (a.get? i) (b.get? i) := by
  rw [List.forall₂_iff_get]
  constructor
  · rintro ⟨hsize, hslots⟩ i
    by_cases hi : i < a.slots.length
    · have h := hslots i hi (hsize ▸ hi)
      rw [get?, get?, List.getElem?_eq_getElem hi, List.getElem?_eq_getElem (hsize ▸ hi)]
      exact h
    · have hb' : b.size ≤ i := by
        change b.slots.length ≤ i
        omega
      rw [get?_eq_none_of_size_le (Nat.le_of_not_lt hi), get?_eq_none_of_size_le hb']
      exact .none
  · intro h
    have hnone : ∀ i, a.get? i = none ↔ b.get? i = none := by
      intro i
      have hi := h i
      cases ha' : a.get? i <;> cases hb' : b.get? i <;> simp_all
    refine ⟨ha.size_eq hb hnone, ?_⟩
    intro i hia hib
    have hi := h i
    rw [get?, get?, List.getElem?_eq_getElem hia, List.getElem?_eq_getElem hib] at hi
    exact hi

theorem Trimmed.ext {a b : SparseArray α} (ha : a.Trimmed) (hb : b.Trimmed)
    (h : ∀ i, a.get? i = b.get? i) : a = b := by
  have hsize : a.slots.length = b.slots.length := ha.size_eq hb (fun i => by rw [h])
  have hslots : a.slots = b.slots := by
    apply List.ext_getElem hsize
    intro i hia hib
    have hi := h i
    rw [get?, get?, List.getElem?_eq_getElem hia, List.getElem?_eq_getElem hib] at hi
    exact hi
  cases a
  cases b
  exact congrArg mk hslots

theorem dropHoles_append_none (slots : List (Option α)) :
    dropHoles (slots ++ [none]) = dropHoles slots :=
  List.rdropWhile_concat_pos Option.isNone slots none rfl

theorem dropHoles_append_some (slots : List (Option α)) (v : α) :
    dropHoles (slots ++ [some v]) = slots ++ [some v] :=
  List.rdropWhile_concat_neg Option.isNone slots (some v) (by simp)

theorem trimmed_dropHoles (slots : List (Option α)) : Trimmed ⟨dropHoles slots⟩ := by
  induction slots using List.reverseRecOn with
  | nil => simp [Trimmed, dropHoles]
  | append_singleton slots slot ih =>
    cases slot with
    | none =>
      rw [dropHoles_append_none]
      exact ih
    | some v =>
      rw [dropHoles_append_some]
      simp [Trimmed]

theorem get?_append_none (slots : List (Option α)) (i : Nat) :
    get? ⟨slots ++ [none]⟩ i = get? ⟨slots⟩ i := by
  simp only [get?, List.getElem?_append, List.getElem?_singleton]
  split_ifs with h h'
  · rfl
  · rw [List.getElem?_eq_none (by omega)]
    rfl
  · rw [List.getElem?_eq_none (by omega)]

/-- A hole reads as what lies behind the end, so holes at the end can go. -/
theorem get?_dropHoles (slots : List (Option α)) (i : Nat) :
    get? ⟨dropHoles slots⟩ i = get? ⟨slots⟩ i := by
  induction slots using List.reverseRecOn with
  | nil => rfl
  | append_singleton slots slot ih =>
    cases slot with
    | none => rw [dropHoles_append_none, ih, get?_append_none]
    | some v => rw [dropHoles_append_some]

theorem trimmed_append {slots others : List (Option α)} (h : Trimmed ⟨slots⟩)
    (hothers : Trimmed ⟨others⟩) : Trimmed ⟨slots ++ others⟩ := by
  rw [Trimmed, List.getLast?_append]
  cases hlast : others.getLast? with
  | none => exact h
  | some slot => simpa [Trimmed, hlast] using hothers

theorem Trimmed.dropHoles_eq {a : SparseArray α} (ha : a.Trimmed) : dropHoles a.slots = a.slots :=
  congrArg slots ((trimmed_dropHoles a.slots).ext ha (get?_dropHoles a.slots))

theorem trimmed_of_last {a : SparseArray α} {v : α} (h : a.get? (a.size - 1) = some v) :
    a.Trimmed := by
  rw [trimmed_iff]
  intro hn
  rw [get?, hn] at h
  cases h

theorem trimmed_ofList (values : List α) : (ofList values).Trimmed := by
  rw [Trimmed, ofList, List.getLast?_map]
  cases values.getLast? <;> simp

theorem get?_ofList (values : List α) : (ofList values).get? = fun i => values[i]? := by
  funext i
  rw [get?, ofList, List.getElem?_map]
  cases values[i]? <;> rfl

theorem length_place (slots : List (Option α)) (i : Nat) (v : α) :
    (place slots i v).length = max slots.length (i + 1) := by
  rw [place, List.length_set, List.length_append, List.length_replicate]
  omega

theorem get?_place (slots : List (Option α)) (i : Nat) (v : α) :
    get? ⟨place slots i v⟩ = Function.update (get? ⟨slots⟩) i (some v) := by
  funext j
  by_cases h : j = i
  · subst j
    rw [Function.update_self, get?, place, List.getElem?_set_self]
    · rfl
    · rw [List.length_append, List.length_replicate]
      omega
  · rw [Function.update_of_ne h, get?, place, List.getElem?_set_ne (Ne.symm h), get?,
      List.getElem?_append]
    split_ifs with hj
    · rfl
    · rw [List.getElem?_replicate, List.getElem?_eq_none (l := slots) (by omega)]
      split_ifs <;> rfl

theorem trimmed_place {slots : List (Option α)} (h : Trimmed ⟨slots⟩) (i : Nat) (v : α) :
    Trimmed ⟨place slots i v⟩ := by
  have hsize : size ⟨place slots i v⟩ = max slots.length (i + 1) := length_place slots i v
  by_cases hi : slots.length ≤ i + 1
  · apply trimmed_of_last (v := v)
    rw [get?_place, hsize, Nat.max_eq_right hi]
    exact Function.update_self ..
  · obtain ⟨w, hw⟩ := h.exists_last (show 0 < slots.length by omega)
    apply trimmed_of_last (v := w)
    rw [get?_place, hsize, Nat.max_eq_left (by omega), Function.update_of_ne (by omega)]
    exact hw

theorem set?_eq_some {i : Nat} (h : i ≤ maxIndex) (a : SparseArray α) (v : α) :
    a.set? i v = some (a.set i v) := by
  simp [set, set?, h]

theorem set?_eq_none {i : Nat} (h : maxIndex < i) (a : SparseArray α) (v : α) :
    a.set? i v = none := by
  simp [set?, h]

theorem set_eq_self {i : Nat} (h : maxIndex < i) (a : SparseArray α) (v : α) :
    a.set i v = a := by
  rw [set, set?_eq_none h]
  rfl

theorem set_eq_place {i : Nat} (h : i ≤ maxIndex) (a : SparseArray α) (v : α) :
    a.set i v = ⟨place a.slots i v⟩ := by
  simp [set, set?, h]

theorem get?_set {i : Nat} (h : i ≤ maxIndex) (a : SparseArray α) (v : α) :
    (a.set i v).get? = Function.update a.get? i (some v) := by
  rw [set_eq_place h, get?_place]

theorem Trimmed.set {a : SparseArray α} (ha : a.Trimmed) (i : Nat) (v : α) :
    (a.set i v).Trimmed := by
  rcases Nat.lt_or_ge maxIndex i with h | h
  · rw [set_eq_self h]
    exact ha
  · rw [set_eq_place h]
    exact trimmed_place ha i v

theorem trimmed_push (a : SparseArray α) (v : α) : (a.push v).Trimmed := by
  simp [Trimmed, push]

theorem get?_push (a : SparseArray α) (v : α) :
    (a.push v).get? = Function.update a.get? a.size (some v) := by
  funext i
  by_cases h : i = a.size
  · subst i
    rw [Function.update_self, get?, push, size, List.getElem?_concat_length]
    rfl
  · rw [Function.update_of_ne h, get?, get?, push, List.getElem?_append]
    split_ifs with hi
    · rfl
    · have hlt : a.slots.length < i := Nat.lt_of_le_of_ne (by omega) (Ne.symm h)
      rw [List.getElem?_eq_none (l := a.slots) hlt.le, List.getElem?_eq_none]
      rw [List.length_singleton]
      omega

theorem trimmed_unset (a : SparseArray α) (i : Nat) : (a.unset i).2.Trimmed :=
  trimmed_dropHoles (a.slots.set i none)

theorem get?_unset (a : SparseArray α) (i : Nat) :
    (a.unset i).2.get? = Function.update a.get? i none := by
  funext j
  rw [unset, get?_dropHoles]
  by_cases h : j = i
  · subst j
    rw [Function.update_self, get?, List.getElem?_set_self']
    cases a.slots[i]? <;> rfl
  · rw [Function.update_of_ne h, get?, List.getElem?_set_ne (Ne.symm h), get?]

theorem mem_entriesFrom (slots : List (Option α)) (start i : Nat) (v : α) :
    (i, v) ∈ entriesFrom start slots ↔ start ≤ i ∧ get? ⟨slots⟩ (i - start) = some v := by
  induction slots generalizing start with
  | nil => simp [entriesFrom, get?]
  | cons slot slots ih =>
    have tail : start + 1 ≤ i →
        get? ⟨slot :: slots⟩ (i - start) = get? ⟨slots⟩ (i - (start + 1)) := by
      intro h
      rw [show i - start = i - (start + 1) + 1 by omega]
      rfl
    have head : i = start → get? ⟨slot :: slots⟩ (i - start) = slot := by
      rintro rfl
      rw [Nat.sub_self]
      rfl
    cases slot with
    | none =>
      rw [entriesFrom, ih]
      grind
    | some w =>
      rw [entriesFrom, List.mem_cons, ih]
      grind

theorem pairwise_entriesFrom (slots : List (Option α)) (start : Nat) :
    (entriesFrom start slots).Pairwise (fun p q => p.1 < q.1) := by
  induction slots generalizing start with
  | nil => exact List.Pairwise.nil
  | cons slot slots ih =>
    cases slot with
    | none => exact ih (start + 1)
    | some v =>
      refine List.Pairwise.cons ?_ (ih (start + 1))
      rintro ⟨i, w⟩ hi
      exact ((mem_entriesFrom slots (start + 1) i w).mp hi).1

theorem mem_entries (a : SparseArray α) (i : Nat) (v : α) :
    (i, v) ∈ a.entries ↔ a.get? i = some v := by
  simp [entries, mem_entriesFrom]

theorem pairwise_entries (a : SparseArray α) : a.entries.Pairwise (fun p q => p.1 < q.1) :=
  pairwise_entriesFrom a.slots 0

end ScriptBuiltins.SparseArray
