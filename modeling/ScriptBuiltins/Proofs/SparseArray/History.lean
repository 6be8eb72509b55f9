import Mathlib.Order.Lattice.Nat
import ScriptBuiltins.Proofs.Equality
import ScriptBuiltins.Proofs.SparseArray

set_option autoImplicit false

/-! The same operations on an array and on a partial map from index to value give the same answers,
and at every point the elements, the size and the entries of the array are read off the map. -/
namespace ScriptBuiltins.SparseArray

variable {α : Type}

inductive Operation (α : Type) where
  | set (index : Nat) (value : α)
  | push (value : α)
  | unset (index : Nat)

inductive Answer (α : Type) where
  | set (accepted : Bool)
  | push
  | unset (removed : Option α)

namespace Operation

def onArray : Operation α → SparseArray α → Answer α × SparseArray α
  | set i v, a => (.set (a.set? i v).isSome, a.set i v)
  | push v, a => (.push, a.push v)
  | unset i, a =>
    let (removed, rest) := a.unset i
    (.unset removed, rest)

/-- One past the highest index of a partial map, or 0 if it has none. -/
noncomputable def extent (f : Nat → Option α) : Nat := sSup {n | ∃ i, (f i).isSome ∧ n = i + 1}

noncomputable def onMap : Operation α → (Nat → Option α) → Answer α × (Nat → Option α)
  | set i v, f =>
    if i ≤ maxIndex then (.set true, Function.update f i (some v)) else (.set false, f)
  | push v, f => (.push, Function.update f (extent f) (some v))
  | unset i, f => (.unset (f i), Function.update f i none)

end Operation

inductive Built : SparseArray α → (Nat → Option α) → Prop
  | empty : Built empty (fun _ => none)
  | ofList (values : List α) : Built (ofList values) (fun i => values[i]?)
  | step {a : SparseArray α} {f : Nat → Option α} (h : Built a f) (op : Operation α) :
    Built (op.onArray a).2 (op.onMap f).2

theorem Trimmed.extent_get? {a : SparseArray α} (ha : a.Trimmed) :
    Operation.extent a.get? = a.size := by
  rcases ha.size_cases with ⟨hsize, hnone⟩ | ⟨m, ⟨hm, hle⟩, hsize⟩
  · simp [Operation.extent, hnone, hsize]
  · apply IsGreatest.csSup_eq
    refine ⟨⟨m, hm, hsize⟩, ?_⟩
    rintro n ⟨i, hi, rfl⟩
    have := hle hi
    omega

theorem Trimmed.onArray {a : SparseArray α} (ha : a.Trimmed) (op : Operation α) :
    (op.onArray a).2.Trimmed := by
  cases op with
  | set i v => exact ha.set i v
  | push v => exact trimmed_push a v
  | unset i => exact trimmed_unset a i

theorem Trimmed.onArray_simulation {a : SparseArray α} (ha : a.Trimmed) (op : Operation α) :
    (op.onArray a).1 = (op.onMap a.get?).1 ∧ (op.onArray a).2.get? = (op.onMap a.get?).2 := by
  cases op with
  | set i v =>
    rcases Nat.lt_or_ge maxIndex i with h | h
    · simp [Operation.onArray, Operation.onMap, set?_eq_none h, set_eq_self h, Nat.not_le.mpr h]
    · simp [Operation.onArray, Operation.onMap, set?_eq_some h, get?_set h, h]
  | push v => exact ⟨rfl, by rw [Operation.onArray, Operation.onMap, get?_push, ha.extent_get?]⟩
  | unset i => exact ⟨rfl, get?_unset a i⟩

theorem Built.trimmed {a : SparseArray α} {f : Nat → Option α} (h : Built a f) : a.Trimmed := by
  induction h with
  | empty => exact trimmed_ofList []
  | ofList values => exact trimmed_ofList values
  | step _ op ih => exact ih.onArray op

theorem Built.get?_eq {a : SparseArray α} {f : Nat → Option α} (h : Built a f) : a.get? = f := by
  induction h with
  | empty => rfl
  | ofList values => exact get?_ofList values
  | step h op ih =>
    rw [← ih]
    exact (h.trimmed.onArray_simulation op).2

theorem Built.simulation {a : SparseArray Value} {f : Nat → Option Value} (h : Built a f) :
    a.slots.getLast? ≠ some none ∧
    ((a.size = 0 ∧ ∀ i, f i = none) ∨
      ∃ m, IsGreatest {i | (f i).isSome} m ∧ a.size = m + 1) ∧
    (∀ op : Operation Value,
      (op.onArray a).1 = (op.onMap f).1 ∧ (op.onArray a).2.get? = (op.onMap f).2) ∧
    (∀ i v, maxIndex < i → a.set i v = a) ∧
    (∀ v, (a.push v).get? = Function.update f a.size (some v)) ∧
    (∀ i, Value.element a i = (f i).getD .nothing ∧ a.isSet i = (f i).isSome) ∧
    a.entries.Pairwise (fun p q => p.1 < q.1) ∧
    (∀ i v, (i, v) ∈ a.entries ↔ f i = some v) ∧
    ∀ b g, Built b g →
      ((Value.array a).equal (.array b) = true ↔
        ∀ i, Option.Rel (fun v w => v.equal w = true) (f i) (g i)) := by
  obtain rfl := h.get?_eq
  refine ⟨h.trimmed, h.trimmed.size_cases, h.trimmed.onArray_simulation, ?_, get?_push a, ?_,
    pairwise_entries a, mem_entries a, ?_⟩
  · intro i v hi
    exact set_eq_self hi a v
  · intro i
    exact ⟨rfl, rfl⟩
  · intro b g hb
    obtain rfl := hb.get?_eq
    rw [Value.array_equal_iff, h.trimmed.forall₂_iff hb.trimmed]

/-- Without its last element an array ends in the element before the holes. -/
theorem simulation_unset_last :
    ∃ f, Built (((empty.set 0 (Value.scalar "x")).set 3 (.scalar "y")).unset 3).2 f ∧
      (((empty.set 0 (Value.scalar "x")).set 3 (.scalar "y")).unset 3).2.slots.getLast? ≠
        some none ∧
      (((empty.set 0 (Value.scalar "x")).set 3 (.scalar "y")).unset 3).2.size = 1 := by
  have h := ((Built.empty.step (.set 0 (Value.scalar "x"))).step (.set 3 (.scalar "y"))).step
    (.unset 3)
  exact ⟨_, h, h.simulation.1, by decide⟩

end ScriptBuiltins.SparseArray
