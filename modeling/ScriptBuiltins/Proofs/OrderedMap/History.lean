import Mathlib.Data.List.Induction
import Mathlib.Data.Set.Card
import ScriptBuiltins.Proofs.History
import ScriptBuiltins.Proofs.OrderedMap
import ScriptBuiltins.Value

set_option autoImplicit false

/-! Under a key there is what was last written to it, unless it was removed since. The keys stand in
the order in which they were entered: a key is entered when it is written while it is not there. -/
namespace ScriptBuiltins.OrderedMap

variable {α : Type}

inductive Operation (α : Type) where
  | set (key : String) (value : α)
  | remove (key : String)

namespace Operation

def key : Operation α → String
  | set key _ => key
  | remove key => key

def value? : Operation α → Option α
  | set _ value => some value
  | remove _ => none

def apply (m : OrderedMap α) : Operation α → OrderedMap α
  | set key value => m.insert key value
  | remove key => (m.remove key).2

end Operation

def opening (pairs : List (String × α)) : List (Operation α) :=
  pairs.map fun pair => .set pair.1 pair.2

def LastSet (ops : List (Operation α)) (key : String) (value : α) : Prop :=
  ∃ before after, ops = before ++ .set key value :: after ∧ ∀ op ∈ after, op.key ≠ key

/-- The operation at `i` set the key while nothing was under it, and no later one removed it. -/
def EnteredAt (ops : List (Operation α)) (key : String) (i : Nat) : Prop :=
  ∃ before value after, ops = before ++ .set key value :: after ∧ before.length = i ∧
    (∀ old, ¬ LastSet before key old) ∧ .remove key ∉ after

def EnteredBefore (ops : List (Operation α)) (key other : String) : Prop :=
  ∃ i j, EnteredAt ops key i ∧ EnteredAt ops other j ∧ i < j

theorem Distinct.apply {m : OrderedMap α} (h : m.Distinct) (op : Operation α) :
    (op.apply m).Distinct := by
  cases op with
  | set key value => exact h.insert key value
  | remove key => exact h.erase key

theorem Distinct.get?_apply {m : OrderedMap α} (h : m.Distinct) (op : Operation α) :
    (op.apply m).get? = Function.update m.get? op.key op.value? := by
  cases op with
  | set key value => exact m.get?_insert key value
  | remove key => exact h.get?_erase key

theorem lastSet_concat (ops : List (Operation α)) (op : Operation α) (key : String) (value : α) :
    LastSet (ops ++ [op]) key value ↔
      if op.key = key then op.value? = some value else LastSet ops key value := by
  have hset : (Operation.set key value).key = key := rfl
  have hlast := History.exists_last_concat (fun op => op.key = key) ops op (.set key value)
  simp only [hset, true_and] at hlast
  refine hlast.trans ?_
  split_ifs with hkey
  · subst hkey
    cases op <;> simp [Operation.key, Operation.value?]
  · rfl

theorem EnteredAt.lt_length {ops : List (Operation α)} {key : String} {i : Nat}
    (h : EnteredAt ops key i) : i < ops.length := by
  obtain ⟨before, value, after, rfl, rfl, _, _⟩ := h
  simp

theorem EnteredAt.concat {ops : List (Operation α)} {key : String} {i : Nat}
    (h : EnteredAt ops key i) {op : Operation α} (hop : op ≠ .remove key) :
    EnteredAt (ops ++ [op]) key i := by
  obtain ⟨before, value, after, rfl, hi, hnew, hkept⟩ := h
  refine ⟨before, value, after ++ [op], by simp, hi, hnew, ?_⟩
  simp [hkept, Ne.symm hop]

theorem EnteredBefore.concat {ops : List (Operation α)} {key other : String}
    (h : EnteredBefore ops key other) {op : Operation α} (hkey : op ≠ .remove key)
    (hother : op ≠ .remove other) : EnteredBefore (ops ++ [op]) key other := by
  obtain ⟨i, j, hi, hj, hlt⟩ := h
  exact ⟨i, j, hi.concat hkey, hj.concat hother, hlt⟩

theorem enteredAt_length {ops : List (Operation α)} {key : String}
    (h : ∀ old, ¬ LastSet ops key old) (value : α) :
    EnteredAt (ops ++ [.set key value]) key ops.length :=
  ⟨ops, value, [], rfl, rfl, h, List.not_mem_nil⟩

theorem distinct_foldl_apply (ops : List (Operation α)) :
    (ops.foldl Operation.apply empty).Distinct := by
  induction ops using List.reverseRecOn with
  | nil => exact List.nodup_nil
  | append_singleton ops op ih =>
    rw [List.foldl_concat]
    exact ih.apply op

theorem get?_foldl_apply (ops : List (Operation α)) (key : String) (value : α) :
    (ops.foldl Operation.apply empty).get? key = some value ↔ LastSet ops key value := by
  induction ops using List.reverseRecOn with
  | nil => simp [get?, empty, LastSet]
  | append_singleton ops op ih =>
    rw [List.foldl_concat, (distinct_foldl_apply ops).get?_apply, lastSet_concat, ← ih]
    split_ifs with h
    · rw [← h, Function.update_self]
    · rw [Function.update_of_ne (Ne.symm h)]

theorem mem_keys_foldl_apply (ops : List (Operation α)) (key : String) :
    key ∈ (ops.foldl Operation.apply empty).keys ↔ ∃ value, LastSet ops key value := by
  rw [← not_iff_not, ← get?_eq_none_iff, Option.eq_none_iff_forall_ne_some, not_exists]
  simp only [← get?_foldl_apply, ne_eq]

theorem exists_enteredAt {ops : List (Operation α)} {key : String} {value : α}
    (h : LastSet ops key value) : ∃ i, EnteredAt ops key i := by
  induction ops using List.reverseRecOn generalizing value with
  | nil =>
    obtain ⟨before, after, hops, _⟩ := h
    simp at hops
  | append_singleton ops op ih =>
    rw [lastSet_concat] at h
    split_ifs at h with hkey
    · cases op with
      | set written new =>
        cases hkey
        by_cases hold : ∃ old, LastSet ops written old
        · obtain ⟨i, hi⟩ := ih hold.choose_spec
          exact ⟨i, hi.concat (by simp)⟩
        · exact ⟨ops.length, enteredAt_length (not_exists.mp hold) new⟩
      | remove written => cases h
    · obtain ⟨i, hi⟩ := ih h
      exact ⟨i, hi.concat (by rintro rfl; exact hkey rfl)⟩

theorem EnteredAt.exists_lastSet {ops : List (Operation α)} {key : String} {i : Nat}
    (h : EnteredAt ops key i) : ∃ value, LastSet ops key value := by
  obtain ⟨before, value, after, rfl, _, _, hkept⟩ := h
  induction after using List.reverseRecOn with
  | nil => exact ⟨value, before, [], rfl, by simp⟩
  | append_singleton after op ih =>
    rw [List.mem_append, not_or, List.mem_singleton] at hkept
    rw [← List.cons_append, ← List.append_assoc]
    simp only [lastSet_concat]
    split_ifs with hkey
    · cases op with
      | set written new => exact ⟨new, rfl⟩
      | remove written => exact absurd (congrArg Operation.remove hkey.symm) hkept.2
    · exact ih hkept.1

theorem EnteredAt.not_lt {ops : List (Operation α)} {key : String} {i j : Nat}
    (hi : EnteredAt ops key i) (hj : EnteredAt ops key j) : ¬ i < j := by
  intro hlt
  obtain ⟨before, value, after, rfl, rfl, hnew, hkept⟩ := hi
  obtain ⟨before', value', after', hops, rfl, hnew', _⟩ := hj
  obtain ⟨between, rfl, hbetween⟩ | ⟨_, rfl, _⟩ := List.append_eq_append_iff.mp hops
  · cases between with
    | nil => simp at hlt
    | cons op between =>
      -- The first entry was not removed before the second, so then the key was there.
      obtain ⟨rfl, rfl⟩ := List.cons.inj hbetween
      have hfirst : EnteredAt (before ++ .set key value :: between) key before.length :=
        ⟨before, value, between, rfl, rfl, hnew, fun h => hkept (List.mem_append_left _ h)⟩
      obtain ⟨old, hold⟩ := hfirst.exists_lastSet
      exact hnew' old hold
  · simp at hlt

theorem pairwise_keys_foldl_apply (ops : List (Operation α)) :
    (ops.foldl Operation.apply empty).keys.Pairwise (EnteredBefore ops) := by
  induction ops using List.reverseRecOn with
  | nil => exact List.Pairwise.nil
  | append_singleton ops op ih =>
    have hmem := mem_keys_foldl_apply ops
    have hdistinct := distinct_foldl_apply ops
    rw [List.foldl_concat]
    generalize ops.foldl Operation.apply empty = m at ih hmem hdistinct
    cases op with
    | set key value =>
      have hold : m.keys.Pairwise (EnteredBefore (ops ++ [.set key value])) :=
        ih.imp fun h => h.concat (by simp) (by simp)
      rw [Operation.apply, keys, insert, keys_insertEntry]
      split_ifs with hkey
      · exact hold
      · have hnew : ∀ old, ¬ LastSet ops key old := not_exists.mp (mt (hmem key).mpr hkey)
        refine List.pairwise_append.mpr ⟨hold, List.pairwise_singleton _ key, ?_⟩
        intro other hother last hlast
        rw [List.mem_singleton.mp hlast]
        obtain ⟨_, hvalue⟩ := (hmem other).mp hother
        obtain ⟨i, hi⟩ := exists_enteredAt hvalue
        exact ⟨i, ops.length, hi.concat (by simp), enteredAt_length hnew value, hi.lt_length⟩
    | remove key =>
      rw [Operation.apply, remove, hdistinct.keys_erase, List.pairwise_filter]
      refine ih.imp fun h hkey hother => h.concat ?_ ?_
      · rintro ⟨⟩
        simp at hkey
      · rintro ⟨⟩
        simp at hother

theorem foldl_apply_ofList (pairs : List (String × α)) (ops : List (Operation α)) :
    ops.foldl Operation.apply (ofList pairs) =
      (opening pairs ++ ops).foldl Operation.apply empty := by
  rw [List.foldl_append, opening, List.foldl_map]
  rfl

theorem size_foldl_apply (ops : List (Operation α)) :
    (ops.foldl Operation.apply empty).size = {key | ∃ value, LastSet ops key value}.ncard := by
  have hkeys : {key | ∃ value, LastSet ops key value} =
      (ops.foldl Operation.apply empty).keys.toFinset := by
    ext key
    simp [mem_keys_foldl_apply]
  rw [hkeys, Set.ncard_coe_finset, List.toFinset_card_of_nodup (distinct_foldl_apply ops)]
  exact (List.length_map _).symm

theorem history_of_entries (pairs : List (String × Value)) (ops : List (Operation Value)) :
    let m := ops.foldl Operation.apply (ofList pairs)
    let history := opening pairs ++ ops
    m.keys.Nodup ∧
    m.entries = m.keys.zip m.values ∧
    (∀ key, key ∈ m.keys ↔ ∃! i, EnteredAt history key i) ∧
    m.keys.Pairwise (EnteredBefore history) ∧
    (∀ key value, m.get? key = some value ↔ LastSet history key value) ∧
    (∀ key, (m.remove key).1 = m.get? key ∧ Value.member m key = (m.get? key).getD .nothing) ∧
    m.size = {key | ∃ value, LastSet history key value}.ncard ∧
    (∀ op : Operation Value, (op.apply m).get? = Function.update m.get? op.key op.value?) ∧
    (∀ key value,
      (m.insert key value).keys = if key ∈ m.keys then m.keys else m.keys ++ [key]) ∧
    ∀ key, (m.remove key).2.entries = m.entries.filter (·.1 != key) := by
  intro m history
  have hm : m = history.foldl Operation.apply empty := foldl_apply_ofList pairs ops
  have hdistinct : m.Distinct := hm ▸ distinct_foldl_apply history
  refine ⟨hdistinct, List.zip_of_prod rfl rfl, ?_, hm ▸ pairwise_keys_foldl_apply history, ?_,
    fun key => ⟨rfl, rfl⟩, hm ▸ size_foldl_apply history, hdistinct.get?_apply, ?_,
    hdistinct.entries_erase⟩
  · intro key
    rw [hm, mem_keys_foldl_apply]
    constructor
    · rintro ⟨_, hvalue⟩
      obtain ⟨i, hi⟩ := exists_enteredAt hvalue
      refine ⟨i, hi, fun j hj => ?_⟩
      exact Nat.le_antisymm (Nat.le_of_not_lt (hi.not_lt hj)) (Nat.le_of_not_lt (hj.not_lt hi))
    · rintro ⟨i, hi, _⟩
      exact hi.exists_lastSet
  · intro key value
    rw [hm, get?_foldl_apply]
  · intro key value
    exact keys_insertEntry key value m.entries

/-- A key that is written again keeps its place; one that was removed before goes to the end. -/
example :
    (([.set "b" 5, .remove "a", .set "a" 4] : List (Operation Nat)).foldl Operation.apply
      (ofList [("a", 1), ("b", 2), ("c", 3)])).entries = [("b", 5), ("c", 3), ("a", 4)] := by
  decide

end ScriptBuiltins.OrderedMap
