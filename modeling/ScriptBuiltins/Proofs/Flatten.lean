import Mathlib.Algebra.GroupWithZero.Nat
import ScriptBuiltins.Proofs.Call
import ScriptBuiltins.Proofs.Registry
import ScriptBuiltins.Proofs.SparseArray

set_option autoImplicit false

namespace ScriptBuiltins.Value

open SparseArray (maxIndex dropHoles entriesFrom)

def slots : Value → List (Option Value)
  | nothing => [some nothing]
  | scalar text => [some (scalar text)]
  | array items => items.slots
  | map entries => entries.values.map some

def width : Value → Nat
  | nothing | scalar _ => 1
  | array items => items.size
  | map entries => entries.size

theorem length_slots (v : Value) : v.slots.length = v.width := by
  cases v with
  | nothing => rfl
  | scalar text => rfl
  | array items => rfl
  | map entries => simp [slots, width, OrderedMap.values, OrderedMap.size]

/-- The flat array holds all of `laid` that its indices reach, and `next` is the place behind. -/
structure Holds (flat : SparseArray Value) (next : Nat) (laid : List (Option Value)) : Prop where
  next_eq : next = laid.length
  trimmed : flat.Trimmed
  get?_eq : ∀ i, flat.get? i = if i ≤ maxIndex then SparseArray.get? ⟨laid⟩ i else none

theorem holds_empty : Holds .empty 0 [] where
  next_eq := rfl
  trimmed := SparseArray.trimmed_ofList []
  get?_eq := by
    intro i
    split_ifs <;> rfl

theorem Holds.hole {flat : SparseArray Value} {next : Nat} {laid : List (Option Value)}
    (h : Holds flat next laid) : Holds flat (next + 1) (laid ++ [none]) where
  next_eq := by simp [h.next_eq]
  trimmed := h.trimmed
  get?_eq := by
    intro i
    rw [SparseArray.get?_append_none, h.get?_eq]

theorem Holds.value {flat : SparseArray Value} {next : Nat} {laid : List (Option Value)}
    (h : Holds flat next laid) (v : Value) :
    Holds (flat.set next v) (next + 1) (laid ++ [some v]) where
  next_eq := by simp [h.next_eq]
  trimmed := h.trimmed.set next v
  get?_eq := by
    intro i
    have hlaid : SparseArray.get? ⟨laid ++ [some v]⟩ =
        Function.update (SparseArray.get? ⟨laid⟩) next (some v) := by
      rw [h.next_eq]
      exact SparseArray.get?_push ⟨laid⟩ v
    rw [hlaid]
    -- A value past `maxIndex` is refused, and `laid` is not read there either.
    rcases Nat.lt_or_ge maxIndex next with hnext | hnext
    · rw [SparseArray.set_eq_self hnext, h.get?_eq]
      split_ifs with hi
      · rw [Function.update_of_ne (by omega)]
      · rfl
    · rw [SparseArray.get?_set hnext]
      by_cases hi : i = next
      · subst i
        rw [Function.update_self, Function.update_self, if_pos hnext]
      · rw [Function.update_of_ne hi, Function.update_of_ne hi, h.get?_eq]

theorem Holds.entriesFrom {flat : SparseArray Value} {next : Nat} {laid : List (Option Value)}
    (start : Nat) (slots : List (Option Value)) (h : Holds flat (next + start) laid) :
    Holds ((entriesFrom start slots).foldl (fun flat (i, v) => flat.set (next + i) v) flat)
      (next + start + slots.length) (laid ++ slots) := by
  -- `start` slots of the array are behind the loop, holes among them that it did not see.
  induction slots generalizing start flat laid with
  | nil => simpa [SparseArray.entriesFrom] using h
  | cons slot slots ih =>
    have hlen : next + start + (slot :: slots).length = next + (start + 1) + slots.length := by
      rw [List.length_cons]
      omega
    rw [hlen, List.append_cons]
    cases slot with
    | none => exact ih (start + 1) h.hole
    | some v => exact ih (start + 1) (h.value v)

theorem Holds.values {flat : SparseArray Value} {next : Nat} {laid : List (Option Value)}
    (values : List Value) (h : Holds flat next laid) :
    let state := values.foldl (fun (flat, next) v => (flat.set next v, next + 1)) (flat, next)
    Holds state.1 state.2 (laid ++ values.map some) := by
  induction values generalizing flat next laid with
  | nil => simpa using h
  | cons v values ih =>
    rw [List.map_cons, List.append_cons]
    exact ih (h.value v)

theorem Holds.flattenStep {state : SparseArray Value × Nat} {laid : List (Option Value)}
    (h : Holds state.1 state.2 laid) (arg : Value) :
    Holds (flattenStep state arg).1 (flattenStep state arg).2 (laid ++ arg.slots) := by
  obtain ⟨flat, next⟩ := state
  cases arg with
  | nothing => exact h.value nothing
  | scalar text => exact h.value (scalar text)
  | array items => exact h.entriesFrom 0 items.slots
  | map entries => exact h.values entries.values

theorem Holds.foldl {state : SparseArray Value × Nat} {laid : List (Option Value)}
    (h : Holds state.1 state.2 laid) (args : List Value) :
    Holds (args.foldl Value.flattenStep state).1 (args.foldl Value.flattenStep state).2
      (laid ++ args.flatMap slots) := by
  induction args generalizing state laid with
  | nil => simpa using h
  | cons arg args ih =>
    rw [List.flatMap_cons, ← List.append_assoc]
    exact ih (h.flattenStep arg)

theorem flatten_eq (args : List Value) :
    flatten args = ⟨dropHoles ((args.flatMap slots).take (maxIndex + 1))⟩ := by
  have h : Holds (flatten args) _ ([] ++ args.flatMap slots) := holds_empty.foldl args
  apply h.trimmed.ext (SparseArray.trimmed_dropHoles _)
  intro i
  rw [h.get?_eq, SparseArray.get?_dropHoles, List.nil_append]
  simp only [SparseArray.get?, List.getElem?_take, Nat.lt_succ_iff]
  split_ifs <;> rfl

theorem trimmed_slots {v : Value} (h : ∀ items, v = array items → items.Trimmed) :
    SparseArray.Trimmed ⟨v.slots⟩ := by
  cases v with
  | nothing => exact SparseArray.trimmed_ofList [nothing]
  | scalar text => exact SparseArray.trimmed_ofList [scalar text]
  | array items => exact h items rfl
  | map entries => exact SparseArray.trimmed_ofList entries.values

theorem trimmed_flatMap_slots {args : List Value}
    (h : ∀ items, array items ∈ args → items.Trimmed) :
    SparseArray.Trimmed ⟨args.flatMap slots⟩ := by
  induction args with
  | nil => exact SparseArray.trimmed_ofList []
  | cons arg args ih =>
    rw [List.flatMap_cons]
    apply SparseArray.trimmed_append
    · apply trimmed_slots
      rintro items rfl
      exact h items List.mem_cons_self
    · exact ih (fun items hitems => h items (List.mem_cons_of_mem arg hitems))

theorem slots_flatten {args : List Value} (h : ∀ items, array items ∈ args → items.Trimmed)
    (hfit : (args.flatMap slots).length ≤ maxIndex + 1) :
    (flatten args).slots = args.flatMap slots := by
  rw [flatten_eq, List.take_of_length_le hfit]
  exact (trimmed_flatMap_slots h).dropHoles_eq

theorem length_flatMap_slots (args : List Value) :
    (args.flatMap slots).length = (args.map width).sum := by
  rw [List.length_flatMap]
  exact congrArg List.sum (List.map_congr_left fun v _ => length_slots v)

theorem getElem?_flatMap_slots (before after : List Value) (arg : Value) {i : Nat}
    (h : i < arg.width) :
    ((before ++ arg :: after).flatMap slots)[(before.map width).sum + i]? = arg.slots[i]? := by
  rw [List.flatMap_append, List.flatMap_cons, ← length_flatMap_slots,
    List.getElem?_append_right (Nat.le_add_right _ _), Nat.add_sub_cancel_left,
    List.getElem?_append_left (by rwa [length_slots])]

/-- The slots of the arguments one after the other, as far as the indices of an array go and without
the holes at the end, are the slots of the flat array. -/
theorem call_flatten {disabled : List String} {name : String}
    (hname : Builtin.flatten.goesBy name = true)
    (henabled : Text.anyIgnoringCase disabled name = false) (site : CallSite) (args : List Value) :
    ∃ flat : SparseArray Value,
      ((Registry.initial true disabled).call site name args).result = .ok ⟨array flat, none⟩ ∧
      flat.slots = dropHoles ((args.flatMap slots).take (maxIndex + 1)) ∧
      ((∀ items, array items ∈ args → items.Trimmed) →
        (args.flatMap slots).length ≤ maxIndex + 1 →
        flat.slots = args.flatMap slots ∧
        flat.size = (args.map width).sum ∧
        ∀ before arg after, args = before ++ arg :: after → ∀ i, i < arg.width →
          flat.slots[(before.map width).sum + i]? = arg.slots[i]?) := by
  refine ⟨flatten args, ?_, by rw [flatten_eq], ?_⟩
  · obtain ⟨entry, hentry, hlookup⟩ := Registry.exists_lookup_initial hname henabled
    obtain ⟨_, _, rfl⟩ := (Builtin.mem_entries .flatten entry).mp hentry
    rw [Registry.call_of_lookup hlookup]
    rfl
  · intro htrimmed hfit
    have hslots := slots_flatten htrimmed hfit
    refine ⟨hslots, ?_, ?_⟩
    · rw [SparseArray.size, hslots, length_flatMap_slots]
    · rintro before arg after rfl i hi
      rw [hslots, getElem?_flatMap_slots before after arg hi]

/-- The two holes between `x` and `y` keep their places, and `z` comes after them. -/
theorem call_flatten_sparse :
    Builtin.flatten.goesBy "Flatten" = true ∧ Text.anyIgnoringCase ["away"] "Flatten" = false ∧
    ∃ flat : SparseArray Value,
      ((Registry.initial true ["away"]).call .vacant "Flatten"
        [array ⟨[some (scalar "x"), none, none, some (scalar "y")]⟩, scalar "z"]).result =
          .ok ⟨array flat, none⟩ ∧
      flat.slots =
        [some (scalar "x"), none, none, some (scalar "y"), some (scalar "z")] ∧
      flat.size = 5 := by
  have hname : Builtin.flatten.goesBy "Flatten" = true := by decide
  have henabled : Text.anyIgnoringCase ["away"] "Flatten" = false := by decide
  obtain ⟨flat, hresult, _, hfit⟩ := call_flatten hname henabled .vacant
    [array ⟨[some (scalar "x"), none, none, some (scalar "y")]⟩, scalar "z"]
  have htrimmed : ∀ items, array items ∈
      [array ⟨[some (scalar "x"), none, none, some (scalar "y")]⟩, scalar "z"] →
        items.Trimmed := by
    intro items hitems
    simp only [List.mem_cons, array.injEq, reduceCtorEq, List.not_mem_nil, or_false] at hitems
    subst hitems
    simp [SparseArray.Trimmed]
  obtain ⟨hslots, hsize, _⟩ := hfit htrimmed (by decide)
  exact ⟨hname, henabled, flat, hresult, hslots, hsize⟩

end ScriptBuiltins.Value
