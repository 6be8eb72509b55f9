import Mathlib.Data.List.Basic
import ScriptBuiltins.Proofs.Flatten

set_option autoImplicit false

namespace ScriptBuiltins

namespace Value

def isEmptyContainer : Value → Bool
  | array items => items.isEmpty
  | map entries => entries.isEmpty
  | nothing | scalar _ => false

/-- What is in a container, without the holes; anything else is its own element. -/
def elements (v : Value) : List Value := v.slots.filterMap id

theorem slotTexts_eq_map (slots : List (Option Value)) :
    slotTexts slots = (slots.filterMap id).map text := by
  induction slots with
  | nil => rfl
  | cons slot slots ih =>
    cases slot with
    | none => exact ih
    | some v => exact congrArg (v.text :: ·) ih

theorem entryTexts_eq_map (entries : List (String × Value)) :
    entryTexts entries = (entries.map (·.2)).map text := by
  induction entries with
  | nil => rfl
  | cons entry entries ih => exact congrArg (entry.2.text :: ·) ih

theorem elements_map (entries : OrderedMap Value) : (map entries).elements = entries.values := by
  rw [elements, slots, List.filterMap_map]
  exact List.filterMap_some

/-- Nothing is written as an empty text, which is also the text of no elements. -/
theorem text_eq_intercalate (v : Value) : v.text = ",".intercalate (v.elements.map text) := by
  cases v with
  | nothing => rfl
  | scalar s => exact String.intercalate_singleton.symm
  | array items => exact congrArg (",".intercalate ·) (slotTexts_eq_map items.slots)
  | map entries =>
    rw [elements_map]
    exact congrArg (",".intercalate ·) (entryTexts_eq_map entries.entries)

theorem text_ofList (values : List Value) :
    (ofList values).text = ",".intercalate (values.map text) := by
  have hvalues : (values.map some).filterMap id = values := by
    rw [List.filterMap_map]
    exact List.filterMap_some
  exact congrArg (",".intercalate ·) ((slotTexts_eq_map _).trans (congrArg _ hvalues))

theorem elements_eq_nil_iff {v : Value} (h : ∀ items, v = array items → items.Trimmed) :
    v.elements = [] ↔ v.isEmptyContainer = true := by
  cases v with
  | nothing | scalar _ => simp [elements, slots, isEmptyContainer]
  | map entries =>
    rw [elements_map]
    exact List.map_eq_nil_iff.trans List.isEmpty_iff.symm
  | array items =>
    constructor
    · intro hnone
      by_contra hslots
      -- The last slot is set, so there is an element.
      have hsize : 0 < items.size := List.length_pos_iff.mpr (mt List.isEmpty_iff.mpr hslots)
      obtain ⟨last, hlast⟩ := (h items rfl).exists_last hsize
      have hmem : some last ∈ items.slots :=
        List.mem_of_getElem? (Option.join_eq_some_iff.mp hlast)
      have : last ∈ (array items).elements := List.mem_filterMap.mpr ⟨some last, hmem, rfl⟩
      rw [hnone] at this
      cases this
    · intro hempty
      have hslots : items.slots = [] := List.isEmpty_iff.mp hempty
      rw [elements, slots, hslots]
      rfl

section

variable {α : Type} {xs : List α}

theorem flatMap_filter_of_nil {β : Type} {p : α → Bool} {parts : α → List β}
    (h : ∀ x ∈ xs, p x = false → parts x = []) :
    (xs.filter p).flatMap parts = xs.flatMap parts := by
  induction xs with
  | nil => rfl
  | cons x xs ih =>
    obtain ⟨hx, hxs⟩ := List.forall_mem_cons.mp h
    cases hp : p x with
    | true => rw [List.filter_cons_of_pos hp, List.flatMap_cons, List.flatMap_cons, ih hxs]
    | false =>
      rw [List.filter_cons_of_neg (by simp [hp]), List.flatMap_cons, hx hp, List.nil_append, ih hxs]

/-- Pieces that are joined in groups, none of them empty, are joined. -/
theorem intercalate_flatMap (sep : String) {pieces : α → List String}
    (h : ∀ x ∈ xs, pieces x ≠ []) :
    sep.intercalate (xs.flatMap pieces) =
      sep.intercalate (xs.map fun x => sep.intercalate (pieces x)) := by
  induction xs with
  | nil => rfl
  | cons x xs ih =>
    obtain ⟨hx, hxs⟩ := List.forall_mem_cons.mp h
    rw [List.flatMap_cons, List.map_cons]
    cases xs with
    | nil => rw [List.flatMap_nil, List.append_nil, List.map_nil, String.intercalate_singleton]
    | cons y ys =>
      have hrest : (y :: ys).flatMap pieces ≠ [] := by
        rw [List.flatMap_cons]
        exact List.append_ne_nil_of_left_ne_nil (hxs y List.mem_cons_self) _
      rw [String.intercalate_append_of_ne_nil hx hrest, ih hxs, List.map_cons,
        String.intercalate_cons_cons]

end

section

variable {args : List Value} (h : ∀ items, array items ∈ args → items.Trimmed)
include h

theorem elements_flatten (hfit : (args.map width).sum ≤ SparseArray.maxIndex + 1) :
    (array (flatten args)).elements = args.flatMap elements := by
  rw [← length_flatMap_slots] at hfit
  rw [elements, slots, slots_flatten h hfit, List.filterMap_flatMap]
  rfl

theorem elements_eq_nil_of_mem {v : Value} (hv : v ∈ args) :
    v.elements = [] ↔ v.isEmptyContainer = true :=
  elements_eq_nil_iff fun items hitems => h items (hitems ▸ hv)

theorem text_flatten (hfit : (args.map width).sum ≤ SparseArray.maxIndex + 1) :
    (array (flatten args)).text = (ofList (args.filter (!isEmptyContainer ·))).text := by
  let kept := args.filter (!isEmptyContainer ·)
  have hkept : kept.flatMap elements = args.flatMap elements := by
    refine flatMap_filter_of_nil fun v hv hempty => (elements_eq_nil_of_mem h hv).mpr ?_
    simpa using hempty
  have hpieces : ∀ v ∈ kept, v.elements.map text ≠ [] := by
    intro v hv hnil
    obtain ⟨hmem, hnonempty⟩ := List.mem_filter.mp hv
    have hempty := (elements_eq_nil_of_mem h hmem).mp (List.map_eq_nil_iff.mp hnil)
    simp [hempty] at hnonempty
  calc (array (flatten args)).text
      = ",".intercalate ((array (flatten args)).elements.map text) := text_eq_intercalate _
    _ = ",".intercalate (kept.flatMap (·.elements.map text)) := by
        rw [elements_flatten h hfit, ← hkept, List.map_flatMap]
    _ = ",".intercalate (kept.map text) := by
        rw [intercalate_flatMap "," hpieces]
        simp only [← text_eq_intercalate]
    _ = (ofList kept).text := (text_ofList kept).symm

end

/-- Nothing is still a piece of its own, a hole and an empty array are none. -/
example : (array (flatten [ofList [scalar "x", nothing], ofList [], array ⟨[none, some nothing]⟩,
    ofList [ofList [scalar "y", scalar "z"]]])).text = "x,,,y,z" := by decide

end Value

/-- A container without elements takes a place between two commas in an array of containers, and
none in the flat array. -/
theorem call_flatten_text {disabled : List String} {flattenName arrayName : String}
    (hflatten : Builtin.flatten.goesBy flattenName = true)
    (harray : Builtin.array.goesBy arrayName = true)
    (henabled : ∀ name ∈ [flattenName, arrayName], Text.anyIgnoringCase disabled name = false)
    (site : CallSite) {args : List Value}
    (htrimmed : ∀ items, .array items ∈ args → items.Trimmed)
    (hfit : (args.map Value.width).sum ≤ SparseArray.maxIndex + 1) :
    let call := fun name args => ((Registry.initial true disabled).call site name args).result
    ∃ flat listed : Value, call flattenName args = .ok ⟨flat, none⟩ ∧
      call arrayName (args.filter (!Value.isEmptyContainer ·)) = .ok ⟨listed, none⟩ ∧
      flat.text = listed.text := by
  intro call
  obtain ⟨_, _, hflat⟩ := Registry.exists_call_initial hflatten (henabled _ (.head _))
  obtain ⟨_, _, hlisted⟩ := Registry.exists_call_initial harray (henabled _ (.tail _ (.head _)))
  refine ⟨.array (Value.flatten args), .ofList (args.filter (!Value.isEmptyContainer ·)), ?_, ?_,
    Value.text_flatten htrimmed hfit⟩
  · exact congrArg CallRecord.result (hflat site args)
  · exact congrArg CallRecord.result (hlisted site _)

/-- Two containers are left out, one has a hole and holds nothing, one holds a container. -/
theorem call_flatten_text_nested :
    let args : List Value := [.ofList [], .array ⟨[some (.scalar "x"), none, some .nothing]⟩,
      .map ⟨[("k", .ofList [.scalar "y", .scalar "z"])]⟩, .map ⟨[]⟩, .nothing, .scalar "w"]
    let kept : List Value := [.array ⟨[some (.scalar "x"), none, some .nothing]⟩,
      .map ⟨[("k", .ofList [.scalar "y", .scalar "z"])]⟩, .nothing, .scalar "w"]
    let call := fun name args =>
      ((Registry.initial true ["away"]).call CallSite.vacant name args).result
    Builtin.flatten.goesBy "Flatten" = true ∧ Builtin.array.goesBy "array" = true ∧
      (∀ name ∈ ["Flatten", "array"], Text.anyIgnoringCase ["away"] name = false) ∧
      (∀ items, .array items ∈ args → items.Trimmed) ∧
      (args.map Value.width).sum ≤ SparseArray.maxIndex + 1 ∧
      ∃ flat listed : Value, call "Flatten" args = .ok ⟨flat, none⟩ ∧
        call "array" kept = .ok ⟨listed, none⟩ ∧ flat.text = listed.text := by
  intro args kept call
  have hflatten : Builtin.flatten.goesBy "Flatten" = true := by decide
  have harray : Builtin.array.goesBy "array" = true := by decide
  have henabled : ∀ name ∈ ["Flatten", "array"], Text.anyIgnoringCase ["away"] name = false := by
    decide
  have htrimmed : ∀ items, .array items ∈ args → items.Trimmed := by
    intro items hitems
    simp only [args, Value.ofList, List.mem_cons, Value.array.injEq, reduceCtorEq, List.not_mem_nil,
      or_false] at hitems
    obtain rfl | rfl := hitems <;> simp [SparseArray.Trimmed, SparseArray.ofList]
  have hfit : (args.map Value.width).sum ≤ SparseArray.maxIndex + 1 := by decide
  exact ⟨hflatten, harray, henabled, htrimmed, hfit,
    call_flatten_text hflatten harray henabled CallSite.vacant htrimmed hfit⟩

end ScriptBuiltins
