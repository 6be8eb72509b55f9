import Mathlib.Data.List.Induction
import Mathlib.Data.String.Basic
import ScriptBuiltins.Proofs.Call
import ScriptBuiltins.Proofs.History
import ScriptBuiltins.Proofs.Registry

set_option autoImplicit false

/-! The last operation under a name, whatever the case of its letters, decides what is found there,
and what is found under all names decides the list of the entries. -/
namespace ScriptBuiltins.Registry

open Text (lowercase sameIgnoringCase)

inductive Operation where
  | register (entry : Entry)
  | unregister (name : String)

namespace Operation

def name : Operation → String
  | register entry => entry.name
  | unregister name => name

def apply (r : Registry) : Operation → Registry
  | register entry => r.register entry
  | unregister name => (r.remove name).2

end Operation

/-- What is done before a registry is first used. -/
def opening (builtins : Bool) (disabled : List String) : List Operation :=
  (if builtins then Builtin.all.flatMap Builtin.entries else []).map .register ++
    disabled.map .unregister

def LastRegistered (ops : List Operation) (name : String) (entry : Entry) : Prop :=
  ∃ before after, ops = before ++ .register entry :: after ∧
    sameIgnoringCase entry.name name = true ∧
    ∀ op ∈ after, sameIgnoringCase op.name name = false

def byName (a b : Entry) : Bool := lowercase a.name ≤ lowercase b.name

/-- Every entry stands under its own name in lowercase. -/
def Keyed (r : Registry) : Prop :=
  ∀ (key : String) (entry : Entry), r.table[key]? = some entry → key = lowercase entry.name

theorem lookup_apply (r : Registry) (op : Operation) (name : String) (entry : Entry) :
    (op.apply r).lookup name = some entry ↔
      if sameIgnoringCase op.name name then op = .register entry
      else r.lookup name = some entry := by
  cases op with
  | register registered =>
    rw [Operation.apply, lookup_register, Operation.name]
    split_ifs <;> simp
  | unregister removed =>
    rw [Operation.apply, remove, lookup_unregister, Operation.name]
    split_ifs <;> simp

theorem lastRegistered_concat (ops : List Operation) (op : Operation) (name : String)
    (entry : Entry) :
    LastRegistered (ops ++ [op]) name entry ↔
      if sameIgnoringCase op.name name then op = .register entry
      else LastRegistered ops name entry := by
  have hlast := History.exists_last_concat (fun op => sameIgnoringCase op.name name = true) ops op
    (.register entry)
  simp only [Bool.not_eq_true] at hlast
  exact hlast

theorem keyed_empty : Keyed empty := by
  intro key entry h
  rw [empty, Std.ExtTreeMap.getElem?_empty] at h
  cases h

theorem Keyed.apply {r : Registry} (h : r.Keyed) (op : Operation) : (op.apply r).Keyed := by
  intro key entry hentry
  cases op with
  | register registered =>
    rw [Operation.apply, register, Std.ExtTreeMap.getElem?_insert] at hentry
    split_ifs at hentry with hkey
    · cases hentry
      exact (Std.LawfulEqOrd.eq_of_compare hkey).symm
    · exact h key entry hentry
  | unregister removed =>
    rw [Operation.apply, remove, unregister, Std.ExtTreeMap.getElem?_erase] at hentry
    split_ifs at hentry
    exact h key entry hentry

theorem lookup_foldl_apply (ops : List Operation) (name : String) (entry : Entry) :
    (ops.foldl Operation.apply empty).lookup name = some entry ↔
      LastRegistered ops name entry := by
  induction ops using List.reverseRecOn with
  | nil =>
    rw [List.foldl_nil, lookup_empty]
    simp [LastRegistered]
  | append_singleton ops op ih =>
    rw [List.foldl_concat, lookup_apply, lastRegistered_concat, ih]

theorem keyed_foldl_apply (ops : List Operation) : (ops.foldl Operation.apply empty).Keyed := by
  induction ops using List.reverseRecOn with
  | nil => exact keyed_empty
  | append_singleton ops op ih =>
    rw [List.foldl_concat]
    exact ih.apply op

theorem foldl_initial (builtins : Bool) (disabled : List String) (ops : List Operation) :
    ops.foldl Operation.apply (initial builtins disabled) =
      (opening builtins disabled ++ ops).foldl Operation.apply empty := by
  rw [List.foldl_append, opening, List.foldl_append, List.foldl_map, List.foldl_map]
  rfl

theorem keyed_foldl_initial (builtins : Bool) (disabled : List String) (ops : List Operation) :
    (ops.foldl Operation.apply (initial builtins disabled)).Keyed := by
  rw [foldl_initial]
  exact keyed_foldl_apply _

theorem lookup_congr (r : Registry) {name other : String}
    (h : sameIgnoringCase name other = true) : r.lookup name = r.lookup other := by
  rw [lookup, lookup, beq_iff_eq.mp h]

theorem lookup_remove (r : Registry) (removed name : String) :
    (r.remove removed).2.lookup name =
      if sameIgnoringCase removed name then none else r.lookup name :=
  lookup_unregister r removed name

theorem call_congr {r : Registry} {name other : String}
    (h : sameIgnoringCase name other = true) (hknown : r.lookup name ≠ none) (site : CallSite)
    (args : List Value) : r.call site name args = r.call site other args := by
  obtain ⟨entry, hentry⟩ := Option.ne_none_iff_exists'.mp hknown
  rw [call_of_lookup hentry, call_of_lookup (r.lookup_congr h ▸ hentry)]

theorem Keyed.getElem?_table {r : Registry} (h : r.Keyed) (key : String) (entry : Entry) :
    r.table[key]? = some entry ↔ key = lowercase entry.name ∧ r.lookup entry.name = some entry := by
  constructor
  · intro hentry
    have hkey := h key entry hentry
    exact ⟨hkey, by rw [lookup, ← hkey, hentry]⟩
  · rintro ⟨rfl, hentry⟩
    exact hentry

theorem Keyed.lookup_name {r : Registry} (h : r.Keyed) {name : String} {entry : Entry}
    (hentry : r.lookup name = some entry) : r.lookup entry.name = some entry :=
  ((h.getElem?_table _ entry).mp hentry).2

theorem Keyed.mem_entries {r : Registry} (h : r.Keyed) (entry : Entry) :
    entry ∈ r.entries ↔ r.lookup entry.name = some entry := by
  simp only [entries, List.mem_map, Prod.exists, Std.ExtTreeMap.mem_toList_iff_getElem?_eq_some,
    h.getElem?_table]
  constructor
  · rintro ⟨_, _, ⟨_, hentry⟩, rfl⟩
    exact hentry
  · intro hentry
    exact ⟨_, entry, ⟨rfl, hentry⟩, rfl⟩

theorem Keyed.pairwise_entries {r : Registry} (h : r.Keyed) :
    r.entries.Pairwise fun a b => lowercase a.name < lowercase b.name := by
  rw [entries, List.pairwise_map]
  refine Std.ExtTreeMap.ordered_keys_toList.imp_of_mem ?_
  rintro ⟨key, a⟩ ⟨key', b⟩ ha hb hlt
  rw [Std.ExtTreeMap.mem_toList_iff_getElem?_eq_some] at ha hb
  rw [← h key a ha, ← h key' b hb]
  exact compareOfLessAndEq_eq_lt.mp hlt

/-- Sorting by name gives the same list whatever order the entries came in. -/
theorem Keyed.mergeSort_eq_entries {r : Registry} (h : r.Keyed) {listed : List Entry}
    (hlisted : listed.Perm r.entries) : listed.mergeSort byName = r.entries := by
  have htrans : ∀ a b c, byName a b = true → byName b c = true → byName a c = true := by
    intro a b c hab hbc
    rw [byName, decide_eq_true_eq] at hab hbc ⊢
    exact hab.trans hbc
  have htotal : ∀ a b, (byName a b || byName b a) = true := by
    intro a b
    simpa [byName] using le_total (lowercase a.name) (lowercase b.name)
  have hsorted : (listed.mergeSort byName).Pairwise fun a b => byName a b = true :=
    List.pairwise_mergeSort htrans htotal listed
  have hentries : r.entries.Pairwise fun a b => byName a b = true :=
    h.pairwise_entries.imp fun hab => decide_eq_true hab.le
  have hperm : (listed.mergeSort byName).Perm r.entries :=
    (List.mergeSort_perm listed byName).trans hlisted
  -- Entries of one name are one entry, so the order leaves nothing open.
  refine List.Perm.eq_of_pairwise ?_ hsorted hentries hperm
  intro a b ha hb hab hba
  rw [byName, decide_eq_true_eq] at hab hba
  have hlookup := (h.mem_entries a).mp (hperm.mem_iff.mp ha)
  rw [lookup, le_antisymm hab hba, ← lookup, (h.mem_entries b).mp hb] at hlookup
  exact (Option.some.inj hlookup).symm

theorem Keyed.table_eq {r s : Registry} (hr : r.Keyed) (hs : s.Keyed)
    (h : ∀ name, r.lookup name = s.lookup name) : r.table = s.table := by
  apply Std.ExtTreeMap.ext_getElem?
  intro key
  apply Option.ext
  intro entry
  rw [hr.getElem?_table, hs.getElem?_table, h]

theorem history_determines (builtins : Bool) (disabled : List String) (ops : List Operation) :
    let r := ops.foldl Operation.apply (initial builtins disabled)
    (∀ key entry, r.table[key]? = some entry → key = lowercase entry.name) ∧
    (∀ name entry, r.lookup name = some entry ↔
      LastRegistered (opening builtins disabled ++ ops) name entry) ∧
    (∀ name, (r.remove name).1 = r.lookup name ∧
      ∀ other, (r.remove name).2.lookup other =
        if sameIgnoringCase name other then none else r.lookup other) ∧
    (∀ entry, entry ∈ r.entries ↔ ∃ name, r.lookup name = some entry) ∧
    r.entries.Pairwise (fun a b => lowercase a.name < lowercase b.name) ∧
    (∀ listed : List Entry, listed.Perm r.entries → listed.mergeSort byName = r.entries) ∧
    (∀ builtins' disabled' ops',
      let s := List.foldl Operation.apply (initial builtins' disabled') ops'
      (∀ name, r.lookup name = s.lookup name) → r.entries = s.entries) ∧
    ∀ name other, sameIgnoringCase name other = true → r.lookup name ≠ none →
      ∀ site args, r.call site name args = r.call site other args := by
  intro r
  have hkeyed : r.Keyed := keyed_foldl_initial builtins disabled ops
  refine ⟨hkeyed, ?_, fun name => ⟨rfl, r.lookup_remove name⟩, ?_, hkeyed.pairwise_entries,
    fun listed => hkeyed.mergeSort_eq_entries, ?_, fun name other => call_congr⟩
  · intro name entry
    rw [← lookup_foldl_apply, ← foldl_initial]
  · intro entry
    rw [hkeyed.mem_entries]
    exact ⟨fun h => ⟨entry.name, h⟩, fun ⟨_, h⟩ => hkeyed.lookup_name h⟩
  · intro builtins' disabled' ops' s h
    have hkeyed' : s.Keyed := keyed_foldl_initial builtins' disabled' ops'
    rw [entries, entries, hkeyed.table_eq hkeyed' h]

end ScriptBuiltins.Registry
