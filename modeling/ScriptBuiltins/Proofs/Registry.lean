import Mathlib.Data.List.Nodup
import ScriptBuiltins.Builtin

set_option autoImplicit false

namespace ScriptBuiltins

namespace Registry

open Text (sameIgnoringCase anyIgnoringCase)

theorem lookup_empty (name : String) : empty.lookup name = none :=
  Std.ExtTreeMap.getElem?_empty

theorem lookup_register (r : Registry) (entry : Entry) (name : String) :
    (r.register entry).lookup name =
      if sameIgnoringCase entry.name name then some entry else r.lookup name := by
  simp [lookup, register, sameIgnoringCase, Std.ExtTreeMap.getElem?_insert]

theorem lookup_unregister (r : Registry) (removed name : String) :
    (r.unregister removed).lookup name =
      if sameIgnoringCase removed name then none else r.lookup name := by
  simp [lookup, unregister, sameIgnoringCase, Std.ExtTreeMap.getElem?_erase]

/-- Of the entries registered under a name the last one counts. -/
theorem lookup_foldl_register (entries : List Entry) (r : Registry) (name : String) :
    (entries.foldl register r).lookup name =
      (entries.reverse.find? (sameIgnoringCase ·.name name)).or (r.lookup name) := by
  induction entries generalizing r with
  | nil => rfl
  | cons entry entries ih =>
    rw [List.foldl_cons, ih, lookup_register, List.reverse_cons, List.find?_append,
      List.find?_singleton]
    cases entries.reverse.find? (sameIgnoringCase ·.name name) with
    | some found => rfl
    | none => split_ifs <;> rfl

theorem lookup_foldl_unregister (names : List String) (r : Registry) (name : String) :
    (names.foldl unregister r).lookup name =
      if anyIgnoringCase names name then none else r.lookup name := by
  induction names generalizing r with
  | nil => rfl
  | cons removed names ih =>
    rw [List.foldl_cons, ih, lookup_unregister]
    by_cases h : sameIgnoringCase removed name <;> simp [anyIgnoringCase, h]

end Registry

namespace Builtin

open Text (sameIgnoringCase anyIgnoringCase lowercase)

def goesBy (b : Builtin) (name : String) : Bool := anyIgnoringCase (b.name :: b.aliases) name

theorem mem_all (b : Builtin) : b ∈ all := by
  cases b <;> decide

theorem mem_entries (b : Builtin) (entry : Entry) :
    entry ∈ b.entries ↔
      ∃ name ∈ b.name :: b.aliases, ⟨name, b.signature, b.handler⟩ = entry :=
  List.mem_map

/-- All names in lowercase, each with its function. -/
def names : List (String × Builtin) :=
  all.flatMap fun b => (b.name :: b.aliases).map fun name => (lowercase name, b)

theorem nodup_names : (names.map (·.1)).Nodup := by
  decide

theorem goesBy_iff (b : Builtin) (name : String) :
    b.goesBy name = true ↔ (lowercase name, b) ∈ names := by
  simp only [goesBy, anyIgnoringCase, names, sameIgnoringCase, List.any_eq_true, beq_iff_eq,
    List.mem_flatMap, List.mem_map, Prod.mk.injEq]
  constructor
  · rintro ⟨known, hmem, hsame⟩
    exact ⟨b, mem_all b, known, hmem, hsame, rfl⟩
  · rintro ⟨_, _, known, hmem, hsame, rfl⟩
    exact ⟨known, hmem, hsame⟩

theorem eq_of_goesBy {b c : Builtin} {name : String} (hb : b.goesBy name = true)
    (hc : c.goesBy name = true) : b = c := by
  rw [goesBy_iff] at hb hc
  have heq := List.inj_on_of_nodup_map nodup_names hb hc rfl
  exact congrArg Prod.snd heq

theorem goesBy_of_mem_entries {b : Builtin} {entry : Entry} {name : String}
    (h : entry ∈ b.entries) (hname : sameIgnoringCase entry.name name = true) :
    b.goesBy name = true := by
  obtain ⟨known, hknown, rfl⟩ := (mem_entries b entry).mp h
  rw [goesBy, anyIgnoringCase, List.any_eq_true]
  exact ⟨known, hknown, hname⟩

end Builtin

namespace Registry

open Text (sameIgnoringCase anyIgnoringCase)

theorem lookup_initial (builtins : Bool) (disabled : List String) (name : String) :
    (initial builtins disabled).lookup name =
      if anyIgnoringCase disabled name then none
      else (if builtins then Builtin.all.flatMap Builtin.entries else []).reverse.find?
        (sameIgnoringCase ·.name name) := by
  rw [initial, lookup_foldl_unregister, lookup_foldl_register, lookup_empty, Option.or_none]

theorem mem_entries_of_lookup_initial {builtins : Bool} {disabled : List String} {name : String}
    {entry : Entry} (h : (initial builtins disabled).lookup name = some entry) :
    ∃ b : Builtin, b.goesBy name = true ∧ entry ∈ b.entries := by
  rw [lookup_initial] at h
  split_ifs at h with hdisabled hbuiltins
  · have hname := List.find?_some h
    have hmem := List.mem_reverse.mp (List.mem_of_find?_eq_some h)
    obtain ⟨b, _, hb⟩ := List.mem_flatMap.mp hmem
    exact ⟨b, Builtin.goesBy_of_mem_entries hb hname, hb⟩
  · cases h

theorem exists_lookup_initial {disabled : List String} {name : String} {b : Builtin}
    (hname : b.goesBy name = true) (h : anyIgnoringCase disabled name = false) :
    ∃ entry ∈ b.entries, (initial true disabled).lookup name = some entry := by
  have hfound : ((initial true disabled).lookup name).isSome := by
    rw [lookup_initial, h, if_neg (by simp), if_pos rfl, List.find?_isSome]
    obtain ⟨known, hknown, hsame⟩ := List.any_eq_true.mp hname
    have hmem : (⟨known, b.signature, b.handler⟩ : Entry) ∈ b.entries :=
      (b.mem_entries _).mpr ⟨known, hknown, rfl⟩
    refine ⟨_, List.mem_reverse.mpr (List.mem_flatMap.mpr ⟨b, b.mem_all, hmem⟩), hsame⟩
  obtain ⟨entry, hentry⟩ := Option.isSome_iff_exists.mp hfound
  obtain ⟨c, hc, hmem⟩ := mem_entries_of_lookup_initial hentry
  rw [Builtin.eq_of_goesBy hname hc]
  exact ⟨entry, hmem, hentry⟩

end Registry

end ScriptBuiltins
