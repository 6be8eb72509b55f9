import Mathlib.Data.List.Nodup
import Mathlib.Data.List.Perm.Subperm
import Mathlib.Logic.Function.Basic
import ScriptBuiltins.OrderedMap

set_option autoImplicit false

namespace ScriptBuiltins.OrderedMap

variable {α : Type}

def Distinct (m : OrderedMap α) : Prop := m.keys.Nodup

theorem insertEntry_of_notMem {key : String} {entries : List (String × α)}
    (h : key ∉ entries.map (·.1)) (value : α) :
    insertEntry key value entries = entries ++ [(key, value)] := by
  induction entries with
  | nil => rfl
  | cons entry entries ih =>
    rw [List.map_cons, List.mem_cons, not_or] at h
    rw [insertEntry, if_neg (Ne.symm h.1), ih h.2, List.cons_append]

theorem keys_insertEntry (key : String) (value : α) (entries : List (String × α)) :
    (insertEntry key value entries).map (·.1) =
      if key ∈ entries.map (·.1) then entries.map (·.1) else entries.map (·.1) ++ [key] := by
  induction entries with
  | nil => rfl
  | cons entry entries ih =>
    rw [insertEntry]
    by_cases heq : entry.1 = key
    · simp [heq]
    · rw [if_neg heq, List.map_cons, ih]
      by_cases hmem : key ∈ entries.map (·.1)
      · simp [hmem]
      · simp [hmem, Ne.symm heq]

theorem mem_insertEntry {key : String} {value : α} {entries : List (String × α)}
    {entry : String × α} (h : entry ∈ insertEntry key value entries) :
    entry = (key, value) ∨ entry ∈ entries := by
  induction entries with
  | nil => exact .inl (List.mem_singleton.mp h)
  | cons first entries ih =>
    rw [insertEntry] at h
    by_cases heq : first.1 = key
    · rw [if_pos heq, List.mem_cons] at h
      exact h.imp_right (List.mem_cons_of_mem first)
    · rw [if_neg heq, List.mem_cons] at h
      cases h with
      | inl h => exact .inr (h ▸ List.mem_cons_self)
      | inr h => exact (ih h).imp_right (List.mem_cons_of_mem first)

theorem Distinct.insert {m : OrderedMap α} (h : m.Distinct) (key : String) (value : α) :
    (m.insert key value).Distinct := by
  rw [Distinct, keys, OrderedMap.insert, keys_insertEntry]
  by_cases hmem : key ∈ m.entries.map (·.1)
  · rwa [if_pos hmem]
  · rw [if_neg hmem, List.nodup_append]
    refine ⟨h, List.pairwise_singleton _ key, ?_⟩
    rintro old hold new hnew rfl
    exact hmem (List.mem_singleton.mp hnew ▸ hold)

theorem distinct_foldl_insert (pairs : List (String × α)) {m : OrderedMap α} (h : m.Distinct) :
    (pairs.foldl (fun m pair => m.insert pair.1 pair.2) m).Distinct := by
  induction pairs generalizing m with
  | nil => exact h
  | cons pair pairs ih => exact ih (h.insert pair.1 pair.2)

theorem distinct_ofList (pairs : List (String × α)) : (ofList pairs).Distinct :=
  distinct_foldl_insert pairs List.nodup_nil

theorem mem_foldl_insert (pairs : List (String × α)) {m : OrderedMap α} {entry : String × α}
    (h : entry ∈ (pairs.foldl (fun m pair => m.insert pair.1 pair.2) m).entries) :
    entry ∈ m.entries ∨ entry ∈ pairs := by
  induction pairs generalizing m with
  | nil => exact .inl h
  | cons pair pairs ih =>
    cases ih h with
    | inl h =>
      cases mem_insertEntry h with
      | inl h => exact .inr (h ▸ List.mem_cons_self)
      | inr h => exact .inl h
    | inr h => exact .inr (List.mem_cons_of_mem pair h)

theorem mem_ofList {pairs : List (String × α)} {entry : String × α}
    (h : entry ∈ (ofList pairs).entries) : entry ∈ pairs := by
  cases mem_foldl_insert pairs h with
  | inl h => cases h
  | inr h => exact h

theorem foldl_insert_of_nodup (pairs before : List (String × α))
    (h : ((before ++ pairs).map (·.1)).Nodup) :
    pairs.foldl (fun m pair => m.insert pair.1 pair.2) (⟨before⟩ : OrderedMap α) =
      ⟨before ++ pairs⟩ := by
  induction pairs generalizing before with
  | nil => rw [List.append_nil, List.foldl_nil]
  | cons pair pairs ih =>
    have hnew : pair.1 ∉ before.map (·.1) := by
      intro hmem
      rw [List.map_append, List.nodup_append] at h
      exact h.2.2 _ hmem _ List.mem_cons_self rfl
    have happend : before ++ pair :: pairs = before ++ [pair] ++ pairs := by simp
    rw [happend] at h ⊢
    rw [List.foldl_cons, OrderedMap.insert, insertEntry_of_notMem hnew]
    exact ih (before ++ [pair]) h

theorem ofList_entries {m : OrderedMap α} (h : m.Distinct) : ofList m.entries = m :=
  foldl_insert_of_nodup m.entries [] h

theorem get?_eq_none_iff (m : OrderedMap α) (key : String) : m.get? key = none ↔ key ∉ m.keys := by
  rw [get?, List.lookup_eq_none_iff, keys, List.mem_map]
  constructor
  · rintro h ⟨entry, hentry, rfl⟩
    simpa using h entry hentry
  · intro h entry hentry
    simpa using fun heq : key = entry.1 => h ⟨entry, hentry, heq.symm⟩

theorem mem_entries_of_get? {m : OrderedMap α} {key : String} {value : α}
    (h : m.get? key = some value) : (key, value) ∈ m.entries := by
  obtain ⟨before, after, hentries, _⟩ := List.lookup_eq_some_iff.mp h
  rw [hentries]
  exact List.mem_append_cons_self

theorem Distinct.mem_entries {m : OrderedMap α} (h : m.Distinct) (key : String) (value : α) :
    (key, value) ∈ m.entries ↔ m.get? key = some value := by
  refine ⟨fun hmem => ?_, mem_entries_of_get?⟩
  have hkey : key ∈ m.keys := List.mem_map.mpr ⟨_, hmem, rfl⟩
  have hfound := (m.get?_eq_none_iff key).not_left.mpr hkey
  obtain ⟨found, hfound⟩ := Option.ne_none_iff_exists'.mp hfound
  cases List.inj_on_of_nodup_map h hmem (mem_entries_of_get? hfound) rfl
  exact hfound

theorem get?_insert (m : OrderedMap α) (key : String) (value : α) :
    (m.insert key value).get? = Function.update m.get? key (some value) := by
  funext other
  change (insertEntry key value m.entries).lookup other = _
  by_cases hother : other = key
  · subst hother
    rw [Function.update_self]
    induction m.entries with
    | nil => simp [insertEntry]
    | cons entry entries ih =>
      rw [insertEntry]
      split_ifs with h
      · exact List.lookup_cons_self
      · rw [List.lookup_cons, beq_false_of_ne (Ne.symm h)]
        exact ih
  · rw [Function.update_of_ne hother, get?]
    induction m.entries with
    | nil => simp [insertEntry, hother]
    | cons entry entries ih =>
      rw [insertEntry]
      split_ifs with h
      · rw [List.lookup_cons, List.lookup_cons, h, beq_false_of_ne hother]
      · rw [List.lookup_cons, List.lookup_cons, ih]

theorem Distinct.entries_erase {m : OrderedMap α} (h : m.Distinct) (key : String) :
    (m.erase key).entries = m.entries.filter (·.1 != key) := by
  obtain ⟨entries⟩ := m
  change entries.eraseP (·.1 == key) = entries.filter (·.1 != key)
  change (entries.map (·.1)).Nodup at h
  induction entries with
  | nil => rfl
  | cons entry entries ih =>
    rw [List.map_cons, List.nodup_cons] at h
    by_cases hkey : entry.1 = key
    · have hrest : ∀ other ∈ entries, (other.1 != key) = true := by
        rintro other hother
        rw [bne_iff_ne]
        rintro rfl
        exact h.1 (hkey ▸ List.mem_map_of_mem hother)
      rw [List.eraseP_cons_of_pos (by simp [hkey]), List.filter_cons_of_neg (by simp [hkey]),
        List.filter_eq_self.mpr hrest]
    · rw [List.eraseP_cons_of_neg (by simp [hkey]), List.filter_cons_of_pos (by simp [hkey]),
        ih h.2]

theorem Distinct.keys_erase {m : OrderedMap α} (h : m.Distinct) (key : String) :
    (m.erase key).keys = m.keys.filter (· != key) := by
  rw [keys, h.entries_erase, keys, List.filter_map]
  rfl

theorem Distinct.erase {m : OrderedMap α} (h : m.Distinct) (key : String) :
    (m.erase key).Distinct :=
  h.sublist (List.eraseP_sublist.map _)

theorem Distinct.get?_erase {m : OrderedMap α} (h : m.Distinct) (key : String) :
    (m.erase key).get? = Function.update m.get? key none := by
  funext other
  ext value
  rw [← (h.erase key).mem_entries, h.entries_erase, List.mem_filter, h.mem_entries]
  by_cases hother : other = key
  · simp [hother]
  · simp [hother]

section

variable {β : Type} {m : OrderedMap α} {n : OrderedMap β}

theorem length_keys (m : OrderedMap α) : m.keys.length = m.size := List.length_map _

theorem Distinct.size_eq (hm : m.Distinct) (hn : n.Distinct)
    (h : ∀ key, m.get? key = none ↔ n.get? key = none) : m.size = n.size := by
  have hkeys : m.keys.Perm n.keys := by
    rw [List.perm_ext_iff_of_nodup hm hn]
    intro key
    rw [← not_iff_not, ← get?_eq_none_iff, ← get?_eq_none_iff, h]
  rw [← length_keys, ← length_keys, hkeys.length_eq]

/-- Of two maps of one size it is enough to look up the keys of the one in the other. -/
theorem Distinct.related_iff {R : α → β → Prop} (hm : m.Distinct) (hn : n.Distinct) :
    (m.size = n.size ∧
      ∀ key v, (key, v) ∈ m.entries → ∃ w, n.get? key = some w ∧ R v w) ↔
    (∀ key, m.get? key = none ↔ n.get? key = none) ∧
      ∀ key v w, m.get? key = some v → n.get? key = some w → R v w := by
  constructor
  · rintro ⟨hsize, hfound⟩
    have hsubset : m.keys ⊆ n.keys := by
      intro key hkey
      obtain ⟨⟨_, v⟩, hentry, rfl⟩ := List.mem_map.mp hkey
      obtain ⟨w, hw, _⟩ := hfound _ v hentry
      by_contra hnot
      rw [(n.get?_eq_none_iff _).mpr hnot] at hw
      cases hw
    -- Different keys, as many as the other map has: they are all of its keys.
    have hkeys : m.keys.Perm n.keys := by
      apply (List.Nodup.subperm hm hsubset).perm_of_length_le
      rw [length_keys, length_keys]
      exact Nat.le_of_eq hsize.symm
    constructor
    · intro key
      rw [get?_eq_none_iff, get?_eq_none_iff, hkeys.mem_iff]
    · intro key v w hv hw
      obtain ⟨found, hfound, hr⟩ := hfound key v (mem_entries_of_get? hv)
      rw [hw] at hfound
      cases hfound
      exact hr
  · rintro ⟨hnone, hsome⟩
    refine ⟨hm.size_eq hn hnone, ?_⟩
    intro key v hentry
    have hv := (hm.mem_entries key v).mp hentry
    obtain ⟨w, hw⟩ := Option.ne_none_iff_exists'.mp (mt (hnone key).mpr (by simp [hv]))
    exact ⟨w, hw, hsome key v w hv hw⟩

end

end ScriptBuiltins.OrderedMap
