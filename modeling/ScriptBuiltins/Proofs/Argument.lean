import Mathlib.Logic.Basic
import ScriptBuiltins.CommandLine.Run
import ScriptBuiltins.Proofs.Json.RoundTrip
import ScriptBuiltins.Proofs.Value

set_option autoImplicit false

namespace ScriptBuiltins.Value

mutual

/-- A slot set to nothing stands in the place of every hole, at every depth. -/
def filled : Value → Value
  | nothing => nothing
  | scalar text => scalar text
  | array ⟨slots⟩ => array ⟨filledSlots slots⟩
  | map ⟨entries⟩ => map ⟨filledEntries entries⟩
termination_by structural v => v

def filledSlots : List (Option Value) → List (Option Value)
  | [] => []
  | none :: slots => some nothing :: filledSlots slots
  | some v :: slots => some (filled v) :: filledSlots slots
termination_by structural slots => slots

def filledEntries : List (String × Value) → List (String × Value)
  | [] => []
  | (key, v) :: entries => (key, filled v) :: filledEntries entries
termination_by structural entries => entries

end

mutual

def hasHole : Value → Bool
  | nothing => false
  | scalar _ => false
  | array ⟨slots⟩ => slotsHaveHole slots
  | map ⟨entries⟩ => entriesHaveHole entries
termination_by structural v => v

def slotsHaveHole : List (Option Value) → Bool
  | [] => false
  | none :: _ => true
  | some v :: slots => hasHole v || slotsHaveHole slots
termination_by structural slots => slots

def entriesHaveHole : List (String × Value) → Bool
  | [] => false
  | (_, v) :: entries => hasHole v || entriesHaveHole entries
termination_by structural entries => entries

end

theorem filledSlots_eq_map (slots : List (Option Value)) :
    filledSlots slots = slots.map fun slot => some (slot.elim nothing filled) := by
  induction slots with
  | nil => rfl
  | cons slot slots ih => cases slot <;> simp [filledSlots, ih]

theorem filledEntries_eq_map (entries : List (String × Value)) :
    filledEntries entries = entries.map fun entry => (entry.1, filled entry.2) := by
  induction entries with
  | nil => rfl
  | cons entry entries ih => simp [filledEntries, ih]

theorem slotsHaveHole_eq_false (slots : List (Option Value)) :
    slotsHaveHole slots = false ↔ ∀ slot ∈ slots, ∃ v, slot = some v ∧ v.hasHole = false := by
  induction slots with
  | nil => simp [slotsHaveHole]
  | cons slot slots ih => cases slot <;> simp [slotsHaveHole, ih]

theorem entriesHaveHole_eq_false (entries : List (String × Value)) :
    entriesHaveHole entries = false ↔ ∀ entry ∈ entries, entry.2.hasHole = false := by
  induction entries with
  | nil => simp [entriesHaveHole]
  | cons entry entries ih => simp [entriesHaveHole, ih]

theorem toItems_eq_map (slots : List (Option Value)) :
    toItems slots = slots.map fun slot => slot.elim .null toJson := by
  induction slots with
  | nil => rfl
  | cons slot slots ih => cases slot <;> simp [toItems, ih]

theorem toMembers_eq_map (entries : List (String × Value)) :
    toMembers entries = entries.map fun entry => (entry.1, toJson entry.2) := by
  induction entries with
  | nil => rfl
  | cons entry entries ih => simp [toMembers, ih]

theorem ofItems_eq_map (items : List Json) : ofItems items = items.map ofJson := by
  induction items with
  | nil => rfl
  | cons item items ih => simp [ofItems, ih]

theorem ofMembers_eq_map (members : List (String × Json)) :
    ofMembers members = members.map fun member => (member.1, ofJson member.2) := by
  induction members with
  | nil => rfl
  | cons member members ih => simp [ofMembers, ih]

theorem filledSlots_eq_self_iff (slots : List (Option Value)) :
    filledSlots slots = slots ↔ ∀ slot ∈ slots, some (slot.elim nothing filled) = slot := by
  have h : slots.map (fun slot => some (slot.elim nothing filled)) = slots.map id ↔ _ :=
    List.map_inj_left
  rwa [List.map_id, ← filledSlots_eq_map] at h

theorem filledEntries_eq_self_iff (entries : List (String × Value)) :
    filledEntries entries = entries ↔ ∀ entry ∈ entries, entry.2.filled = entry.2 := by
  have h : entries.map (fun entry => (entry.1, filled entry.2)) = entries.map id ↔ _ :=
    List.map_inj_left
  rw [List.map_id, ← filledEntries_eq_map] at h
  simpa [Prod.ext_iff] using h

theorem filled_eq_self_iff (v : Value) : v.filled = v ↔ v.hasHole = false := by
  induction v using nested with
  | nothing => exact iff_of_true rfl rfl
  | scalar text => exact iff_of_true rfl rfl
  | array slots ih =>
    rw [hasHole, slotsHaveHole_eq_false, filled, array.injEq, SparseArray.mk.injEq,
      filledSlots_eq_self_iff]
    refine forall₂_congr fun slot hslot => ?_
    cases slot with
    | none => simp
    | some v => simpa using ih v hslot
  | map entries ih =>
    rw [hasHole, entriesHaveHole_eq_false, filled, map.injEq, OrderedMap.mk.injEq,
      filledEntries_eq_self_iff]
    exact forall₂_congr ih

theorem ofJson_toJson {v : Value} (h : v.Distinct) : ofJson v.toJson = v.filled := by
  induction h with
  | nothing => rfl
  | scalar text => rfl
  | @array items h ih =>
    obtain ⟨slots⟩ := items
    have hslots : (ofItems (toItems slots)).map some = filledSlots slots := by
      rw [toItems_eq_map, ofItems_eq_map, filledSlots_eq_map, List.map_map, List.map_map]
      refine List.map_congr_left fun slot hslot => ?_
      cases slot with
      | none => rfl
      | some v => exact congrArg some (ih v hslot)
    rw [toJson, ofJson, filled, ofList, SparseArray.ofList, hslots]
  | @map m hkeys h ih =>
    obtain ⟨entries⟩ := m
    have hentries : ofMembers (toMembers entries) = filledEntries entries := by
      rw [toMembers_eq_map, ofMembers_eq_map, filledEntries_eq_map, List.map_map]
      refine List.map_congr_left fun entry hentry => ?_
      exact congrArg (Prod.mk entry.1) (ih entry hentry)
    have hdistinct : OrderedMap.Distinct ⟨filledEntries entries⟩ := by
      rw [filledEntries_eq_map, OrderedMap.Distinct, OrderedMap.keys, List.map_map]
      exact hkeys
    rw [toJson, ofJson, filled, hentries]
    exact congrArg map (OrderedMap.ofList_entries hdistinct)

/-- What is read has no key twice, whatever is written. -/
theorem distinct_ofJson (v : Json) : (ofJson v).Distinct := by
  induction v using Json.nested with
  | null => exact .nothing
  | bool b => exact .scalar _
  | number n => exact .scalar n.text
  | string s => exact .scalar s
  | array items ih =>
    rw [ofJson, ofItems_eq_map]
    refine .array fun v hv => ?_
    obtain ⟨w, hw, hsome⟩ := List.mem_map.mp hv
    cases hsome
    obtain ⟨item, hitem, rfl⟩ := List.mem_map.mp hw
    exact ih item hitem
  | object members ih =>
    rw [ofJson, ofMembers_eq_map]
    refine .map (OrderedMap.distinct_ofList _) fun entry hentry => ?_
    obtain ⟨member, hmember, rfl⟩ := List.mem_map.mp (OrderedMap.mem_ofList hentry)
    exact ih member hmember

theorem numberFree_toJson (v : Value) : v.toJson.NumberFree := by
  induction v using nested with
  | nothing => exact .null
  | scalar text => exact .string text
  | array slots ih =>
    rw [toJson, toItems_eq_map]
    refine .array fun item hitem => ?_
    obtain ⟨slot, hslot, rfl⟩ := List.mem_map.mp hitem
    cases slot with
    | none => exact .null
    | some v => exact ih v hslot
  | map entries ih =>
    rw [toJson, toMembers_eq_map]
    refine .object fun member hmember => ?_
    obtain ⟨entry, hentry, rfl⟩ := List.mem_map.mp hmember
    exact ih entry hentry

theorem read_render {v : Value} (h : v.Distinct) {blanks : String}
    (hblanks : ∀ c ∈ blanks.toList, Json.Reader.isSpace c = true) :
    read (v.render ++ blanks) =
      if v.toJson.depth ≤ Json.depthLimit then some v.filled else none := by
  rw [read, render, Json.read_render (numberFree_toJson v) hblanks, ← ofJson_toJson h]
  by_cases hdepth : v.toJson.depth ≤ Json.depthLimit
  · rw [if_pos hdepth, if_pos hdepth, Option.map_some]
  · rw [if_neg hdepth, if_neg hdepth, Option.map_none]

theorem parseArguments_render {v : Value} (h : v.Distinct) :
    parseArguments true [v.render] =
      if v.toJson.depth ≤ Json.depthLimit then .ok [v.filled] else .error ⟨1, v.render⟩ := by
  have hread : read v.render = _ := String.append_empty ▸ read_render h (fun _ hc => by cases hc)
  rw [parseArguments, if_pos rfl, readArguments, hread]
  by_cases hdepth : v.toJson.depth ≤ Json.depthLimit
  · rw [if_pos hdepth, if_pos hdepth]
    rfl
  · rw [if_neg hdepth, if_neg hdepth]

theorem output_execute {c : CommandLine} {system : SystemClock} {text : Option String}
    {record : CallRecord} {outcome : Outcome} (hlist : c.list = false) (hjson : c.json = true)
    (hcall : c.call system text = .ok record) (hresult : record.result = .ok outcome) :
    (c.execute system text).output = outcome.value.render ++ "\n" := by
  simp [CommandLine.execute, hlist, hjson, hcall, hresult]

/-- Of a value that is written as JSON and read back, the holes are slots set to nothing; the rest
is as it was. -/
theorem json_round_trip {v : Value} (h : v.Distinct) :
    ofJson v.toJson = v.filled ∧
    (ofJson v.toJson = v ↔ v.hasHole = false) ∧
    parseArguments true [v.render] =
      (if v.toJson.depth ≤ 127 then .ok [v.filled] else .error ⟨1, v.render⟩) ∧
    ∀ (c : CommandLine) (system : SystemClock) (text : Option String) (record : CallRecord)
      (warning : Option String), c.list = false → c.json = true →
      c.call system text = .ok record → record.result = .ok ⟨v, warning⟩ →
      (c.execute system text).output = v.render ++ "\n" := by
  refine ⟨ofJson_toJson h, ?_, parseArguments_render h, ?_⟩
  · rw [ofJson_toJson h]
    exact filled_eq_self_iff v
  · intro c system text record warning hlist hjson hcall hresult
    exact output_execute hlist hjson hcall hresult

/-- A hole in a map in an array. -/
theorem json_round_trip_hole :
    let holed : Value := map ⟨[("\"", scalar "\n"), ("a", array ⟨[none, some nothing]⟩)]⟩
    let set : Value := map ⟨[("\"", scalar "\n"), ("a", array ⟨[some nothing, some nothing]⟩)]⟩
    let v : Value := array ⟨[some holed]⟩
    v.Distinct ∧ v.toJson.depth ≤ 127 ∧
    v.render = "[\x7b\"\\\"\":\"\\n\",\"a\":[null,null]\x7d]" ∧
    parseArguments true [v.render] = .ok [array ⟨[some set]⟩] := by
  intro holed set v
  have hitems : Distinct (array ⟨[none, some nothing]⟩) := by
    refine .array fun w hw => ?_
    rw [show w = nothing by simpa using hw]
    exact .nothing
  have hholed : holed.Distinct := by
    refine .map (show ["\"", "a"].Nodup by decide) fun entry hentry => ?_
    have hpair : entry ∈ [("\"", scalar "\n"), ("a", array ⟨[none, some nothing]⟩)] := hentry
    rw [List.mem_cons, List.mem_singleton] at hpair
    rcases hpair with rfl | rfl
    · exact .scalar "\n"
    · exact hitems
  have hdistinct : v.Distinct := by
    refine .array fun w hw => ?_
    rw [show w = holed by simpa using hw]
    exact hholed
  have hdepth : v.toJson.depth ≤ 127 := by decide
  have hparse := (json_round_trip hdistinct).2.2.1
  rw [if_pos hdepth] at hparse
  exact ⟨hdistinct, hdepth, by decide, hparse⟩

end ScriptBuiltins.Value
