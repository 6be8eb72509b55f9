import ScriptBuiltins.Proofs.Equality
import ScriptBuiltins.Proofs.OrderedMap
import ScriptBuiltins.Proofs.SparseArray

set_option autoImplicit false

/-! To compare maps only the keys of one are looked up in the other. That is enough because no key
is there twice and both have the same number of them. -/
namespace ScriptBuiltins.Value

/-- What can be made of nothing and texts with the operations on arrays and maps, or be taken out of
what was made. -/
inductive Built : Value → Prop
  | nothing : Built nothing
  | scalar (text : String) : Built (scalar text)
  | emptyArray : Built (array .empty)
  | ofList {values : List Value} (h : ∀ v ∈ values, Built v) : Built (ofList values)
  | set {items : SparseArray Value} {v : Value} (hitems : Built (array items)) (hv : Built v)
    (i : Nat) : Built (array (items.set i v))
  | push {items : SparseArray Value} {v : Value} (hitems : Built (array items)) (hv : Built v) :
    Built (array (items.push v))
  | unset {items : SparseArray Value} (h : Built (array items)) (i : Nat) :
    Built (array (items.unset i).2)
  | element {items : SparseArray Value} {i : Nat} {v : Value} (h : Built (array items))
    (hv : items.get? i = some v) : Built v
  | emptyMap : Built (map .empty)
  | ofPairs {pairs : List (String × Value)} (h : ∀ pair ∈ pairs, Built pair.2) :
    Built (map (.ofList pairs))
  | insert {m : OrderedMap Value} {v : Value} (hm : Built (map m)) (hv : Built v) (key : String) :
    Built (map (m.insert key v))
  | remove {m : OrderedMap Value} (h : Built (map m)) (key : String) :
    Built (map (m.remove key).2)
  | member {m : OrderedMap Value} {key : String} {v : Value} (h : Built (map m))
    (hv : m.get? key = some v) : Built v

inductive Same : Value → Value → Prop
  | nothing : Same nothing nothing
  | scalar (text : String) : Same (scalar text) (scalar text)
  | array {a b : SparseArray Value} (hset : ∀ i, a.get? i = none ↔ b.get? i = none)
    (h : ∀ i v w, a.get? i = some v → b.get? i = some w → Same v w) : Same (array a) (array b)
  | map {m n : OrderedMap Value} (hkeys : ∀ key, m.get? key = none ↔ n.get? key = none)
    (h : ∀ key v w, m.get? key = some v → n.get? key = some w → Same v w) : Same (map m) (map n)

/-- At every depth no array ends in a hole and no map has a key twice. -/
inductive WellFormed : Value → Prop
  | nothing : WellFormed nothing
  | scalar (text : String) : WellFormed (scalar text)
  | array {items : SparseArray Value} (htrimmed : items.Trimmed)
    (h : ∀ i v, items.get? i = some v → WellFormed v) : WellFormed (array items)
  | map {m : OrderedMap Value} (hdistinct : m.Distinct)
    (h : ∀ key v, m.get? key = some v → WellFormed v) : WellFormed (map m)

theorem wellFormed_update {κ : Type} [DecidableEq κ] {f : κ → Option Value}
    (h : ∀ place v, f place = some v → WellFormed v) {new : Option Value}
    (hnew : ∀ v, new = some v → WellFormed v) (changed place : κ) (v : Value)
    (hv : Function.update f changed new place = some v) : WellFormed v := by
  rw [Function.update_apply] at hv
  split_ifs at hv
  · exact hnew v hv
  · exact h place v hv

theorem Built.wellFormed {v : Value} (h : Built v) : WellFormed v := by
  induction h with
  | nothing => exact .nothing
  | scalar text => exact .scalar text
  | emptyArray => exact .array (SparseArray.trimmed_ofList []) (fun _ _ h => by cases h)
  | @ofList values _ ih =>
    refine .array (SparseArray.trimmed_ofList values) fun i v hv => ih v ?_
    rw [SparseArray.get?_ofList] at hv
    exact List.mem_of_getElem? hv
  | @set items v _ _ i hitems hv =>
    cases hitems with
    | array htrimmed hall =>
      refine .array (htrimmed.set i v) ?_
      rcases Nat.lt_or_ge SparseArray.maxIndex i with hi | hi
      · rwa [SparseArray.set_eq_self hi]
      · rw [SparseArray.get?_set hi]
        exact wellFormed_update hall (by rintro _ ⟨⟩; exact hv) i
  | @push items v _ _ hitems hv =>
    cases hitems with
    | array _ hall =>
      refine .array (SparseArray.trimmed_push items v) ?_
      rw [SparseArray.get?_push]
      exact wellFormed_update hall (by rintro _ ⟨⟩; exact hv) items.size
  | @unset items _ i hitems =>
    cases hitems with
    | array _ hall =>
      refine .array (SparseArray.trimmed_unset items i) ?_
      rw [SparseArray.get?_unset]
      exact wellFormed_update hall (by rintro _ ⟨⟩) i
  | @element items i v _ hv ih =>
    cases ih with
    | array _ hall => exact hall i v hv
  | emptyMap => exact .map List.nodup_nil (fun _ _ h => by cases h)
  | @ofPairs pairs _ ih =>
    refine .map (OrderedMap.distinct_ofList pairs) fun key v hv => ?_
    exact ih (key, v) (OrderedMap.mem_ofList (OrderedMap.mem_entries_of_get? hv))
  | @insert m v _ _ key hm hv =>
    cases hm with
    | map hdistinct hall =>
      refine .map (hdistinct.insert key v) ?_
      rw [OrderedMap.get?_insert]
      exact wellFormed_update hall (by rintro _ ⟨⟩; exact hv) key
  | @remove m _ key hm =>
    cases hm with
    | map hdistinct hall =>
      refine .map (hdistinct.erase key) ?_
      rw [OrderedMap.remove, hdistinct.get?_erase]
      exact wellFormed_update hall (by rintro _ ⟨⟩) key
  | @member m key v _ hv ih =>
    cases ih with
    | map _ hall => exact hall key v hv

theorem rel_iff {α β : Type} {R : α → β → Prop} (o : Option α) (p : Option β) :
    Option.Rel R o p ↔ (o = none ↔ p = none) ∧ ∀ v w, o = some v → p = some w → R v w := by
  cases o <;> cases p <;> simp

theorem array_equal_iff_get? {a b : SparseArray Value} (ha : a.Trimmed) (hb : b.Trimmed) :
    (array a).equal (array b) = true ↔
      (∀ i, a.get? i = none ↔ b.get? i = none) ∧
        ∀ i v w, a.get? i = some v → b.get? i = some w → v.equal w = true := by
  rw [array_equal_iff, ha.forall₂_iff hb]
  simp only [rel_iff, forall_and]

theorem agree_iff (entries : List (String × Value)) (other : OrderedMap Value) :
    agree entries other = true ↔
      ∀ key v, (key, v) ∈ entries → ∃ w, other.get? key = some w ∧ v.equal w = true := by
  induction entries with
  | nil => simp [agree]
  | cons entry entries ih =>
    obtain ⟨key, v⟩ := entry
    rw [agree, Bool.and_eq_true, ih]
    constructor
    · rintro ⟨hfirst, hrest⟩ other v hmem
      rcases List.mem_cons.mp hmem with heq | hmem
      · cases heq
        split at hfirst
        · rename_i w hw
          exact ⟨w, hw, hfirst⟩
        · cases hfirst
      · exact hrest other v hmem
    · intro h
      obtain ⟨w, hw, heq⟩ := h key v List.mem_cons_self
      rw [hw]
      exact ⟨heq, fun key v hmem => h key v (List.mem_cons_of_mem _ hmem)⟩

theorem map_equal_iff_get? {m n : OrderedMap Value} (hm : m.Distinct) (hn : n.Distinct) :
    (map m).equal (map n) = true ↔
      (∀ key, m.get? key = none ↔ n.get? key = none) ∧
        ∀ key v w, m.get? key = some v → n.get? key = some w → v.equal w = true := by
  rw [equal, Bool.and_eq_true, beq_iff_eq, agree_iff]
  exact hm.related_iff hn

theorem equal_iff_same {v w : Value} (hv : v.WellFormed) (hw : w.WellFormed) :
    v.equal w = true ↔ Same v w := by
  induction hv generalizing w with
  | nothing =>
    cases hw with
    | nothing => exact iff_of_true rfl .nothing
    | _ => exact iff_of_false (by simp [equal]) (by rintro ⟨⟩)
  | scalar text =>
    cases hw with
    | scalar other =>
      rw [equal, beq_iff_eq]
      exact ⟨fun h => h ▸ .scalar text, by rintro ⟨⟩; rfl⟩
    | _ => exact iff_of_false (by simp [equal]) (by rintro ⟨⟩)
  | @array a ha hall ih =>
    cases hw with
    | @array b hb hother =>
      rw [array_equal_iff_get? ha hb]
      constructor
      · rintro ⟨hset, hequal⟩
        exact .array hset fun i v w hv hw =>
          (ih i v hv (hother i w hw)).mp (hequal i v w hv hw)
      · rintro ⟨⟩
        rename_i hset hsame
        exact ⟨hset, fun i v w hv hw => (ih i v hv (hother i w hw)).mpr (hsame i v w hv hw)⟩
    | _ => exact iff_of_false (by simp [equal]) (by rintro ⟨⟩)
  | @map m hm hall ih =>
    cases hw with
    | @map n hn hother =>
      rw [map_equal_iff_get? hm hn]
      constructor
      · rintro ⟨hkeys, hequal⟩
        exact .map hkeys fun key v w hv hw =>
          (ih key v hv (hother key w hw)).mp (hequal key v w hv hw)
      · rintro ⟨⟩
        rename_i hkeys hsame
        exact ⟨hkeys, fun key v w hv hw =>
          (ih key v hv (hother key w hw)).mpr (hsame key v w hv hw)⟩
    | _ => exact iff_of_false (by simp [equal]) (by rintro ⟨⟩)

theorem WellFormed.same_refl {v : Value} (h : v.WellFormed) : Same v v := by
  induction h with
  | nothing => exact .nothing
  | scalar text => exact .scalar text
  | array _ _ ih =>
    refine .array (fun i => Iff.rfl) fun i v w hv hw => ?_
    cases hv.symm.trans hw
    exact ih i v hv
  | map _ _ ih =>
    refine .map (fun key => Iff.rfl) fun key v w hv hw => ?_
    cases hv.symm.trans hw
    exact ih key v hv

theorem Same.symm {v w : Value} (h : Same v w) : Same w v := by
  induction h with
  | nothing => exact .nothing
  | scalar text => exact .scalar text
  | array hset _ ih => exact .array (fun i => (hset i).symm) fun i v w hv hw => ih i w v hw hv
  | map hkeys _ ih =>
    exact .map (fun key => (hkeys key).symm) fun key v w hv hw => ih key w v hw hv

theorem Same.trans {u v w : Value} (h : Same u v) (h' : Same v w) : Same u w := by
  induction h generalizing w with
  | nothing => exact h'
  | scalar text => exact h'
  | @array a b hset _ ih =>
    cases h' with
    | array hset' hsame =>
      refine .array (fun i => (hset i).trans (hset' i)) fun i u w hu hw => ?_
      obtain ⟨v, hv⟩ := Option.ne_none_iff_exists'.mp (mt (hset i).mpr (by simp [hu]))
      exact ih i u v hu hv (hsame i v w hv hw)
  | @map m n hkeys _ ih =>
    cases h' with
    | map hkeys' hsame =>
      refine .map (fun key => (hkeys key).trans (hkeys' key)) fun key u w hu hw => ?_
      obtain ⟨v, hv⟩ := Option.ne_none_iff_exists'.mp (mt (hkeys key).mpr (by simp [hu]))
      exact ih key u v hu hv (hsame key v w hv hw)

theorem Same.typeName_eq {v w : Value} (h : Same v w) : v.typeName = w.typeName := by
  cases h <;> rfl

theorem Same.integer_eq {v w : Value} (h : Same v w) (hv : v.WellFormed) (hw : w.WellFormed) :
    v.integer = w.integer := by
  cases h with
  | nothing => rfl
  | scalar text => rfl
  | array hset _ =>
    cases hv with
    | array ha _ =>
      cases hw with
      | array hb _ => rw [integer, integer, ha.size_eq hb hset]
  | map hkeys _ =>
    cases hv with
    | map hm _ =>
      cases hw with
      | map hn _ => rw [integer, integer, hm.size_eq hn hkeys]

theorem Built.equality {u v w : Value} (hu : Built u) (hv : Built v) (hw : Built w) :
    u.equal u = true ∧
    (u.equal v = true → v.equal u = true) ∧
    (u.equal v = true → v.equal w = true → u.equal w = true) ∧
    (u.equal v = true ↔ Same u v) ∧
    (u.equal v = true →
      u.integer = v.integer ∧ u.boolean = v.boolean ∧ u.typeName = v.typeName) ∧
    (∀ a b, u = array a → v = array b →
      (u.equal v = true ↔
        (∀ i, a.get? i = none ↔ b.get? i = none) ∧
          ∀ i x y, a.get? i = some x → b.get? i = some y → x.equal y = true)) ∧
    ∀ m n, u = map m → v = map n →
      (u.equal v = true ↔
        (∀ key, m.get? key = none ↔ n.get? key = none) ∧
          ∀ key x y, m.get? key = some x → n.get? key = some y → x.equal y = true) := by
  have hu := hu.wellFormed
  have hv := hv.wellFormed
  have hw := hw.wellFormed
  rw [equal_iff_same hu hu, equal_iff_same hu hv, equal_iff_same hv hu, equal_iff_same hv hw,
    equal_iff_same hu hw]
  refine ⟨hu.same_refl, Same.symm, Same.trans, Iff.rfl, ?_, ?_, ?_⟩
  · intro h
    have hinteger := h.integer_eq hu hv
    exact ⟨hinteger, by rw [boolean, boolean, hinteger], h.typeName_eq⟩
  · rintro a b rfl rfl
    rw [← equal_iff_same hu hv]
    cases hu with
    | array ha _ =>
      cases hv with
      | array hb _ => exact array_equal_iff_get? ha hb
  · rintro m n rfl rfl
    rw [← equal_iff_same hu hv]
    cases hu with
    | map hm _ =>
      cases hv with
      | map hn _ => exact map_equal_iff_get? hm hn

/-- Two maps that were written in different order, and a third without the hole. -/
theorem equality_of_maps :
    let holed : SparseArray Value := SparseArray.empty.set 1 nothing
    let filled : SparseArray Value := .ofList [nothing, nothing]
    let u := map ((OrderedMap.empty.insert "x" (array holed)).insert "y" (scalar "1"))
    let v := map ((OrderedMap.empty.insert "y" (scalar "1")).insert "x" (array holed))
    let w := map ((OrderedMap.empty.insert "y" (scalar "1")).insert "x" (array filled))
    Built u ∧ Built v ∧ Built w ∧ u.equal v = true ∧ v.equal u = true ∧ u.equal w = false := by
  intro holed filled u v w
  have hholed : Built (array holed) := .set .emptyArray .nothing 1
  have hfilled : Built (array filled) := .ofList (by simp [Built.nothing])
  have hu : Built u := .insert (.insert .emptyMap hholed "x") (.scalar "1") "y"
  have hv : Built v := .insert (.insert .emptyMap (.scalar "1") "y") hholed "x"
  have hw : Built w := .insert (.insert .emptyMap (.scalar "1") "y") hfilled "x"
  have huv : u.equal v = true := by decide
  exact ⟨hu, hv, hw, huv, (Built.equality hu hv hw).2.1 huv, by decide⟩

end ScriptBuiltins.Value
