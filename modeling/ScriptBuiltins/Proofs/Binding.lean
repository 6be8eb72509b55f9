import Mathlib.Tactic.SplitIfs
import ScriptBuiltins.Binding
import ScriptBuiltins.Proofs.Integer

set_option autoImplicit false

namespace ScriptBuiltins

def Param.fault? (p : Param) : Option Value → Option BindingError
  | none => if p.required then some (.missingRequiredArgument p.name) else none
  | some v =>
    if p.kind = .nonemptyText ∧ v.text = "" then some (.emptyStringNotAllowed p.name) else none

def Kind.Coerces : Kind → Value → Slot → Prop
  | unsigned, v, slot => ∃ n : UInt64, slot = .unsigned n ∧ (n.toNat : Int) = max 0 v.integer
  | signed, v, slot => slot = .signed v.integer
  | text, v, slot | nonemptyText, v, slot => slot = .text v.text
  | boolean, v, slot => ∃ b : Bool, slot = .boolean b ∧ (b = true ↔ v.integer ≠ 0)
  | variant, v, slot => slot = .variant v

def Param.Takes (p : Param) : Option Value → Slot → Prop
  | none, slot => slot = p.kind.zero
  | some v, slot => p.kind.Coerces v slot

/-- The first parameter that finds fault finds this one. -/
def FirstFault (params : List Param) (args : List Value) (e : BindingError) : Prop :=
  ∃ (i : Nat) (p : Param), params[i]? = some p ∧ p.fault? args[i]? = some e ∧
    ∀ (j : Nat) (q : Param), j < i → params[j]? = some q → q.fault? args[j]? = none

theorem Param.coerce_of_fault {p : Param} {v : Value} {e : BindingError}
    (h : p.fault? (some v) = some e) : p.coerce v = .error e := by
  simp only [fault?] at h
  split_ifs at h with hempty
  cases h
  simp [coerce, hempty.1, hempty.2]

theorem Param.exists_coerce {p : Param} {v : Value} (h : p.fault? (some v) = none) :
    ∃ slot, p.coerce v = .ok slot ∧ p.kind.Coerces v slot := by
  simp only [fault?] at h
  split_ifs at h with hempty
  cases hkind : p.kind with
  | unsigned =>
    exact ⟨_, by simp only [coerce, hkind], _, rfl, v.toNat_ofNat_integer⟩
  | nonemptyText =>
    have htext : v.text.isEmpty = false := by simpa [hkind] using hempty
    exact ⟨.text v.text, by simp [coerce, hkind, htext], rfl⟩
  | boolean =>
    exact ⟨_, by simp only [coerce, hkind], v.boolean, rfl, by simp [Value.boolean]⟩
  | signed | text | variant => exact ⟨_, by simp only [coerce, hkind], rfl⟩

theorem Kind.Coerces.unique {k : Kind} {v : Value} {slot slot' : Slot} (h : k.Coerces v slot)
    (h' : k.Coerces v slot') : slot = slot' := by
  cases k with
  | unsigned =>
    obtain ⟨n, rfl, hn⟩ := h
    obtain ⟨n', rfl, hn'⟩ := h'
    have heq : n.toNat = n'.toNat := by omega
    rw [UInt64.toNat_inj.mp heq]
  | boolean =>
    obtain ⟨b, rfl, hb⟩ := h
    obtain ⟨b', rfl, hb'⟩ := h'
    rw [Bool.eq_iff_iff.mpr (hb.trans hb'.symm)]
  | signed | text | nonemptyText | variant => exact h.trans h'.symm

theorem Param.coerce_eq_ok_iff {p : Param} {v : Value} {slot : Slot} :
    p.coerce v = .ok slot ↔
      p.kind.Coerces v slot ∧ (p.kind = .nonemptyText → v.text ≠ "") := by
  have hfault : p.fault? (some v) = none ↔ (p.kind = .nonemptyText → v.text ≠ "") := by
    simp [fault?]
  rw [← hfault]
  constructor
  · intro h
    cases hv : p.fault? (some v) with
    | some e =>
      rw [coerce_of_fault hv] at h
      cases h
    | none =>
      obtain ⟨slot', hslot', hcoerces⟩ := exists_coerce hv
      rw [h] at hslot'
      cases hslot'
      exact ⟨hcoerces, rfl⟩
  · rintro ⟨hcoerces, hv⟩
    obtain ⟨slot', hslot', hcoerces'⟩ := exists_coerce hv
    rw [hslot', hcoerces'.unique hcoerces]

theorem bindSlots_cons_of_fault {p : Param} {args : List Value} {e : BindingError}
    (h : p.fault? args.head? = some e) (params : List Param) :
    bindSlots (p :: params) args = .error e := by
  cases args with
  | nil =>
    simp only [List.head?_nil, Param.fault?] at h
    split_ifs at h with hrequired
    cases h
    simp [bindSlots, hrequired]
  | cons v args =>
    rw [bindSlots, Param.coerce_of_fault h]
    rfl

theorem bindSlots_cons {p : Param} {args : List Value} (h : p.fault? args.head? = none)
    (params : List Param) :
    ∃ slot, p.Takes args.head? slot ∧ bindSlots (p :: params) args =
      (bindSlots params args.tail).map fun bound => (slot :: bound.1, bound.2) := by
  cases args with
  | nil =>
    have hrequired : p.required = false := by simpa [Param.fault?] using h
    refine ⟨p.kind.zero, rfl, ?_⟩
    rw [bindSlots, hrequired]
    rfl
  | cons v args =>
    obtain ⟨slot, hslot, hcoerces⟩ := Param.exists_coerce h
    refine ⟨slot, hcoerces, ?_⟩
    rw [bindSlots, hslot]
    rfl

theorem firstFault_cons (p : Param) (params : List Param) (args : List Value) (e : BindingError) :
    FirstFault (p :: params) args e ↔
      p.fault? args.head? = some e ∨
        p.fault? args.head? = none ∧ FirstFault params args.tail e := by
  have hhead : args[0]? = args.head? := List.head?_eq_getElem?.symm
  have htail : ∀ i : Nat, args.tail[i]? = args[i + 1]? := fun i => List.getElem?_tail
  constructor
  · rintro ⟨i, q, hq, hfault, hbefore⟩
    cases i with
    | zero =>
      cases hq
      exact .inl (hhead ▸ hfault)
    | succ i =>
      refine .inr ⟨hhead ▸ hbefore 0 p (Nat.succ_pos i) rfl, i, q, hq, htail i ▸ hfault, ?_⟩
      intro j r hj hr
      rw [htail]
      exact hbefore (j + 1) r (Nat.succ_lt_succ hj) hr
  · rintro (hfault | ⟨hnone, i, q, hq, hfault, hbefore⟩)
    · refine ⟨0, p, rfl, hhead ▸ hfault, ?_⟩
      intro j _ hj
      exact absurd hj (Nat.not_lt_zero j)
    · refine ⟨i + 1, q, hq, htail i ▸ hfault, ?_⟩
      intro j r hj hr
      cases j with
      | zero =>
        cases hr
        exact hhead ▸ hnone
      | succ j =>
        rw [← htail]
        exact hbefore j r (Nat.lt_of_succ_lt_succ hj) hr

theorem bindSlots_eq_error_iff (params : List Param) (args : List Value) (e : BindingError) :
    bindSlots params args = .error e ↔ FirstFault params args e := by
  induction params generalizing args with
  | nil =>
    rw [bindSlots]
    constructor
    · intro h
      cases h
    · rintro ⟨i, p, hp, _⟩
      cases hp
  | cons p params ih =>
    rw [firstFault_cons, ← ih]
    cases hfault : p.fault? args.head? with
    | some first =>
      rw [bindSlots_cons_of_fault hfault]
      simp
    | none =>
      obtain ⟨slot, _, heq⟩ := bindSlots_cons hfault params
      rw [heq]
      cases bindSlots params args.tail <;> simp [Except.map]

theorem bindSlots_eq_ok {params : List Param} {args : List Value} {slots : List Slot}
    {rest : List Value} (h : bindSlots params args = .ok (slots, rest)) :
    slots.length = params.length ∧ rest = args.drop params.length ∧
      ∀ (i : Nat) (p : Param), params[i]? = some p → p.fault? args[i]? = none ∧
        ∃ slot, slots[i]? = some slot ∧ p.Takes args[i]? slot := by
  -- Each step takes a parameter and an argument; the empty list stays empty.
  induction params generalizing args slots with
  | nil =>
    rw [bindSlots] at h
    cases h
    exact ⟨rfl, rfl, fun i p hp => by cases hp⟩
  | cons p params ih =>
    cases hfault : p.fault? args.head? with
    | some first =>
      rw [bindSlots_cons_of_fault hfault] at h
      cases h
    | none =>
      obtain ⟨slot, htakes, heq⟩ := bindSlots_cons hfault params
      rw [heq] at h
      cases htail : bindSlots params args.tail with
      | error e =>
        rw [htail] at h
        cases h
      | ok bound =>
        rw [htail] at h
        cases h
        obtain ⟨hlength, hrest, hslots⟩ := ih htail
        refine ⟨by simp [hlength], ?_, ?_⟩
        · rw [hrest, List.length_cons, List.drop_tail]
        · intro i q hq
          cases i with
          | zero =>
            cases hq
            rw [← List.head?_eq_getElem?]
            exact ⟨hfault, slot, rfl, htakes⟩
          | succ i =>
            rw [← List.getElem?_tail]
            exact hslots i q hq

theorem bind_eq_error_iff (s : Signature) (args : List Value) (e : BindingError) :
    bind s args = .error e ↔ FirstFault s.params args e := by
  rw [← bindSlots_eq_error_iff, bind]
  cases bindSlots s.params args <;> simp [Bind.bind, Except.bind, pure, Except.pure]

theorem bind_eq_ok {s : Signature} {args : List Value} {b : Bound} (h : bind s args = .ok b) :
    b.slots.length = s.params.length ∧
    (∀ (i : Nat) (p : Param), s.params[i]? = some p → p.fault? args[i]? = none ∧
      ∃ slot, b.slots[i]? = some slot ∧ p.Takes args[i]? slot) ∧
    b.supplied = min args.length s.params.length ∧
    b.rest = if s.variadic then args.drop s.params.length else [] := by
  rw [bind] at h
  cases hslots : bindSlots s.params args with
  | error e =>
    rw [hslots] at h
    cases h
  | ok pair =>
    rw [hslots] at h
    cases h
    obtain ⟨hlength, hrest, htakes⟩ := bindSlots_eq_ok hslots
    exact ⟨hlength, htakes, rfl, by rw [← hrest]⟩

theorem exists_bind_eq_ok_iff (s : Signature) (args : List Value) :
    (∃ b, bind s args = .ok b) ↔
      ∀ (i : Nat) (p : Param), s.params[i]? = some p → p.fault? args[i]? = none := by
  constructor
  · rintro ⟨b, hb⟩ i p hp
    exact ((bind_eq_ok hb).2.1 i p hp).1
  · intro h
    cases hb : bind s args with
    | error e =>
      obtain ⟨i, p, hp, hfault, _⟩ := (bind_eq_error_iff s args e).mp hb
      rw [h i p hp] at hfault
      cases hfault
    | ok b => exact ⟨b, rfl⟩

theorem Param.fault?_eq_none_iff (p : Param) (args : List Value) (i : Nat) :
    p.fault? args[i]? = none ↔
      (p.required = true → i < args.length) ∧
        ∀ v, args[i]? = some v → p.kind = .nonemptyText → v.text ≠ "" := by
  by_cases hi : i < args.length
  · rw [List.getElem?_eq_getElem hi]
    simp [fault?, hi]
  · rw [List.getElem?_eq_none (Nat.le_of_not_lt hi)]
    simp [fault?, hi]

theorem Bound.isSupplied_iff {s : Signature} {args : List Value} {b : Bound}
    (h : bind s args = .ok b) {i : Nat} (hi : i < s.params.length) :
    b.isSupplied i = true ↔ i < args.length := by
  rw [isSupplied, (bind_eq_ok h).2.2.1, decide_eq_true_eq]
  omega

theorem exists_slot {s : Signature} {args : List Value} {b : Bound} (h : bind s args = .ok b)
    {i : Nat} {p : Param} {v : Value} (hp : s.params[i]? = some p) (hv : args[i]? = some v) :
    ∃ slot, b.slots[i]? = some slot ∧ p.kind.Coerces v slot := by
  have hslot := ((bind_eq_ok h).2.1 i p hp).2
  rw [hv] at hslot
  exact hslot

theorem Bound.toNat_unsigned {s : Signature} {args : List Value} {b : Bound}
    (h : bind s args = .ok b) {i : Nat} {name : String} {required : Bool} {v : Value}
    (hp : s.params[i]? = some ⟨name, .unsigned, required⟩) (hv : args[i]? = some v) :
    ((b.unsigned i).toNat : Int) = max 0 v.integer := by
  obtain ⟨_, hslot, n, rfl, hn⟩ := exists_slot h hp hv
  rw [unsigned, hslot]
  exact hn

theorem Bound.signed_eq {s : Signature} {args : List Value} {b : Bound}
    (h : bind s args = .ok b) {i : Nat} {name : String} {required : Bool} {v : Value}
    (hp : s.params[i]? = some ⟨name, .signed, required⟩) (hv : args[i]? = some v) :
    b.signed i = v.integer := by
  obtain ⟨_, hslot, rfl⟩ := exists_slot h hp hv
  rw [signed, hslot]

theorem Bound.text_eq {s : Signature} {args : List Value} {b : Bound}
    (h : bind s args = .ok b) {i : Nat} {name : String} {required : Bool} {v : Value}
    (hp : s.params[i]? = some ⟨name, .text, required⟩) (hv : args[i]? = some v) :
    b.text i = v.text := by
  obtain ⟨_, hslot, rfl⟩ := exists_slot h hp hv
  rw [text, hslot]

theorem Bound.nonemptyText_eq {s : Signature} {args : List Value} {b : Bound}
    (h : bind s args = .ok b) {i : Nat} {name : String} {required : Bool} {v : Value}
    (hp : s.params[i]? = some ⟨name, .nonemptyText, required⟩) (hv : args[i]? = some v) :
    b.text i = v.text := by
  obtain ⟨_, hslot, rfl⟩ := exists_slot h hp hv
  rw [text, hslot]

end ScriptBuiltins
