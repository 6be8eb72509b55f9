import ScriptBuiltins.Proofs.OrderedMap
import ScriptBuiltins.Value

set_option autoImplicit false

namespace ScriptBuiltins.Value

/-- What holds of a container where it holds of all that is in it, holds of every value. -/
@[elab_as_elim]
theorem nested {motive : Value → Prop} (nothing : motive .nothing)
    (scalar : ∀ text, motive (.scalar text))
    (array : ∀ slots, (∀ v, some v ∈ slots → motive v) → motive (.array ⟨slots⟩))
    (map : ∀ entries, (∀ entry ∈ entries, motive entry.2) → motive (.map ⟨entries⟩)) (v : Value) :
    motive v := by
  refine @Value.rec motive (fun items => motive (.array items)) (fun m => motive (.map m))
    (fun slots => ∀ v, some v ∈ slots → motive v)
    (fun entries => ∀ entry ∈ entries, motive entry.2)
    (fun slot => ∀ v, slot = some v → motive v) (fun entry => motive entry.2)
    nothing scalar (fun _ h => h) (fun _ h => h) array map ?_ ?_ ?_ ?_ ?_ ?_ (fun _ _ h => h) v
  · intro v h
    cases h
  · intro slot slots hslot hslots v hv
    cases List.mem_cons.mp hv with
    | inl h => exact hslot v h.symm
    | inr h => exact hslots v h
  · intro entry h
    cases h
  · intro entry entries hentry hentries other hother
    cases List.mem_cons.mp hother with
    | inl h => exact h ▸ hentry
    | inr h => exact hentries other h
  · intro v h
    cases h
  · intro v hv w hw
    cases hw
    exact hv

/-- No map has a key twice, at any depth. -/
inductive Distinct : Value → Prop
  | nothing : Distinct nothing
  | scalar (text : String) : Distinct (scalar text)
  | array {items : SparseArray Value} (h : ∀ v, some v ∈ items.slots → Distinct v) :
    Distinct (array items)
  | map {m : OrderedMap Value} (hkeys : m.Distinct) (h : ∀ entry ∈ m.entries, Distinct entry.2) :
    Distinct (map m)

end ScriptBuiltins.Value
