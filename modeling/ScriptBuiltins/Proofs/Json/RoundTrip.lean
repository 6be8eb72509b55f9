import Mathlib.Logic.Basic
import ScriptBuiltins.Json.Printer
import ScriptBuiltins.Json.Reader
import ScriptBuiltins.Proofs.Json.Quoted

set_option autoImplicit false

namespace ScriptBuiltins.Json

/-- What holds of an array or an object where it holds of all that is in it, holds of all JSON. -/
@[elab_as_elim]
theorem nested {motive : Json → Prop} (null : motive .null) (bool : ∀ b, motive (.bool b))
    (number : ∀ n, motive (.number n)) (string : ∀ s, motive (.string s))
    (array : ∀ items, (∀ v ∈ items, motive v) → motive (.array items))
    (object : ∀ members, (∀ member ∈ members, motive member.2) → motive (.object members))
    (v : Json) : motive v := by
  refine @Json.rec motive (fun items => ∀ v ∈ items, motive v)
    (fun members => ∀ member ∈ members, motive member.2) (fun member => motive member.2)
    null bool number string array object ?_ ?_ ?_ ?_ (fun _ _ h => h) v
  · intro v h
    cases h
  · intro v items hv hitems w hw
    cases List.mem_cons.mp hw with
    | inl h => exact h ▸ hv
    | inr h => exact hitems w h
  · intro member h
    cases h
  · intro member members hmember hmembers other hother
    cases List.mem_cons.mp hother with
    | inl h => exact h ▸ hmember
    | inr h => exact hmembers other h

mutual

def depth : Json → Nat
  | array items => itemsDepth items + 1
  | object members => membersDepth members + 1
  | _ => 0
termination_by structural v => v

def itemsDepth : List Json → Nat
  | [] => 0
  | v :: items => max (depth v) (itemsDepth items)
termination_by structural items => items

def membersDepth : List (String × Json) → Nat
  | [] => 0
  | (_, v) :: members => max (depth v) (membersDepth members)
termination_by structural members => members

end

inductive NumberFree : Json → Prop
  | null : NumberFree null
  | bool (b : Bool) : NumberFree (bool b)
  | string (s : String) : NumberFree (string s)
  | array {items : List Json} (h : ∀ v ∈ items, NumberFree v) : NumberFree (array items)
  | object {members : List (String × Json)} (h : ∀ member ∈ members, NumberFree member.2) :
    NumberFree (object members)

namespace Reader

def run (limit : Nat) (state : State) (cs : List Char) : Option State :=
  cs.foldlM (step limit) state

section

variable {limit : Nat}

theorem run_cons {state next : State} {c : Char} (h : step limit state c = some next)
    (cs : List Char) : run limit state (c :: cs) = run limit next cs := by
  rw [run, List.foldlM_cons, h]
  rfl

theorem run_cons_of_none {state : State} {c : Char} (h : step limit state c = none)
    (cs : List Char) : run limit state (c :: cs) = none := by
  rw [run, List.foldlM_cons, h]
  rfl

theorem run_of_runs {scan last : Quoted.Scan} {cs : List Char} (h : Quoted.Runs scan cs last)
    (stack : List Frame) (purpose : Purpose) (rest : List Char) :
    run limit ⟨stack, .string purpose scan⟩ (cs ++ rest) =
      run limit ⟨stack, .string purpose last⟩ rest := by
  induction h with
  | nil scan => rfl
  | cons hstep _ ih =>
    rw [← ih]
    refine run_cons ?_ _
    simp only [step, hstep]

theorem run_quoted {stack : List Frame} {mode : Mode} {purpose : Purpose}
    (h : step limit ⟨stack, mode⟩ '"' = some ⟨stack, .string purpose Quoted.start⟩) (s : String)
    (rest : List Char) :
    run limit ⟨stack, mode⟩ (Quoted.chars s ++ rest) =
      run limit (endString stack s purpose) rest := by
  have hquote : step limit ⟨stack, .string purpose ⟨s.toList.reverse, .plain⟩⟩ '"' =
      some (endString stack s purpose) := by
    simp [step, Quoted.Scan.step]
  rw [Quoted.chars, List.append_assoc, List.cons_append, run_cons h, Quoted.start,
    run_of_runs (Quoted.runs_flatMap s.toList []), List.append_nil, List.singleton_append,
    run_cons hquote]

theorem run_key (stack : List Frame) (members : List (String × Json)) (closable : Bool)
    (key : String) (rest : List Char) :
    run limit ⟨stack, .key members closable⟩ (Quoted.chars key ++ ':' :: rest) =
      run limit ⟨.object members key :: stack, .value false⟩ rest := by
  rw [run_quoted rfl]
  exact run_cons rfl rest

/-- The characters of the value are read as the value, if there is room for it on the stack. -/
def ReadsBack (limit : Nat) (v : Json) : Prop :=
  ∀ stack closable rest, run limit ⟨stack, .value closable⟩ (chars v ++ rest) =
    if depth v ≤ limit - stack.length then run limit ⟨stack, .complete v⟩ rest else none

theorem if_max_le (a b room : Nat) (x : Option State) :
    (if a ≤ room then if b ≤ room then x else none else none) =
      if max a b ≤ room then x else none := by
  rw [← ite_and]
  exact if_congr Nat.max_le.symm rfl rfl

theorem run_itemsChars {items : List Json} (h : ∀ v ∈ items, ReadsBack limit v)
    (stack : List Frame) (before : List Json) (v : Json) (rest : List Char) :
    run limit ⟨.array before :: stack, .complete v⟩ (itemsChars items ++ rest) =
      if itemsDepth items ≤ limit - (stack.length + 1) then
        run limit ⟨stack, .complete (.array (before.reverse ++ v :: items))⟩ rest
      else none := by
  -- The items before stand on the stack with the last one in front.
  induction items generalizing before v with
  | nil =>
    rw [itemsDepth, if_pos (Nat.zero_le _), ← List.reverse_cons]
    exact run_cons rfl rest
  | cons w items ih =>
    have hcomma : step limit ⟨.array before :: stack, .complete v⟩ ',' =
        some ⟨.array (v :: before) :: stack, .value false⟩ := rfl
    have hitems := ih (fun u hu => h u (List.mem_cons_of_mem w hu)) (v :: before) w
    rw [itemsChars, List.append_assoc, List.cons_append, run_cons hcomma,
      h w List.mem_cons_self, hitems, List.length_cons, List.reverse_cons, List.append_assoc,
      List.singleton_append, if_max_le, itemsDepth]

theorem run_membersChars {members : List (String × Json)}
    (h : ∀ member ∈ members, ReadsBack limit member.2) (stack : List Frame)
    (before : List (String × Json)) (key : String) (v : Json) (rest : List Char) :
    run limit ⟨.object before key :: stack, .complete v⟩ (membersChars members ++ rest) =
      if membersDepth members ≤ limit - (stack.length + 1) then
        run limit ⟨stack, .complete (.object (before.reverse ++ (key, v) :: members))⟩ rest
      else none := by
  induction members generalizing before key v with
  | nil =>
    rw [membersDepth, if_pos (Nat.zero_le _), ← List.reverse_cons]
    exact run_cons rfl rest
  | cons member members ih =>
    obtain ⟨next, w⟩ := member
    have hcomma : step limit ⟨.object before key :: stack, .complete v⟩ ',' =
        some ⟨stack, .key ((key, v) :: before) false⟩ := rfl
    have hmembers := ih (fun u hu => h u (List.mem_cons_of_mem _ hu)) ((key, v) :: before) next w
    have hchars : membersChars ((next, w) :: members) ++ rest =
        ',' :: (Quoted.chars next ++ ':' :: (chars w ++ (membersChars members ++ rest))) := by
      simp [membersChars]
    rw [hchars, run_cons hcomma, run_key, h (next, w) List.mem_cons_self, hmembers,
      List.length_cons, List.reverse_cons, List.append_assoc, List.singleton_append, if_max_le,
      membersDepth]

/-- An open bracket takes one place on the stack. -/
theorem if_one_le (stack : List Frame) (a : Nat) (x : Option State) :
    (if stack.length < limit then if a ≤ limit - (stack.length + 1) then x else none else none) =
      if a + 1 ≤ limit - stack.length then x else none := by
  rw [← ite_and]
  exact if_congr (by omega) rfl rfl

theorem run_cons_open {state next : State} {c : Char}
    (h : step limit state c = if state.stack.length < limit then some next else none)
    (cs : List Char) :
    run limit state (c :: cs) =
      if state.stack.length < limit then run limit next cs else none := by
  by_cases hroom : state.stack.length < limit
  · rw [if_pos hroom] at h ⊢
    exact run_cons h cs
  · rw [if_neg hroom] at h ⊢
    exact run_cons_of_none h cs

theorem readsBack {v : Json} (h : v.NumberFree) : ReadsBack limit v := by
  -- The hypothesis is for every stack: what is in an array is read with the array on the stack.
  induction h with
  | null =>
    intro stack closable rest
    rfl
  | bool b =>
    intro stack closable rest
    cases b <;> rfl
  | string s =>
    intro stack closable rest
    have hquote : step limit ⟨stack, .value closable⟩ '"' =
        some ⟨stack, .string .value Quoted.start⟩ := rfl
    exact run_quoted hquote s rest
  | @array items hitems ih =>
    intro stack closable rest
    have hopen : step limit ⟨stack, .value closable⟩ '[' =
        if stack.length < limit then some ⟨.array [] :: stack, .value true⟩ else none := rfl
    rw [depth, ← if_one_le]
    cases items with
    | nil => exact run_cons_open hopen (']' :: rest)
    | cons v items =>
      have hrest := run_itemsChars (fun u hu => ih u (List.mem_cons_of_mem v hu)) stack [] v rest
      rw [chars, List.append_assoc, List.cons_append, run_cons_open hopen, ih v List.mem_cons_self,
        List.length_cons, hrest, if_max_le]
      rfl
  | @object members hmembers ih =>
    intro stack closable rest
    have hopen : step limit ⟨stack, .value closable⟩ '\x7b' =
        if stack.length < limit then some ⟨stack, .key [] true⟩ else none := rfl
    rw [depth, ← if_one_le]
    cases members with
    | nil => exact run_cons_open hopen ('\x7d' :: rest)
    | cons member members =>
      obtain ⟨key, v⟩ := member
      have hrest := run_membersChars (fun u hu => ih u (List.mem_cons_of_mem _ hu)) stack [] key v
        rest
      have hchars : chars (.object ((key, v) :: members)) ++ rest =
          '\x7b' :: (Quoted.chars key ++ ':' :: (chars v ++ (membersChars members ++ rest))) := by
        simp [chars]
      rw [hchars, run_cons_open hopen, run_key, ih (key, v) List.mem_cons_self, List.length_cons,
        hrest, if_max_le]
      rfl

theorem run_spaces {spaces : List Char} (h : ∀ c ∈ spaces, isSpace c = true) (v : Json) :
    run limit ⟨[], .complete v⟩ spaces = some ⟨[], .complete v⟩ := by
  induction spaces with
  | nil => rfl
  | cons c spaces ih =>
    have hspace : step limit ⟨[], .complete v⟩ c = some ⟨[], .complete v⟩ :=
      if_pos (h c List.mem_cons_self)
    rw [run_cons hspace]
    exact ih fun d hd => h d (List.mem_cons_of_mem c hd)

theorem readChars_chars {v : Json} (h : v.NumberFree) {spaces : List Char}
    (hspaces : ∀ c ∈ spaces, isSpace c = true) :
    readChars limit (chars v ++ spaces) = if depth v ≤ limit then some v else none := by
  change (run limit ⟨[], .value false⟩ (chars v ++ spaces)).bind finish = _
  rw [readsBack h [] false spaces, run_spaces hspaces, List.length_nil, Nat.sub_zero]
  by_cases hdepth : depth v ≤ limit
  · rw [if_pos hdepth, if_pos hdepth]
    rfl
  · rw [if_neg hdepth, if_neg hdepth]
    rfl

end

end Reader

/-- Blanks behind the value are no part of it. -/
theorem read_render {v : Json} (h : v.NumberFree) {blanks : String}
    (hblanks : ∀ c ∈ blanks.toList, Reader.isSpace c = true) :
    read (v.render ++ blanks) = if v.depth ≤ depthLimit then some v else none := by
  rw [read, render, String.toList_append, String.toList_ofList]
  exact Reader.readChars_chars h hblanks

end ScriptBuiltins.Json
