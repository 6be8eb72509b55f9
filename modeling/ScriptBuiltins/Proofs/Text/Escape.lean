import ScriptBuiltins.Proofs.Binding
import ScriptBuiltins.Proofs.Call

set_option autoImplicit false

namespace ScriptBuiltins.Text

inductive Piece where
  | plain (c : Char)
  | pair (c : Char)

namespace Piece

def chars : Piece → List Char
  | plain c => [c]
  | pair c => ['\\', c]

def meaning : Piece → Char
  | plain c => c
  | pair c => if c = 'n' then '\n' else c

def ofChar (c : Char) : Piece :=
  if c = '\n' then pair 'n' else if c ∈ metacharacters then pair c else plain c

end Piece

/-- There is no reading if the last character is a backslash that begins a pair. -/
def pieces? : List Char → Option (List Piece)
  | [] => some []
  | ['\\'] => none
  | '\\' :: c :: rest => (pieces? rest).map (.pair c :: ·)
  | c :: rest => (pieces? rest).map (.plain c :: ·)

def unescape (s : String) : Option String :=
  (pieces? s.toList).map fun pieces => String.ofList (pieces.map Piece.meaning)

namespace Piece

theorem chars_ofChar (c : Char) : (ofChar c).chars = escapeChar c := by
  unfold ofChar escapeChar
  split_ifs <;> rfl

theorem meaning_ofChar (c : Char) : (ofChar c).meaning = c := by
  unfold ofChar
  split_ifs with hnewline hmeta
  · rw [hnewline]
    rfl
  · have hn : c ≠ 'n' := by
      rintro rfl
      revert hmeta
      decide
    exact if_neg hn
  · rfl

theorem notMem_of_ofChar_eq {c d : Char} (h : ofChar c = plain d) : d ∉ metacharacters := by
  unfold ofChar at h
  split_ifs at h with hnewline hmeta
  cases h
  exact hmeta

end Piece

theorem newline_notMem_escapeChar (c : Char) : '\n' ∉ escapeChar c := by
  unfold escapeChar
  split_ifs with hnewline hmeta
  · decide
  all_goals simp [Ne.symm hnewline]

theorem pieces?_plain {c : Char} (h : c ≠ '\\') (rest : List Char) :
    pieces? (c :: rest) = (pieces? rest).map (.plain c :: ·) := by
  rw [pieces?]
  · rintro rfl
    contradiction
  · rintro _ _ rfl
    contradiction

/-- A backslash is never left as a piece of its own, so pieces are read as they are. -/
theorem pieces?_flatMap_chars {pieces : List Piece} (h : .plain '\\' ∉ pieces) :
    pieces? (pieces.flatMap Piece.chars) = some pieces := by
  induction pieces with
  | nil => rfl
  | cons piece pieces ih =>
    have hrest := ih (List.not_mem_of_not_mem_cons h)
    cases piece with
    | plain c =>
      have hc : c ≠ '\\' := by
        rintro rfl
        exact h List.mem_cons_self
      change pieces? (c :: pieces.flatMap Piece.chars) = _
      rw [pieces?_plain hc, hrest]
      rfl
    | pair c =>
      change (pieces? (pieces.flatMap Piece.chars)).map (.pair c :: ·) = _
      rw [hrest]
      rfl

section

variable (s : String)

theorem toList_escape :
    (escape s).toList = (s.toList.map Piece.ofChar).flatMap Piece.chars := by
  rw [escape, String.toList_ofList, List.flatMap_map]
  exact List.flatMap_congr fun c _ => (Piece.chars_ofChar c).symm

theorem notMem_of_plain_mem {c : Char} (h : .plain c ∈ s.toList.map Piece.ofChar) :
    c ∉ metacharacters := by
  obtain ⟨d, _, hd⟩ := List.mem_map.mp h
  exact Piece.notMem_of_ofChar_eq hd

theorem pieces?_escape : pieces? (escape s).toList = some (s.toList.map Piece.ofChar) := by
  rw [toList_escape]
  exact pieces?_flatMap_chars fun h => notMem_of_plain_mem s h (by decide)

theorem unescape_escape : unescape (escape s) = some s := by
  have hmeaning : s.toList.map (Piece.meaning ∘ Piece.ofChar) = s.toList.map id :=
    List.map_congr_left fun c _ => Piece.meaning_ofChar c
  rw [unescape, pieces?_escape, Option.map_some, List.map_map, hmeaning, List.map_id,
    String.ofList_toList]

theorem newline_notMem_escape : '\n' ∉ (escape s).toList := by
  rw [escape, String.toList_ofList, List.mem_flatMap]
  rintro ⟨c, _, hc⟩
  exact newline_notMem_escapeChar c hc

end

end ScriptBuiltins.Text

namespace ScriptBuiltins

open Text (escape unescape pieces? Piece)

theorem call_escape (function : String) (site : CallSite) {v : Value} (h : v.text ≠ "") :
    (Entry.call ⟨function, Builtin.escape.signature, Builtin.escape.handler⟩ site [v]).result =
      .ok ⟨.scalar (escape v.text), none⟩ := by
  have hcoerce : Param.coerce (.mandatory "text" .nonemptyText) v = .ok (.text v.text) :=
    Param.coerce_eq_ok_iff.mpr ⟨rfl, fun _ => h⟩
  have hbound : bind Builtin.escape.signature [v] = .ok ⟨[.text v.text], 1, []⟩ := by
    simp only [bind, Builtin.signature, Signature.fixed, bindSlots, hcoerce]
    rfl
  exact Entry.call_of_value hbound rfl

/-- Escaped text can be read back, has no newline, and a character that the command language knows
stands in it only as part of a pair. -/
theorem escape_lossless :
    (∀ s : String, unescape (escape s) = some s ∧ '\n' ∉ (escape s).toList ∧
      ∃ pieces, pieces? (escape s).toList = some pieces ∧
        pieces.flatMap Piece.chars = (escape s).toList ∧
        ∀ c, .plain c ∈ pieces → c ∉ "\\$%;\"\x7b\x7d()[]".toList) ∧
    ∀ (disabled : List String) (name : String), Builtin.escape.goesBy name = true →
      Text.anyIgnoringCase disabled name = false →
      ∀ (site : CallSite) (v : Value), v.text ≠ "" →
        ((Registry.initial true disabled).call site name [v]).result =
          .ok ⟨.scalar (escape v.text), none⟩ := by
  constructor
  · intro s
    refine ⟨Text.unescape_escape s, Text.newline_notMem_escape s, s.toList.map Piece.ofChar,
      Text.pieces?_escape s, (Text.toList_escape s).symm, ?_⟩
    intro c hc
    exact Text.notMem_of_plain_mem s hc
  · intro disabled name hname henabled site v hv
    obtain ⟨function, _, hcall⟩ := Registry.exists_call_initial hname henabled
    rw [hcall, call_escape function site hv]

/-- A backslash before the letter that stands for a newline, and a newline. -/
example : escape "\\n\n" = "\\\\n\\n" ∧ unescape "\\\\n\\n" = some "\\n\n" := ⟨rfl, rfl⟩

end ScriptBuiltins
