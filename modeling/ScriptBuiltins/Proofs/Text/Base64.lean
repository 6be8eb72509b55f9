import Mathlib.Data.List.Basic
import Mathlib.Tactic.SplitIfs
import ScriptBuiltins.Proofs.Text.Utf8
import ScriptBuiltins.Text.Base64

set_option autoImplicit false

namespace ScriptBuiltins.Text.Base64

def symbolByte (n : Nat) : UInt8 := UInt8.ofNat (symbol n).toNat

theorem utf8EncodeChar_symbol : ∀ n < 64, String.utf8EncodeChar (symbol n) = [symbolByte n] := by
  decide

theorem isBlank_symbol : ∀ n < 64, isBlank (symbol n) = false := by decide

theorem symbolByte_ne_pad : ∀ n < 64, symbolByte n ≠ pad := by decide

theorem value?_symbolByte : ∀ n < 64, value? (symbolByte n) = some n := by decide

set_option maxRecDepth 2000 in
theorem value?_eq_some {byte : UInt8} {n : Nat} (h : value? byte = some n) :
    n < 64 ∧ byte = symbolByte n := by
  have hbytes : ∀ b < 256, ∀ n ∈ value? (UInt8.ofNat b), n < 64 ∧ UInt8.ofNat b = symbolByte n := by
    decide
  have hbyte := hbytes byte.toNat byte.toNat_lt
  rw [UInt8.ofNat_toNat] at hbyte
  exact hbyte n h

theorem bind_eq_ok_iff {α β : Type} {x : Except DecodeError α} {f : α → Except DecodeError β}
    {b : β} : x >>= f = .ok b ↔ ∃ a, x = .ok a ∧ f a = .ok b := by
  cases x <;> simp [bind, Except.bind]

theorem guard_eq_ok_iff {α : Type} {p : Prop} [Decidable p] {e : DecodeError}
    {x : Except DecodeError α} {a : α} :
    (if p then (do throw e; x) else x) = .ok a ↔ ¬ p ∧ x = .ok a := by
  split_ifs with h <;> simp [h, throw, throwThe, MonadExceptOf.throw, bind, Except.bind]

theorem cons_eq_ok_iff {x : Except DecodeError (List Nat)} {n : Nat} {numbers : List Nat} :
    (do return n :: (← x)) = Except.ok numbers ↔ ∃ rest, x = .ok rest ∧ n :: rest = numbers := by
  simp only [bind_eq_ok_iff, pure, Except.pure, Except.ok.injEq]

theorem values_eq_ok_iff {offset : Nat} {bytes : List UInt8} {numbers : List Nat} :
    values offset bytes = .ok numbers ↔
      (∀ n ∈ numbers, n < 64) ∧ bytes = numbers.map symbolByte := by
  constructor
  · intro h
    induction bytes generalizing offset numbers with
    | nil =>
      cases h
      simp
    | cons byte bytes ih =>
      rw [values] at h
      cases hvalue : value? byte with
      | none => simp only [hvalue, reduceCtorEq] at h
      | some n =>
        simp only [hvalue, cons_eq_ok_iff] at h
        obtain ⟨rest, hrest, rfl⟩ := h
        obtain ⟨hn, rfl⟩ := value?_eq_some hvalue
        obtain ⟨hsmall, rfl⟩ := ih hrest
        exact ⟨List.forall_mem_cons.mpr ⟨hn, hsmall⟩, rfl⟩
  · rintro ⟨hsmall, rfl⟩
    induction numbers generalizing offset with
    | nil => rfl
    | cons n numbers ih =>
      obtain ⟨hn, hsmall⟩ := List.forall_mem_cons.mp hsmall
      rw [List.map_cons, values, value?_symbolByte n hn]
      exact cons_eq_ok_iff.mpr ⟨numbers, ih hsmall, rfl⟩

/-- So much padding may stand at the place. -/
def PadsAt (place pads : Nat) : Prop := pads = 0 ∨ 2 ≤ place % 4 ∧ place % 4 + pads ≤ 4

theorem padsAt_succ (place pads : Nat) :
    PadsAt place (pads + 1) ↔ ¬ place % 4 < 2 ∧ PadsAt (place + 1) pads := by
  simp only [PadsAt]
  omega

theorem lastValues_pad {start place : Nat} {padAt : Option Nat} {bytes : List UInt8}
    {numbers : List Nat} :
    lastValues start place padAt (pad :: bytes) = .ok numbers ↔ ¬ place % 4 < 2 ∧
      lastValues start (place + 1) (some (padAt.getD (start + place))) bytes = .ok numbers := by
  have hstep : lastValues start place padAt (pad :: bytes) =
      if place % 4 < 2 then .error (.invalidByte (padAt.getD (start + place)) pad)
      else lastValues start (place + 1) (some (padAt.getD (start + place))) bytes := by
    rw [lastValues.eq_def]
    exact if_pos rfl
  rw [hstep]
  split_ifs with hplace <;> simp [hplace]

theorem lastValues_symbol {start place n : Nat} {byte : UInt8} (hpad : byte ≠ pad)
    (hvalue : value? byte = some n) (bytes : List UInt8) :
    lastValues start place none (byte :: bytes) =
      do return n :: (← lastValues start (place + 1) none bytes) := by
  simp only [lastValues, hvalue, if_neg hpad]

/-- Once padding has begun nothing else follows. -/
theorem lastValues_some_iff {start place first : Nat} {bytes : List UInt8} {numbers : List Nat} :
    lastValues start place (some first) bytes = .ok numbers ↔
      numbers = [] ∧ ∃ pads, PadsAt place pads ∧ bytes = List.replicate pads pad := by
  constructor
  · intro h
    induction bytes generalizing place with
    | nil =>
      cases h
      exact ⟨rfl, 0, .inl rfl, rfl⟩
    | cons byte bytes ih =>
      by_cases hpad : byte = pad
      · subst hpad
        obtain ⟨hplace, hrest⟩ := lastValues_pad.mp h
        obtain ⟨hnil, pads, hpads, rfl⟩ := ih hrest
        exact ⟨hnil, pads + 1, (padsAt_succ place pads).mpr ⟨hplace, hpads⟩, rfl⟩
      · rw [lastValues, if_neg hpad] at h
        cases h
  · rintro ⟨rfl, pads, hpads, rfl⟩
    induction pads generalizing place with
    | zero => rfl
    | succ pads ih =>
      obtain ⟨hplace, hpads⟩ := (padsAt_succ place pads).mp hpads
      exact lastValues_pad.mpr ⟨hplace, ih hpads⟩

theorem lastValues_none_iff {start place : Nat} {bytes : List UInt8} {numbers : List Nat} :
    lastValues start place none bytes = .ok numbers ↔
      (∀ n ∈ numbers, n < 64) ∧ ∃ pads, PadsAt (place + numbers.length) pads ∧
        bytes = numbers.map symbolByte ++ List.replicate pads pad := by
  constructor
  · intro h
    induction bytes generalizing place numbers with
    | nil =>
      cases h
      exact ⟨by simp, 0, .inl rfl, rfl⟩
    | cons byte bytes ih =>
      by_cases hpad : byte = pad
      · subst hpad
        obtain ⟨hplace, hrest⟩ := lastValues_pad.mp h
        obtain ⟨rfl, pads, hpads, rfl⟩ := lastValues_some_iff.mp hrest
        exact ⟨by simp, pads + 1, (padsAt_succ place pads).mpr ⟨hplace, hpads⟩, rfl⟩
      · cases hvalue : value? byte with
        | none => simp [lastValues, hvalue, hpad] at h
        | some n =>
          rw [lastValues_symbol hpad hvalue, cons_eq_ok_iff] at h
          obtain ⟨rest, hrest, rfl⟩ := h
          obtain ⟨hn, rfl⟩ := value?_eq_some hvalue
          obtain ⟨hsmall, pads, hpads, rfl⟩ := ih hrest
          rw [Nat.add_right_comm] at hpads
          exact ⟨List.forall_mem_cons.mpr ⟨hn, hsmall⟩, pads, hpads, rfl⟩
  · rintro ⟨hsmall, pads, hpads, rfl⟩
    induction numbers generalizing place with
    | nil =>
      cases pads with
      | zero => rfl
      | succ pads =>
        obtain ⟨hplace, hpads⟩ := (padsAt_succ place pads).mp hpads
        exact lastValues_pad.mpr ⟨hplace, lastValues_some_iff.mpr ⟨rfl, pads, hpads, rfl⟩⟩
    | cons n numbers ih =>
      obtain ⟨hn, hsmall⟩ := List.forall_mem_cons.mp hsmall
      rw [List.length_cons, ← Nat.add_assoc, Nat.add_right_comm] at hpads
      rw [List.map_cons, List.cons_append,
        lastValues_symbol (symbolByte_ne_pad n hn) (value?_symbolByte n hn)]
      exact cons_eq_ok_iff.mpr ⟨numbers, ih hsmall hpads, rfl⟩

theorem checkLength_eq_ok_iff {bytes : List UInt8} :
    checkLength bytes = .ok () ↔ bytes.length % 4 ≠ 1 := by
  rw [checkLength]
  split_ifs with h
  · cases bytes.getLast? with
    | none => simp [h]
    | some last =>
      dsimp only
      split_ifs <;> simp [h]
  · simp [h]

theorem checkSpareBits_eq_ok_iff {ahead : Nat} {block : List UInt8} {numbers : List Nat}
    (h : numbers.length ≤ block.length) :
    checkSpareBits ahead block numbers = .ok () ↔
      ∀ last ∈ numbers.getLast?, spareBits numbers.length last = 0 := by
  rcases List.eq_nil_or_concat' numbers with rfl | ⟨numbers, last, rfl⟩
  · simp [checkSpareBits]
  · rw [List.length_append, List.length_singleton] at h
    have hbyte : block[numbers.length + 1 - 1]? = some block[numbers.length] := by
      simp
    simp only [checkSpareBits, List.getLast?_concat, List.length_append, List.length_singleton,
      hbyte]
    split_ifs with hspare <;> simp [hspare]

/-- The numbers and the padding that make a form. -/
structure Canonical (numbers : List Nat) (pads : Nat) : Prop where
  lt : ∀ n ∈ numbers, n < 64
  pads_lt : pads < 3
  length : (numbers.length + pads) % 4 = 0
  spare : ∀ last ∈ numbers.getLast?, spareBits numbers.length last = 0

theorem spareBits_add {ahead : Nat} (h : ahead % 4 = 0) (count last : Nat) :
    spareBits (ahead + count) last = spareBits count last := by
  rw [spareBits, spareBits, Nat.add_mod, h, Nat.zero_add, Nat.mod_mod]

/-- Whole groups ahead have nothing to spare. -/
theorem canonical_append {whole rest : List Nat} {pads : Nat} (h : whole.length % 4 = 0) :
    Canonical (whole ++ rest) pads ↔ (∀ n ∈ whole, n < 64) ∧ Canonical rest pads := by
  have hspare : (∀ last ∈ (whole ++ rest).getLast?, spareBits (whole ++ rest).length last = 0) ↔
      ∀ last ∈ rest.getLast?, spareBits rest.length last = 0 := by
    simp only [List.length_append, List.getLast?_append, spareBits_add h]
    cases hlast : rest.getLast? with
    | some => rw [Option.some_or]
    | none =>
      rw [List.getLast?_eq_none_iff.mp hlast]
      simp [spareBits]
  constructor
  · intro hcanonical
    obtain ⟨hwhole, hrest⟩ := List.forall_mem_append.mp hcanonical.lt
    have hlength := hcanonical.length
    rw [List.length_append] at hlength
    exact ⟨hwhole, hrest, hcanonical.pads_lt, by omega, hspare.mp hcanonical.spare⟩
  · rintro ⟨hwhole, hrest⟩
    have hlength := hrest.length
    refine ⟨List.forall_mem_append.mpr ⟨hwhole, hrest.lt⟩, hrest.pads_lt, ?_,
      hspare.mpr hrest.spare⟩
    rw [List.length_append]
    omega

theorem lastBlock_iff {ahead : Nat} {block : List UInt8} {numbers : List Nat} :
    (lastValues ahead 0 none block = .ok numbers ∧ block.length % 4 = 0 ∧
      checkSpareBits ahead block numbers = .ok ()) ↔
      ∃ pads, Canonical numbers pads ∧
        block = numbers.map symbolByte ++ List.replicate pads pad := by
  rw [lastValues_none_iff]
  constructor
  · rintro ⟨⟨hsmall, pads, hpads, rfl⟩, hlength, hspare⟩
    rw [checkSpareBits_eq_ok_iff (by simp)] at hspare
    rw [List.length_append, List.length_map, List.length_replicate] at hlength
    rw [PadsAt] at hpads
    exact ⟨pads, ⟨hsmall, by omega, hlength, hspare⟩, rfl⟩
  · rintro ⟨pads, hcanonical, rfl⟩
    have hpads := hcanonical.pads_lt
    have hlength := hcanonical.length
    refine ⟨⟨hcanonical.lt, pads, ?_, rfl⟩, ?_, ?_⟩
    · rw [PadsAt]
      omega
    · rwa [List.length_append, List.length_map, List.length_replicate]
    · exact (checkSpareBits_eq_ok_iff (by simp)).mpr hcanonical.spare

/-- The checks that a text passes, in their order. -/
theorem decodeBytes_eq_ok_iff_checks (bytes decoded : List UInt8) :
    let ahead := (bytes.length - 1) / 8 * 8
    let block := bytes.drop ahead
    decodeBytes bytes = .ok decoded ↔
      checkLength bytes = .ok () ∧
      ∃ whole, values 0 (bytes.take ahead) = .ok whole ∧
      ∃ rest, lastValues ahead 0 none block = .ok rest ∧ block.length % 4 = 0 ∧
        checkSpareBits ahead block rest = .ok () ∧ join (whole ++ rest) = decoded := by
  intro ahead block
  simp only [decodeBytes, bind_eq_ok_iff, guard_eq_ok_iff, Unique.exists_iff, not_not, ne_eq,
    pure, Except.pure, Except.ok.injEq]
  rfl

theorem decodeBytes_eq_ok_iff {bytes decoded : List UInt8} :
    decodeBytes bytes = .ok decoded ↔
      ∃ numbers pads, Canonical numbers pads ∧
        bytes = numbers.map symbolByte ++ List.replicate pads pad ∧ join numbers = decoded := by
  refine (decodeBytes_eq_ok_iff_checks bytes decoded).trans ?_
  generalize hahead : (bytes.length - 1) / 8 * 8 = ahead
  rw [checkLength_eq_ok_iff]
  constructor
  · rintro ⟨-, whole, hwhole, rest, hrest, hblock, hspare, hjoin⟩
    obtain ⟨hsmall, htake⟩ := values_eq_ok_iff.mp hwhole
    obtain ⟨pads, hcanonical, hdrop⟩ := lastBlock_iff.mp ⟨hrest, hblock, hspare⟩
    have hlength := congrArg List.length htake
    rw [List.length_take, List.length_map] at hlength
    refine ⟨whole ++ rest, pads, (canonical_append (by omega)).mpr ⟨hsmall, hcanonical⟩, ?_, hjoin⟩
    rw [List.map_append, List.append_assoc, ← htake, ← hdrop, List.take_append_drop]
  · rintro ⟨numbers, pads, hcanonical, rfl, hjoin⟩
    have hpads := hcanonical.pads_lt
    have hlength := hcanonical.length
    simp only [List.length_append, List.length_map, List.length_replicate] at hahead ⊢
    -- The padding is in the last block, since the block is of four or eight bytes.
    have hle : ahead ≤ (numbers.map symbolByte).length := by
      rw [List.length_map]
      omega
    have htake : (numbers.take ahead).length % 4 = 0 := by
      rw [List.length_take]
      omega
    have hparts := hcanonical
    rw [← List.take_append_drop ahead numbers, canonical_append htake] at hparts
    rw [List.take_append_of_le_length hle, List.drop_append_of_le_length hle, ← List.map_take,
      ← List.map_drop]
    obtain ⟨hrest, hblock, hspare⟩ := lastBlock_iff.mpr ⟨pads, hparts.2, rfl⟩
    refine ⟨by omega, numbers.take ahead, values_eq_ok_iff.mpr ⟨hparts.1, rfl⟩,
      numbers.drop ahead, hrest, hblock, hspare, ?_⟩
    rw [List.take_append_drop, hjoin]

def sextets : List UInt8 → List Nat
  | a :: b :: c :: rest =>
    a.toNat / 4 :: (a.toNat % 4 * 16 + b.toNat / 16) :: (b.toNat % 16 * 4 + c.toNat / 64) ::
      c.toNat % 64 :: sextets rest
  | [a, b] => [a.toNat / 4, a.toNat % 4 * 16 + b.toNat / 16, b.toNat % 16 * 4]
  | [a] => [a.toNat / 4, a.toNat % 4 * 16]
  | [] => []

/-- The signs of padding after so many bytes. -/
def padding (count : Nat) : Nat := (3 - count % 3) % 3

theorem padding_lt (count : Nat) : padding count < 3 := Nat.mod_lt _ (by decide)

theorem padding_add_three (count : Nat) : padding (count + 3) = padding count := by
  simp only [padding]
  omega

theorem encode_eq (bytes : List UInt8) :
    encode bytes = (sextets bytes).map symbol ++ List.replicate (padding bytes.length) '=' := by
  induction bytes using encode.induct with
  | case1 a b c rest ih =>
    rw [encode, sextets, ih, List.length_cons, List.length_cons, List.length_cons,
      padding_add_three]
    rfl
  | case2 | case3 | case4 => rfl

theorem canonical_group {a b c d : Nat} {rest : List Nat} {pads : Nat} :
    Canonical (a :: b :: c :: d :: rest) pads ↔
      (a < 64 ∧ b < 64 ∧ c < 64 ∧ d < 64) ∧ Canonical rest pads := by
  have hgroup : [a, b, c, d].length % 4 = 0 := by simp
  refine (canonical_append hgroup).trans ?_
  simp

theorem ofNat_eq {n : Nat} (byte : UInt8) (h : n = byte.toNat) : UInt8.ofNat n = byte := by
  rw [h, UInt8.ofNat_toNat]

theorem join_sextets (bytes : List UInt8) : join (sextets bytes) = bytes := by
  induction bytes using encode.induct with
  | case1 a b c rest ih =>
    have hb := b.toNat_lt
    have hc := c.toNat_lt
    rw [sextets, join, ih, ofNat_eq a (by omega), ofNat_eq b (by omega), ofNat_eq c (by omega)]
  | case2 a b =>
    have hb := b.toNat_lt
    rw [sextets, join, ofNat_eq a (by omega), ofNat_eq b (by omega)]
  | case3 a => rw [sextets, join, ofNat_eq a (by omega)]
  | case4 => rfl

theorem canonical_sextets (bytes : List UInt8) :
    Canonical (sextets bytes) (padding bytes.length) := by
  induction bytes using encode.induct with
  | case1 a b c rest ih =>
    have ha := a.toNat_lt
    have hb := b.toNat_lt
    have hc := c.toNat_lt
    rw [sextets, List.length_cons, List.length_cons, List.length_cons, padding_add_three]
    exact canonical_group.mpr ⟨by omega, ih⟩
  | case2 a b =>
    have ha := a.toNat_lt
    have hb := b.toNat_lt
    refine ⟨?_, padding_lt _, by simp [sextets, padding], ?_⟩
    · have hlt : a.toNat / 4 < 64 ∧ a.toNat % 4 * 16 + b.toNat / 16 < 64 ∧
          b.toNat % 16 * 4 < 64 := by omega
      simpa [sextets] using hlt
    · rintro last ⟨⟩
      show b.toNat % 16 * 4 % 4 = 0
      omega
  | case3 a =>
    have ha := a.toNat_lt
    refine ⟨?_, padding_lt _, by simp [sextets, padding], ?_⟩
    · have hlt : a.toNat / 4 < 64 ∧ a.toNat % 4 * 16 < 64 := by omega
      simpa [sextets] using hlt
    · rintro last ⟨⟩
      show a.toNat % 4 * 16 % 16 = 0
      omega
  | case4 => exact ⟨List.forall_mem_nil _, padding_lt _, rfl, by simp [sextets]⟩

theorem Canonical.sextets_join {numbers : List Nat} {pads : Nat} (h : Canonical numbers pads) :
    sextets (join numbers) = numbers ∧ padding (join numbers).length = pads := by
  have hpads := h.pads_lt
  have hlength := h.length
  induction numbers using join.induct with
  | case1 a b c d rest ih =>
    obtain ⟨⟨ha, hb, hc, hd⟩, hrest⟩ := canonical_group.mp h
    obtain ⟨hnumbers, hpadding⟩ := ih hrest hrest.length
    rw [join, sextets, hnumbers]
    simp only [List.length_cons, padding_add_three, hpadding, UInt8.toNat_ofNat', List.cons.injEq,
      and_true]
    omega
  | case2 a b c =>
    obtain ⟨ha, hb, hc⟩ : a < 64 ∧ b < 64 ∧ c < 64 := by simpa using h.lt
    have hspare : c % 4 = 0 := h.spare c rfl
    simp only [List.length_cons, List.length_nil] at hlength
    simp only [join, sextets, padding, List.length_cons, List.length_nil, UInt8.toNat_ofNat',
      List.cons.injEq, and_true]
    omega
  | case3 a b =>
    obtain ⟨ha, hb⟩ : a < 64 ∧ b < 64 := by simpa using h.lt
    have hspare : b % 16 = 0 := h.spare b rfl
    simp only [List.length_cons, List.length_nil] at hlength
    simp only [join, sextets, padding, List.length_cons, List.length_nil, UInt8.toNat_ofNat',
      List.cons.injEq, and_true]
    omega
  | case4 numbers hfour hthree htwo =>
    match numbers with
    | [] =>
      simp only [List.length_nil] at hlength
      simp only [join, sextets, padding, List.length_nil, true_and]
      omega
    | [_] =>
      simp only [List.length_cons, List.length_nil] at hlength
      omega
    | [a, b] => exact (htwo a b rfl).elim
    | [a, b, c] => exact (hthree a b c rfl).elim
    | a :: b :: c :: d :: rest => exact (hfour a b c d rest rfl).elim

theorem utf8Encode_symbols {numbers : List Nat} (h : ∀ n ∈ numbers, n < 64) (pads : Nat) :
    (numbers.map symbol ++ List.replicate pads '=').flatMap String.utf8EncodeChar =
      numbers.map symbolByte ++ List.replicate pads pad := by
  induction numbers with
  | nil =>
    exact List.flatMap_replicate.trans List.flatten_replicate_singleton
  | cons n numbers ih =>
    obtain ⟨hn, hnumbers⟩ := List.forall_mem_cons.mp h
    rw [List.map_cons, List.cons_append, List.flatMap_cons, utf8EncodeChar_symbol n hn, ih hnumbers]
    rfl

theorem decodeBytes_utf8_iff (text : List Char) (bytes : List UInt8) :
    decodeBytes (text.flatMap String.utf8EncodeChar) = .ok bytes ↔ text = encode bytes := by
  rw [decodeBytes_eq_ok_iff]
  constructor
  · rintro ⟨numbers, pads, hcanonical, htext, rfl⟩
    obtain ⟨hnumbers, hpads⟩ := hcanonical.sextets_join
    rw [encode_eq, hnumbers, hpads]
    rw [← utf8Encode_symbols hcanonical.lt] at htext
    have hread := congrArg Utf8.read htext
    rwa [Utf8.read_flatMap_encode, Utf8.read_flatMap_encode] at hread
  · rintro rfl
    refine ⟨sextets bytes, padding bytes.length, canonical_sextets bytes, ?_, join_sextets bytes⟩
    rw [encode_eq, utf8Encode_symbols (canonical_sextets bytes).lt]

end ScriptBuiltins.Text.Base64
