import ScriptBuiltins.Builtin
import ScriptBuiltins.Proofs.Call
import ScriptBuiltins.Proofs.Text.Base64
import ScriptBuiltins.Proofs.Text.Blank

set_option autoImplicit false

namespace ScriptBuiltins.Text.Base64

def alphabet : String := "ABCDEFGHIJKLMNOPQRSTUVWXYZabcdefghijklmnopqrstuvwxyz0123456789+/"

/-- The bits of numbers of `width` bits each, the highest first. -/
def bits (width : Nat) (numbers : List Nat) : List Bool :=
  numbers.flatMap fun n => (List.range width).reverse.map n.testBit

/-- The symbols stand for the bits of the bytes and two more bits for each `=`, which are zero. -/
def Written (text : List Char) (bytes : List UInt8) : Prop :=
  ∃ (symbols : List Char) (numbers : List Nat) (pads : Nat),
    text = symbols ++ List.replicate pads '=' ∧ pads < 3 ∧ text.length % 4 = 0 ∧
    symbols.map some = numbers.map (alphabet.toList[·]?) ∧
    bits 6 numbers = bits 8 (bytes.map (·.toNat)) ++ List.replicate (2 * pads) false

theorem bits_nil (width : Nat) : bits width [] = [] := rfl

theorem bits_cons (width n : Nat) (numbers : List Nat) :
    bits width (n :: numbers) = (List.range width).reverse.map n.testBit ++ bits width numbers :=
  List.flatMap_cons

theorem length_bits (width : Nat) (numbers : List Nat) :
    (bits width numbers).length = width * numbers.length := by
  induction numbers with
  | nil => rfl
  | cons n numbers ih =>
    rw [bits_cons, List.length_append, ih, List.length_map, List.length_reverse, List.length_range,
      List.length_cons, Nat.mul_succ, Nat.add_comm]

theorem bits_inj {width : Nat} {numbers others : List Nat}
    (hnumbers : ∀ n ∈ numbers, n < 2 ^ width) (hothers : ∀ n ∈ others, n < 2 ^ width)
    (hlength : numbers.length = others.length) (h : bits width numbers = bits width others) :
    numbers = others := by
  induction numbers generalizing others with
  | nil => exact (List.length_eq_zero_iff.mp hlength.symm).symm
  | cons n numbers ih =>
    cases others with
    | nil => cases hlength
    | cons m others =>
      obtain ⟨hn, hnumbers⟩ := List.forall_mem_cons.mp hnumbers
      obtain ⟨hm, hothers⟩ := List.forall_mem_cons.mp hothers
      rw [bits_cons, bits_cons] at h
      obtain ⟨hbits, hrest⟩ := List.append_inj h (by simp)
      have hnm : n = m := by
        apply Nat.eq_of_testBit_eq
        intro i
        by_cases hi : i < width
        · exact List.map_inj_left.mp hbits i (by simpa using hi)
        · have hpow : 2 ^ width ≤ 2 ^ i := Nat.pow_le_pow_right (by decide) (by omega)
          rw [Nat.testBit_lt_two_pow (by omega), Nat.testBit_lt_two_pow (by omega)]
      rw [hnm, ih hnumbers hothers (Nat.succ.inj hlength) hrest]

theorem bits_six (n : Nat) (rest : List Nat) :
    bits 6 (n :: rest) = n.testBit 5 :: n.testBit 4 :: n.testBit 3 :: n.testBit 2 ::
      n.testBit 1 :: n.testBit 0 :: bits 6 rest := rfl

theorem bits_eight (n : Nat) (rest : List Nat) :
    bits 8 (n :: rest) = n.testBit 7 :: n.testBit 6 :: n.testBit 5 :: n.testBit 4 ::
      n.testBit 3 :: n.testBit 2 :: n.testBit 1 :: n.testBit 0 :: bits 8 rest := rfl

theorem bits_sextets (bytes : List UInt8) :
    bits 6 (sextets bytes) =
      bits 8 (bytes.map (·.toNat)) ++ List.replicate (2 * padding bytes.length) false := by
  induction bytes using encode.induct with
  | case1 a b c rest ih =>
    have ha := a.toNat_lt
    have hb := b.toNat_lt
    have hc := c.toNat_lt
    rw [sextets, List.length_cons, List.length_cons, List.length_cons, padding_add_three]
    simp only [List.map_cons, List.cons_append, bits_six, bits_eight, ih,
      Nat.testBit_eq_decide_div_mod_eq, List.cons.injEq, decide_eq_decide, and_true]
    omega
  | case2 a b =>
    have ha := a.toNat_lt
    have hb := b.toNat_lt
    have hzeros : List.replicate (2 * padding [a, b].length) false = [false, false] := rfl
    rw [hzeros, sextets]
    simp only [List.map_cons, List.map_nil, List.cons_append, List.nil_append, bits_six, bits_eight,
      bits_nil, Nat.testBit_eq_decide_div_mod_eq, List.cons.injEq, decide_eq_decide,
      decide_eq_false_iff_not, and_true]
    omega
  | case3 a =>
    have ha := a.toNat_lt
    have hzeros : List.replicate (2 * padding [a].length) false =
        [false, false, false, false] := rfl
    rw [hzeros, sextets]
    simp only [List.map_cons, List.map_nil, List.cons_append, List.nil_append, bits_six, bits_eight,
      bits_nil, Nat.testBit_eq_decide_div_mod_eq, List.cons.injEq, decide_eq_decide,
      decide_eq_false_iff_not, and_true]
    omega
  | case4 => rfl

theorem getElem?_alphabet (n : Nat) :
    alphabet.toList[n]? = if n < 64 then some (symbol n) else none := by
  have hsymbol : ∀ n < 64, alphabet.toList[n]? = some (symbol n) := by decide
  have hlength : alphabet.toList.length = 64 := by decide
  split_ifs with h
  · exact hsymbol n h
  · exact List.getElem?_eq_none (by omega)

theorem map_alphabet_iff (numbers : List Nat) (symbols : List Char) :
    symbols.map some = numbers.map (alphabet.toList[·]?) ↔
      (∀ n ∈ numbers, n < 64) ∧ symbols = numbers.map symbol := by
  constructor
  · intro h
    induction numbers generalizing symbols with
    | nil =>
      obtain rfl := List.map_eq_nil_iff.mp h
      exact ⟨List.forall_mem_nil _, rfl⟩
    | cons n numbers ih =>
      obtain ⟨c, rest, rfl, hc, hrest⟩ := List.map_eq_cons_iff.mp h
      obtain ⟨hnumbers, rfl⟩ := ih rest hrest
      have hsymbol := hc.trans (getElem?_alphabet n)
      split_ifs at hsymbol with hn
      rw [Option.some.inj hsymbol]
      exact ⟨List.forall_mem_cons.mpr ⟨hn, hnumbers⟩, rfl⟩
  · rintro ⟨hnumbers, rfl⟩
    rw [List.map_map]
    refine List.map_congr_left fun n hn => ?_
    exact ((getElem?_alphabet n).trans (if_pos (hnumbers n hn))).symm

theorem written_iff (text : List Char) (bytes : List UInt8) :
    Written text bytes ↔ text = encode bytes := by
  have hcanonical := canonical_sextets bytes
  have hlength := congrArg List.length (bits_sextets bytes)
  simp only [List.length_append, length_bits, List.length_map, List.length_replicate] at hlength
  constructor
  · rintro ⟨symbols, numbers, pads, rfl, hpads, hgroups, hsymbols, hbits⟩
    obtain ⟨hnumbers, rfl⟩ := (map_alphabet_iff numbers symbols).mp hsymbols
    have hcount := congrArg List.length hbits
    simp only [List.length_append, length_bits, List.length_map, List.length_replicate]
      at hcount hgroups
    have hpadding := hcanonical.pads_lt
    have hsextets := hcanonical.length
    obtain rfl : pads = padding bytes.length := by omega
    rw [← bits_sextets] at hbits
    rw [encode_eq, bits_inj hnumbers hcanonical.lt (by omega) hbits]
  · rintro rfl
    refine ⟨(sextets bytes).map symbol, sextets bytes, padding bytes.length, encode_eq bytes,
      hcanonical.pads_lt, ?_, ?_, bits_sextets bytes⟩
    · rw [encode_eq, List.length_append, List.length_map, List.length_replicate,
        hcanonical.length]
    · exact (map_alphabet_iff _ _).mpr ⟨hcanonical.lt, rfl⟩

theorem decode_eq_ok_iff (s : String) (bytes : List UInt8) :
    decode s = .ok bytes ↔ Written (trim s.toList) bytes := by
  rw [decode, Utf8.encode, String.toList_ofList, decodeBytes_utf8_iff, written_iff]

theorem toText_eq_ok_iff (s text : String) :
    toText s = .ok text ↔
      ∃ bytes, Written (trim s.toList) bytes ∧ Utf8.Reads bytes text.toList := by
  simp only [toText, bind_eq_ok_iff, decode_eq_ok_iff, pure, Except.pure, Except.ok.injEq,
    Utf8.reads_iff]
  refine exists_congr fun bytes => and_congr_right fun _ => ?_
  constructor
  · rintro rfl
    exact String.toList_ofList
  · intro h
    rw [← h, String.ofList_toList]

theorem exists_toText_eq_ok_iff (s : String) :
    (∃ text, toText s = .ok text) ↔ ∃ bytes, Written (trim s.toList) bytes := by
  simp only [toText_eq_ok_iff]
  constructor
  · rintro ⟨_, bytes, hwritten, _⟩
    exact ⟨bytes, hwritten⟩
  · rintro ⟨bytes, hwritten⟩
    refine ⟨String.ofList (Utf8.read bytes), bytes, hwritten, ?_⟩
    rw [Utf8.reads_iff, String.toList_ofList]

theorem trim_encode (bytes : List UInt8) : trim (encode bytes) = encode bytes := by
  apply trim_eq_self
  intro c hc
  rw [encode_eq, List.mem_append, List.mem_map] at hc
  rcases hc with ⟨n, hn, rfl⟩ | hc
  · exact isBlank_symbol n ((canonical_sextets bytes).lt n hn)
  · rw [List.eq_of_mem_replicate hc]
    rfl

theorem toText_ofText (text : String) : toText (ofText text) = .ok text := by
  rw [toText_eq_ok_iff, ofText, String.toList_ofList, trim_encode]
  refine ⟨Utf8.encode text, (written_iff _ _).mpr rfl, ?_⟩
  rw [Utf8.reads_iff, Utf8.encode, Utf8.read_flatMap_encode]

/-- Blanks around a form are left out; a bit to spare that is not zero is refused. -/
example : decode " w6k=\n" = .ok [0xC3, 0xA9] ∧
    decode "w6l=" = .error (.invalidLastSymbol 2 0x6C) := ⟨rfl, rfl⟩

end ScriptBuiltins.Text.Base64

namespace ScriptBuiltins

open Text.Base64 (ofText toText Written)

section

variable (function : String) (site : CallSite) (v : Value)

theorem call_asciiToBase64 :
    (Entry.call ⟨function, Builtin.asciiToBase64.signature, Builtin.asciiToBase64.handler⟩ site
      [v]).result = .ok ⟨.scalar (ofText v.text), none⟩ :=
  Entry.call_of_value rfl rfl

theorem call_base64ToAscii {text : String} (h : toText v.text = .ok text) :
    (Entry.call ⟨function, Builtin.base64ToAscii.signature, Builtin.base64ToAscii.handler⟩ site
      [v]).result = .ok ⟨.scalar text, none⟩ := by
  have hbound : bind Builtin.base64ToAscii.signature [v] = .ok ⟨[.text v.text], 1, []⟩ := rfl
  have harg : Bound.text ⟨[.text v.text], 1, []⟩ 0 = v.text := rfl
  refine Entry.call_of_value hbound ?_
  simp only [Builtin.handler, Handler.base64ToAscii, harg, h]

end

/-- A text is read if and only if it is the form of some bytes, once the blanks around it are left
out. -/
theorem call_base64_round_trip {disabled : List String}
    (henabled : ∀ name ∈ ["asciiToBase64", "base64ToAscii"],
      Text.anyIgnoringCase disabled name = false) (site : CallSite) :
    let call := fun name args => ((Registry.initial true disabled).call site name args).result
    (∀ t : String, toText (ofText t) = .ok t ∧
      ∃ v, call "asciiToBase64" [.scalar t] = .ok ⟨v, none⟩ ∧
        call "base64ToAscii" [v] = .ok ⟨.scalar t, none⟩) ∧
    (∀ e : String, (∃ t, toText e = .ok t) ↔ ∃ bytes, Written (Text.trim e.toList) bytes) ∧
    ∀ e t : String, toText e = .ok t ↔
      ∃ bytes, Written (Text.trim e.toList) bytes ∧ Text.Utf8.Reads bytes t.toList := by
  intro call
  refine ⟨fun t => ⟨Text.Base64.toText_ofText t, .scalar (ofText t), ?_, ?_⟩,
    Text.Base64.exists_toText_eq_ok_iff, Text.Base64.toText_eq_ok_iff⟩
  · have hname : Builtin.asciiToBase64.goesBy "asciiToBase64" = true := by decide
    obtain ⟨function, _, hcall⟩ := Registry.exists_call_initial hname (henabled _ (.head _))
    change (Registry.call _ site "asciiToBase64" _).result = _
    rw [hcall]
    exact call_asciiToBase64 function site (.scalar t)
  · have hname : Builtin.base64ToAscii.goesBy "base64ToAscii" = true := by decide
    obtain ⟨function, _, hcall⟩ :=
      Registry.exists_call_initial hname (henabled _ (.tail _ (.head _)))
    change (Registry.call _ site "base64ToAscii" _).result = _
    rw [hcall]
    exact call_base64ToAscii function site _ (Text.Base64.toText_ofText t)

/-- A letter of two bytes. -/
theorem call_base64_round_trip_accent :
    let call := fun name args =>
      ((Registry.initial true ["away"]).call CallSite.vacant name args).result
    (∀ name ∈ ["asciiToBase64", "base64ToAscii"], Text.anyIgnoringCase ["away"] name = false) ∧
    ofText "é" = "w6k=" ∧
    ∃ v, call "asciiToBase64" [.scalar "é"] = .ok ⟨v, none⟩ ∧
      call "base64ToAscii" [v] = .ok ⟨.scalar "é", none⟩ := by
  have henabled : ∀ name ∈ ["asciiToBase64", "base64ToAscii"],
      Text.anyIgnoringCase ["away"] name = false := by decide
  exact ⟨henabled, by decide, ((call_base64_round_trip henabled CallSite.vacant).1 "é").2⟩

end ScriptBuiltins
