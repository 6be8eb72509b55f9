import Mathlib.Algebra.Group.Nat.Defs
import Mathlib.Data.List.Basic
import Mathlib.Data.List.Induction
import Mathlib.Tactic.SplitIfs
import ScriptBuiltins.Text.Utf8

set_option autoImplicit false

/-! What any bytes are read as is told from the bytes of characters alone: characters where they
stand; elsewhere one replacement character for the longest run that begins a character, or for one
byte that begins none. -/
namespace ScriptBuiltins.Text.Utf8

open String (utf8EncodeChar)

def Begins (run : List UInt8) : Prop := ∃ c, run <+: utf8EncodeChar c

inductive Reads : List UInt8 → List Char → Prop where
  | nil : Reads [] []
  | char (c : Char) {bytes : List UInt8} {text : List Char} :
      Reads bytes text → Reads (utf8EncodeChar c ++ bytes) (c :: text)
  /-- The run begins a character, is not all of it and does not go on with the next byte. -/
  | brokenOff {run bytes : List UInt8} {text : List Char} :
      run ≠ [] → Begins run → (∀ c, run ≠ utf8EncodeChar c) →
      (∀ byte ∈ bytes.head?, ¬ Begins (run ++ [byte])) →
      Reads bytes text → Reads (run ++ bytes) (replacement :: text)
  | stray {byte : UInt8} {bytes : List UInt8} {text : List Char} :
      ¬ Begins [byte] → Reads bytes text → Reads (byte :: bytes) (replacement :: text)

def continuation (n : Nat) : Nat → List UInt8
  | 0 => []
  | k + 1 => UInt8.ofNat (n / 64 ^ k % 64 + 0x80) :: continuation n k

/-- The character with number `n` begins with the byte, and `k` more follow. -/
def Leads (byte n k : Nat) : Prop :=
  (k = 0 ∧ byte = n ∧ n < 0x80) ∨
  (k = 1 ∧ byte = n / 64 + 0xC0 ∧ 0x80 ≤ n ∧ n < 0x800) ∨
  (k = 2 ∧ byte = n / 4096 + 0xE0 ∧ 0x800 ≤ n ∧ n < 0x10000 ∧ (n < 0xD800 ∨ 0xDFFF < n)) ∨
  (k = 3 ∧ byte = n / 262144 + 0xF0 ∧ 0x10000 ≤ n ∧ n < 0x110000)

theorem exists_leads (c : Char) :
    ∃ byte k, utf8EncodeChar c = byte :: continuation c.toNat k ∧ Leads byte.toNat c.toNat k := by
  have hvalid : c.toNat < 0xD800 ∨ 0xDFFF < c.toNat ∧ c.toNat < 0x110000 := c.valid
  have hnat : c.val.toNat = c.toNat := rfl
  simp only [utf8EncodeChar, hnat]
  split_ifs with hone htwo hthree
  · refine ⟨UInt8.ofNat c.toNat, 0, rfl, ?_⟩
    rw [Leads, UInt8.toNat_ofNat']
    omega
  · refine ⟨UInt8.ofNat (c.toNat / 64 % 32 + 0xC0), 1, by simp [continuation], ?_⟩
    rw [Leads, UInt8.toNat_ofNat']
    omega
  · refine ⟨UInt8.ofNat (c.toNat / 4096 % 16 + 0xE0), 2, by simp [continuation], ?_⟩
    rw [Leads, UInt8.toNat_ofNat']
    omega
  · refine ⟨UInt8.ofNat (c.toNat / 262144 % 8 + 0xF0), 3, by simp [continuation], ?_⟩
    rw [Leads, UInt8.toNat_ofNat']
    omega

theorem length_continuation (n k : Nat) : (continuation n k).length = k := by
  induction k with
  | zero => rfl
  | succ k ih => rw [continuation, List.length_cons, ih]

/-- A character that another one begins with has as many bytes. -/
theorem length_eq_of_begins {c d : Char} (h : utf8EncodeChar c <+: utf8EncodeChar d) :
    (utf8EncodeChar c).length = (utf8EncodeChar d).length := by
  obtain ⟨b, k, hbytes, hb⟩ := exists_leads c
  obtain ⟨b', k', hbytes', hb'⟩ := exists_leads d
  rw [hbytes, hbytes', List.cons_prefix_cons] at h
  rw [hbytes, hbytes', List.length_cons, List.length_cons, length_continuation,
    length_continuation]
  rw [h.1, Leads] at hb
  rw [Leads] at hb'
  omega

theorem ne_of_concat {init : List UInt8} {byte : UInt8} {c : Char}
    (h : init ++ [byte] <+: utf8EncodeChar c) (d : Char) : init ≠ utf8EncodeChar d := by
  rintro rfl
  have hlength := h.length_le
  rw [List.length_append, length_eq_of_begins ((List.prefix_append _ [byte]).trans h),
    List.length_singleton] at hlength
  omega

theorem toNat_of_singleton {c : Char} {byte : UInt8} (h : utf8EncodeChar c = [byte]) :
    c.toNat = byte.toNat := by
  obtain ⟨b, k, hbytes, hb⟩ := exists_leads c
  have hlength := congrArg List.length (hbytes.symm.trans h)
  rw [List.length_cons, length_continuation, List.length_singleton] at hlength
  rw [hbytes] at h
  rw [(List.cons.inj h).1, Leads] at hb
  omega

theorem exists_char {n : Nat} (h : n.isValidChar) : ∃ c : Char, c.toNat = n :=
  ⟨Char.ofNatAux n h, rfl⟩

/-- The character with number `n` is one that `p` may still become. -/
def Partial.Fits (p : Partial) (n : Nat) : Prop :=
  n / 64 ^ p.more / 64 = p.bits ∧
    p.low ≤ n / 64 ^ p.more % 64 + 0x80 ∧ n / 64 ^ p.more % 64 + 0x80 ≤ p.high

/-- The run is left open as `p`: the characters that begin with it are those that fit. -/
structure Partial.After (p : Partial) (run : List UInt8) : Prop where
  ne_nil : run ≠ []
  bounds : 0x80 ≤ p.low ∧ p.low ≤ p.high ∧ p.high ≤ 0xBF
  valid : ∀ n, p.Fits n → n.isValidChar
  bytes : ∀ c : Char, p.Fits c.toNat →
    utf8EncodeChar c = run ++ continuation c.toNat (p.more + 1)
  fits : ∀ c : Char, run <+: utf8EncodeChar c → p.Fits c.toNat

namespace Partial.After

variable {p : Partial} {run : List UInt8} {byte : UInt8}

theorem bytes_concat (h : p.After run) {c : Char} (hfits : p.Fits c.toNat)
    (hbyte : byte.toNat = c.toNat / 64 ^ p.more % 64 + 0x80) :
    utf8EncodeChar c = run ++ [byte] ++ continuation c.toNat p.more := by
  rw [h.bytes c hfits, continuation, ← hbyte, UInt8.ofNat_toNat, List.append_assoc]
  rfl

theorem next_eq (h : p.After run) {c : Char} (hc : run ++ [byte] <+: utf8EncodeChar c) :
    p.Fits c.toNat ∧ byte.toNat = c.toNat / 64 ^ p.more % 64 + 0x80 := by
  have hfits := h.fits c ((List.prefix_append run [byte]).trans hc)
  rw [h.bytes c hfits, List.prefix_append_right_inj, continuation, List.cons_prefix_cons] at hc
  refine ⟨hfits, ?_⟩
  rw [hc.1, UInt8.toNat_ofNat']
  omega

theorem exists_bytes (h : p.After run) (hlow : p.low ≤ byte.toNat) (hhigh : byte.toNat ≤ p.high) :
    ∃ c : Char, c.toNat = (p.bits * 64 + (byte.toNat - 0x80)) * 64 ^ p.more ∧
      utf8EncodeChar c = run ++ [byte] ++ continuation c.toNat p.more := by
  have hbounds := h.bounds
  have hdiv : (p.bits * 64 + (byte.toNat - 0x80)) * 64 ^ p.more / 64 ^ p.more =
      p.bits * 64 + (byte.toNat - 0x80) := Nat.mul_div_cancel _ (Nat.pow_pos (by decide))
  have hfits : p.Fits ((p.bits * 64 + (byte.toNat - 0x80)) * 64 ^ p.more) := by
    rw [Partial.Fits, hdiv]
    omega
  obtain ⟨c, hc⟩ := exists_char (h.valid _ hfits)
  refine ⟨c, hc, h.bytes_concat (hc ▸ hfits) ?_⟩
  rw [hc, hdiv]
  omega

theorem begins_concat_iff (h : p.After run) :
    Begins (run ++ [byte]) ↔ p.low ≤ byte.toNat ∧ byte.toNat ≤ p.high := by
  constructor
  · rintro ⟨c, hc⟩
    obtain ⟨hfits, hbyte⟩ := h.next_eq hc
    exact hbyte ▸ hfits.2
  · rintro ⟨hlow, hhigh⟩
    obtain ⟨c, _, hc⟩ := h.exists_bytes hlow hhigh
    exact ⟨c, _, hc.symm⟩

theorem begins (h : p.After run) : Begins run ∧ ∀ c, run ≠ utf8EncodeChar c := by
  have hbounds := h.bounds
  have hlow : (UInt8.ofNat p.low).toNat = p.low := by
    rw [UInt8.toNat_ofNat']
    omega
  have hbegins : Begins (run ++ [UInt8.ofNat p.low]) :=
    h.begins_concat_iff.mpr ⟨by omega, by omega⟩
  obtain ⟨c, hc⟩ := hbegins
  refine ⟨⟨c, (List.prefix_append run _).trans hc⟩, ?_⟩
  intro c hrun
  have hlength := congrArg List.length (h.bytes c (h.fits c (hrun ▸ List.prefix_rfl)))
  rw [← hrun, continuation, List.length_append, List.length_cons] at hlength
  omega

theorem close (h : p.After run) (hmore : p.more = 0) (hbyte : Begins (run ++ [byte])) :
    utf8EncodeChar (Char.ofNat (p.bits * 64 + (byte.toNat - 0x80))) = run ++ [byte] := by
  obtain ⟨hlow, hhigh⟩ := h.begins_concat_iff.mp hbyte
  obtain ⟨c, hc, hbytes⟩ := h.exists_bytes hlow hhigh
  rw [hmore, Nat.pow_zero, Nat.mul_one] at hc
  rw [hmore, continuation, List.append_nil] at hbytes
  rw [← hc, Char.ofNat_toNat, hbytes]

theorem step (h : p.After run) {more : Nat} (hmore : p.more = more + 1)
    (hbyte : Begins (run ++ [byte])) :
    Partial.After ⟨p.bits * 64 + (byte.toNat - 0x80), 0x80, 0xBF, more⟩ (run ++ [byte]) := by
  obtain ⟨hlow, hhigh⟩ := h.begins_concat_iff.mp hbyte
  have hbounds := h.bounds
  have hdiv : ∀ n, n / 64 ^ p.more = n / 64 ^ more / 64 := by
    intro n
    rw [hmore, Nat.pow_succ, Nat.div_div_eq_div_mul]
  have hfits : ∀ n, Partial.Fits ⟨p.bits * 64 + (byte.toNat - 0x80), 0x80, 0xBF, more⟩ n →
      p.Fits n ∧ byte.toNat = n / 64 ^ p.more % 64 + 0x80 := by
    intro n hn
    simp only [Partial.Fits] at hn ⊢
    rw [hdiv]
    omega
  refine ⟨by simp, by simp, fun n hn => h.valid n (hfits n hn).1, ?_, ?_⟩
  · intro c hc
    obtain ⟨hp, hnext⟩ := hfits _ hc
    rw [h.bytes_concat hp hnext, hmore]
  · intro c hc
    obtain ⟨hp, hnext⟩ := h.next_eq hc
    simp only [Partial.Fits] at hp ⊢
    rw [hdiv] at hp hnext
    omega

end Partial.After

theorem after_singleton {byte : UInt8} {p : Partial}
    (hbounds : 0x80 ≤ p.low ∧ p.low ≤ p.high ∧ p.high ≤ 0xBF)
    (hvalid : ∀ n, p.Fits n → n.isValidChar)
    (hleads : ∀ b n k, Leads b n k → (b = byte.toNat ↔ p.Fits n) ∧ (p.Fits n → k = p.more + 1)) :
    p.After [byte] := by
  refine ⟨by simp, hbounds, hvalid, ?_, ?_⟩
  · intro c hc
    obtain ⟨b, k, hbytes, hb⟩ := exists_leads c
    obtain ⟨hfits, hk⟩ := hleads _ _ _ hb
    rw [hbytes, hk hc, UInt8.toNat_inj.mp (hfits.mpr hc)]
    rfl
  · intro c hc
    obtain ⟨b, k, hbytes, hb⟩ := exists_leads c
    rw [hbytes, List.cons_prefix_cons] at hc
    exact (hleads _ _ _ hb).1.mp (congrArg _ hc.1.symm)

theorem not_begins_singleton {byte : UInt8}
    (h : 0x80 ≤ byte.toNat ∧ byte.toNat < 0xC2 ∨ 0xF4 < byte.toNat) : ¬ Begins [byte] := by
  rintro ⟨c, hc⟩
  obtain ⟨b, k, hbytes, hb⟩ := exists_leads c
  rw [hbytes, List.cons_prefix_cons] at hc
  rw [← hc.1, Leads] at hb
  omega

inductive Says (byte : UInt8) : List Char × Option Partial → Prop where
  | char (c : Char) : utf8EncodeChar c = [byte] → Says byte ([c], none)
  | stray : ¬ Begins [byte] → Says byte ([replacement], none)
  | opens (p : Partial) : p.After [byte] → Says byte ([], some p)

theorem says_first (byte : UInt8) : Says byte (first byte) := by
  rw [first]
  split_ifs with hascii hstray
  case neg => exact .stray (not_begins_singleton (by omega))
  · have hvalid : byte.toNat.isValidChar := .inl (by omega)
    obtain ⟨c, hc⟩ := exists_char hvalid
    obtain ⟨b, k, hbytes, hb⟩ := exists_leads c
    rw [Leads] at hb
    obtain ⟨rfl, hnat⟩ : k = 0 ∧ b.toNat = byte.toNat := by omega
    rw [← hc, Char.ofNat_toNat]
    refine .char c ?_
    rw [hbytes, UInt8.toNat_inj.mp hnat, continuation]
  · exact .stray (not_begins_singleton (by omega))
  -- What is left are the bytes that more have to follow.
  all_goals
    refine .opens _ (after_singleton (by simp) ?_ ?_)
    · simp only [Partial.Fits, Nat.isValidChar]
      omega
    · simp only [Leads, Partial.Fits]
      omega

section

variable {p : Partial} {byte : UInt8} (bytes : List UInt8)

theorem readFrom_close (h : p.low ≤ byte.toNat ∧ byte.toNat ≤ p.high) (hmore : p.more = 0) :
    readFrom (some p) (byte :: bytes) =
      Char.ofNat (p.bits * 64 + (byte.toNat - 0x80)) :: readFrom none bytes := by
  simp only [readFrom, next, if_pos h, hmore]
  rfl

theorem readFrom_step {more : Nat} (h : p.low ≤ byte.toNat ∧ byte.toNat ≤ p.high)
    (hmore : p.more = more + 1) :
    readFrom (some p) (byte :: bytes) =
      readFrom (some ⟨p.bits * 64 + (byte.toNat - 0x80), 0x80, 0xBF, more⟩) bytes := by
  simp only [readFrom, next, if_pos h, hmore]
  rfl

theorem readFrom_broken (h : ¬ (p.low ≤ byte.toNat ∧ byte.toNat ≤ p.high)) :
    readFrom (some p) (byte :: bytes) = replacement :: readFrom none (byte :: bytes) := by
  simp only [readFrom, next, if_neg h]
  rfl

end

theorem readFrom_none_cons (byte : UInt8) (bytes : List UInt8) :
    readFrom none (byte :: bytes) = (first byte).1 ++ readFrom (first byte).2 bytes := rfl

theorem reads_readFrom (bytes : List UInt8) :
    Reads bytes (readFrom none bytes) ∧
      ∀ (p : Partial) run, p.After run → Reads (run ++ bytes) (readFrom (some p) bytes) := by
  induction bytes with
  | nil =>
    refine ⟨.nil, fun p run h => ?_⟩
    exact .brokenOff h.ne_nil h.begins.1 h.begins.2 (by simp) .nil
  | cons byte bytes ih =>
    have hnone : Reads (byte :: bytes) (readFrom none (byte :: bytes)) := by
      have hsays := says_first byte
      rw [readFrom_none_cons]
      generalize first byte = said at hsays
      cases hsays with
      | char c hc =>
        have hchar := Reads.char c ih.1
        rwa [hc] at hchar
      | stray hbyte => exact .stray hbyte ih.1
      | opens p hp => exact ih.2 p [byte] hp
    refine ⟨hnone, fun p run h => ?_⟩
    by_cases hbyte : p.low ≤ byte.toNat ∧ byte.toNat ≤ p.high
    · have hbegins := h.begins_concat_iff.mpr hbyte
      rw [List.append_cons]
      cases hmore : p.more with
      | zero =>
        rw [readFrom_close bytes hbyte hmore, ← h.close hmore hbegins]
        exact .char _ ih.1
      | succ more =>
        rw [readFrom_step bytes hbyte hmore]
        exact ih.2 _ _ (h.step hmore hbegins)
    · rw [readFrom_broken bytes hbyte]
      refine .brokenOff h.ne_nil h.begins.1 h.begins.2 ?_ hnone
      rintro next ⟨⟩
      rwa [h.begins_concat_iff]

theorem exists_after {run : List UInt8} (hne : run ≠ []) (hbegins : Begins run)
    (hopen : ∀ c, run ≠ utf8EncodeChar c) :
    ∃ p : Partial, p.After run ∧
      ∀ bytes, readFrom none (run ++ bytes) = readFrom (some p) bytes := by
  induction run using List.reverseRecOn with
  | nil => exact absurd rfl hne
  | append_singleton init byte ih =>
    obtain ⟨c, hc⟩ := hbegins
    by_cases hinit : init = []
    · subst hinit
      have hread := readFrom_none_cons byte
      have hsays := says_first byte
      generalize first byte = said at hread hsays
      cases hsays with
      | char d hd => exact absurd hd.symm (hopen d)
      | stray hbyte => exact absurd ⟨c, hc⟩ hbyte
      | opens p hp => exact ⟨p, hp, hread⟩
    · have hprefix := (List.prefix_append init [byte]).trans hc
      obtain ⟨p, hp, hread⟩ := ih hinit ⟨c, hprefix⟩ (ne_of_concat hc)
      have hbyte := hp.begins_concat_iff.mp ⟨c, hc⟩
      cases hmore : p.more with
      | zero => exact absurd (hp.close hmore ⟨c, hc⟩).symm (hopen _)
      | succ more =>
        refine ⟨_, hp.step hmore ⟨c, hc⟩, fun bytes => ?_⟩
        rw [List.append_assoc, hread]
        exact readFrom_step bytes hbyte hmore

theorem readFrom_singleton {c : Char} {byte : UInt8} (h : utf8EncodeChar c = [byte])
    (bytes : List UInt8) : readFrom none (byte :: bytes) = c :: readFrom none bytes := by
  have hbegins : [byte] <+: utf8EncodeChar c := h ▸ List.prefix_rfl
  have hsays := says_first byte
  rw [readFrom_none_cons]
  generalize first byte = said at hsays
  cases hsays with
  | char d hd =>
    have hnat := (toNat_of_singleton h).trans (toNat_of_singleton hd).symm
    rw [Char.toNat_inj.mp hnat]
    rfl
  | stray hbyte => exact absurd ⟨c, hbegins⟩ hbyte
  | opens p hp => exact absurd h.symm (hp.begins.2 c)

theorem readFrom_char (c : Char) (bytes : List UInt8) :
    readFrom none (utf8EncodeChar c ++ bytes) = c :: readFrom none bytes := by
  rcases List.eq_nil_or_concat' (utf8EncodeChar c) with hnil | ⟨init, byte, hc⟩
  · exact absurd hnil String.utf8EncodeChar_ne_nil
  have hbegins : init ++ [byte] <+: utf8EncodeChar c := hc ▸ List.prefix_rfl
  by_cases hinit : init = []
  · subst hinit
    rw [hc]
    exact readFrom_singleton hc bytes
  · -- The last byte settles what the bytes before it have left open.
    obtain ⟨p, hp, hread⟩ := exists_after hinit ⟨c, [byte], hc.symm⟩ (ne_of_concat hbegins)
    obtain ⟨hfits, hbyte⟩ := hp.next_eq hbegins
    have hmore : p.more = 0 := by
      have hlength := congrArg List.length (hp.bytes c hfits)
      rw [hc, List.length_append, List.length_append, length_continuation,
        List.length_singleton] at hlength
      omega
    have hnumber : p.bits * 64 + (byte.toNat - 0x80) = c.toNat := by
      rw [hmore, Nat.pow_zero, Nat.div_one] at hbyte
      rw [Partial.Fits, hmore, Nat.pow_zero, Nat.div_one] at hfits
      omega
    have hbounds := hp.begins_concat_iff.mp ⟨c, hbegins⟩
    rw [hc, List.append_assoc, hread, List.singleton_append, readFrom_close bytes hbounds hmore,
      hnumber, Char.ofNat_toNat]

theorem reads_iff (bytes : List UInt8) (text : List Char) :
    Reads bytes text ↔ text = read bytes := by
  constructor
  · intro h
    rw [read]
    induction h with
    | nil => rfl
    | char c _ ih => rw [ih, readFrom_char]
    | @brokenOff run bytes text hne hbegins hopen hnext _ ih =>
      obtain ⟨p, hp, hread⟩ := exists_after hne hbegins hopen
      rw [ih, hread]
      cases bytes with
      | nil => rfl
      | cons byte bytes =>
        have hbyte := mt hp.begins_concat_iff.mpr (hnext byte rfl)
        exact (readFrom_broken bytes hbyte).symm
    | @stray byte bytes text hbyte _ ih =>
      have hsays := says_first byte
      rw [ih, readFrom_none_cons]
      generalize first byte = said at hsays
      cases hsays with
      | char c hc => exact absurd ⟨c, hc ▸ List.prefix_rfl⟩ hbyte
      | stray => rfl
      | opens p hp => exact absurd hp.begins.1 hbyte
  · rintro rfl
    exact (reads_readFrom bytes).1

theorem read_flatMap_encode (text : List Char) : read (text.flatMap utf8EncodeChar) = text := by
  induction text with
  | nil => rfl
  | cons c text ih => rw [List.flatMap_cons, read, readFrom_char, ← read, ih]

end ScriptBuiltins.Text.Utf8
