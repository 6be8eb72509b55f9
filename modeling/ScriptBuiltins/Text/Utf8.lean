set_option autoImplicit false

/-! `read` never fails: where the bytes stop being UTF-8 it puts one replacement character for the
longest run of them that could still have begun a character, and goes on with the next byte. -/
namespace ScriptBuiltins.Text.Utf8

def encode (s : String) : List UInt8 :=
  s.toList.flatMap String.utf8EncodeChar

def replacement : Char := Char.ofNat 0xFFFD

structure Partial where
  bits : Nat
  /-- The next byte is one of `low` to `high`. -/
  low : Nat
  high : Nat
  /-- Bytes after the next one. -/
  more : Nat

/-- The bounds on the second byte leave out the surrogates, what is above U+10FFFF and longer forms
of a character that has a shorter one. -/
def first (byte : UInt8) : List Char × Option Partial :=
  let b := byte.toNat
  if b < 0x80 then ([Char.ofNat b], none)
  else if b < 0xC2 then ([replacement], none)
  else if b < 0xE0 then ([], some ⟨b - 0xC0, 0x80, 0xBF, 0⟩)
  else if b = 0xE0 then ([], some ⟨0, 0xA0, 0xBF, 1⟩)
  else if b = 0xED then ([], some ⟨0xD, 0x80, 0x9F, 1⟩)
  else if b < 0xF0 then ([], some ⟨b - 0xE0, 0x80, 0xBF, 1⟩)
  else if b = 0xF0 then ([], some ⟨0, 0x90, 0xBF, 2⟩)
  else if b < 0xF4 then ([], some ⟨b - 0xF0, 0x80, 0xBF, 2⟩)
  else if b = 0xF4 then ([], some ⟨4, 0x80, 0x8F, 2⟩)
  else ([replacement], none)

def next (byte : UInt8) : Option Partial → List Char × Option Partial
  | none => first byte
  | some p =>
    let b := byte.toNat
    if p.low ≤ b ∧ b ≤ p.high then
      let bits := p.bits * 64 + (b - 0x80)
      match p.more with
      | 0 => ([Char.ofNat bits], none)
      | more + 1 => ([], some ⟨bits, 0x80, 0xBF, more⟩)
    else
      let (chars, rest) := first byte
      (replacement :: chars, rest)

def readFrom : Option Partial → List UInt8 → List Char
  | none, [] => []
  | some _, [] => [replacement]
  | p, byte :: bytes =>
    let (chars, rest) := next byte p
    chars ++ readFrom rest bytes

def read (bytes : List UInt8) : List Char :=
  readFrom none bytes

end ScriptBuiltins.Text.Utf8
