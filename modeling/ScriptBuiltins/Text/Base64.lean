import ScriptBuiltins.Text.Blank
import ScriptBuiltins.Text.Utf8

set_option autoImplicit false

/-! Reading is strict: the padding has to be complete and the bits that the last symbol has to spare
have to be zero, so bytes have one written form. A text that is no such form is refused with the
reason that comes first in this order: its length, the blocks of eight bytes before the last one,
the last block from left to right, the padding, the spare bits. -/
namespace ScriptBuiltins.Text.Base64

/-- Offsets count the bytes before the one that is meant. -/
inductive DecodeError where
  | invalidByte (offset : Nat) (byte : UInt8)
  | invalidLength
  | invalidLastSymbol (offset : Nat) (byte : UInt8)
  | invalidPadding
deriving DecidableEq, Repr

def DecodeError.message : DecodeError → String
  | .invalidByte offset byte =>
    "Invalid byte " ++ toString byte.toNat ++ ", offset " ++ toString offset ++ "."
  | .invalidLength => "Encoded text cannot have a 6-bit remainder."
  | .invalidLastSymbol offset byte =>
    "Invalid last symbol " ++ toString byte.toNat ++ ", offset " ++ toString offset ++ "."
  | .invalidPadding => "Invalid padding"

def symbol (n : Nat) : Char :=
  if n < 26 then Char.ofNat (0x41 + n)
  else if n < 52 then Char.ofNat (0x61 + (n - 26))
  else if n < 62 then Char.ofNat (0x30 + (n - 52))
  else if n = 62 then '+'
  else '/'

def encode : List UInt8 → List Char
  | a :: b :: c :: rest =>
    symbol (a.toNat / 4) :: symbol (a.toNat % 4 * 16 + b.toNat / 16) ::
      symbol (b.toNat % 16 * 4 + c.toNat / 64) :: symbol (c.toNat % 64) :: encode rest
  | [a, b] =>
    [symbol (a.toNat / 4), symbol (a.toNat % 4 * 16 + b.toNat / 16), symbol (b.toNat % 16 * 4), '=']
  | [a] => [symbol (a.toNat / 4), symbol (a.toNat % 4 * 16), '=', '=']
  | [] => []

def value? (byte : UInt8) : Option Nat :=
  let b := byte.toNat
  if 0x41 ≤ b ∧ b ≤ 0x5A then some (b - 0x41)
  else if 0x61 ≤ b ∧ b ≤ 0x7A then some (b - 0x61 + 26)
  else if 0x30 ≤ b ∧ b ≤ 0x39 then some (b - 0x30 + 52)
  else if b = 0x2B then some 62
  else if b = 0x2F then some 63
  else none

def pad : UInt8 := 0x3D

/-- A length of one more than whole groups of four leaves six bits over, which are no byte. A last
byte that is neither a symbol nor padding is the better reason. -/
def checkLength (bytes : List UInt8) : Except DecodeError Unit :=
  if bytes.length % 4 = 1 then
    match bytes.getLast? with
    | some last =>
      if last = pad ∨ (value? last).isSome then .error .invalidLength
      else .error (.invalidByte (bytes.length - 1) last)
    | none => .error .invalidLength
  else .ok ()

def values (offset : Nat) : List UInt8 → Except DecodeError (List Nat)
  | [] => .ok []
  | byte :: bytes =>
    match value? byte with
    | none => .error (.invalidByte offset byte)
    | some n => do return n :: (← values (offset + 1) bytes)

/-- Padding may begin at the third place of a group of four, and nothing else may follow it; `padAt`
is where it began. -/
def lastValues (start : Nat) : Nat → Option Nat → List UInt8 → Except DecodeError (List Nat)
  | _, _, [] => .ok []
  | place, padAt, byte :: bytes =>
    let offset := start + place
    if byte = pad then
      if place % 4 < 2 then .error (.invalidByte (padAt.getD offset) pad)
      else lastValues start (place + 1) (some (padAt.getD offset)) bytes
    else
      match padAt, value? byte with
      | some first, _ => .error (.invalidByte first pad)
      | none, none => .error (.invalidByte offset byte)
      | none, some n => do return n :: (← lastValues start (place + 1) none bytes)

/-- Of two or three numbers at the end the bits that fill no byte are left out. -/
def join : List Nat → List UInt8
  | a :: b :: c :: d :: rest =>
    UInt8.ofNat (a * 4 + b / 16) :: UInt8.ofNat (b % 16 * 16 + c / 4) ::
      UInt8.ofNat (c % 4 * 64 + d) :: join rest
  | [a, b, c] => [UInt8.ofNat (a * 4 + b / 16), UInt8.ofNat (b % 16 * 16 + c / 4)]
  | [a, b] => [UInt8.ofNat (a * 4 + b / 16)]
  | _ => []

/-- What the last of `count` numbers has to spare: four bits of the second of a group, two of the
third. -/
def spareBits (count last : Nat) : Nat :=
  match count % 4 with
  | 2 => last % 16
  | 3 => last % 4
  | _ => 0

def checkSpareBits (ahead : Nat) (block : List UInt8) (numbers : List Nat) :
    Except DecodeError Unit :=
  match numbers.getLast?, block[numbers.length - 1]? with
  | some last, some byte =>
    if spareBits numbers.length last = 0 then .ok ()
    else .error (.invalidLastSymbol (ahead + (numbers.length - 1)) byte)
  | _, _ => .ok ()

def decodeBytes (bytes : List UInt8) : Except DecodeError (List UInt8) := do
  checkLength bytes
  let ahead := (bytes.length - 1) / 8 * 8
  let whole ← values 0 (bytes.take ahead)
  let block := bytes.drop ahead
  let rest ← lastValues ahead 0 none block
  if block.length % 4 ≠ 0 then throw .invalidPadding
  checkSpareBits ahead block rest
  return join (whole ++ rest)

def decode (s : String) : Except DecodeError (List UInt8) :=
  decodeBytes (Utf8.encode (String.ofList (trim s.toList)))

def ofText (s : String) : String :=
  String.ofList (encode (Utf8.encode s))

def toText (s : String) : Except DecodeError String := do
  return String.ofList (Utf8.read (← decode s))

end ScriptBuiltins.Text.Base64
