import Mathlib.Data.List.Basic
import ScriptBuiltins.Proofs.Json.Quoted

set_option autoImplicit false

namespace ScriptBuiltins.Text.Hex

open Json.Quoted (hexValue? hexValue?_digit)

def digits : String := "0123456789abcdef"

/-- The bytes that pairs of digits in either case stand for, the high half of a byte first. -/
def readPairs? : List Char → Option (List UInt8)
  | [] => some []
  | [_] => none
  | high :: low :: rest => do
    let h ← hexValue? high
    let l ← hexValue? low
    let bytes ← readPairs? rest
    return UInt8.ofNat (16 * h + l) :: bytes

theorem digits_getElem? : ∀ n < 16, digits.toList[n]? = some (digit n) := by decide

theorem length_flatMap_ofByte (bytes : List UInt8) :
    (bytes.flatMap ofByte).length = 2 * bytes.length := by
  have hbyte : ∀ byte, (ofByte byte).length = 2 := fun _ => rfl
  simp only [List.length_flatMap, hbyte, List.map_const', List.sum_replicate_nat, Nat.mul_comm]

theorem getElem?_flatMap_ofByte {bytes : List UInt8} {i : Nat} {byte : UInt8}
    (h : bytes[i]? = some byte) :
    (bytes.flatMap ofByte)[2 * i]? = some (digit (byte.toNat / 16)) ∧
      (bytes.flatMap ofByte)[2 * i + 1]? = some (digit (byte.toNat % 16)) := by
  induction bytes generalizing i with
  | nil => cases h
  | cons first bytes ih =>
    cases i with
    | zero =>
      cases h
      exact ⟨rfl, rfl⟩
    | succ i => exact ih h

theorem readPairs?_flatMap_ofByte (bytes : List UInt8) :
    readPairs? (bytes.flatMap ofByte) = some bytes := by
  induction bytes with
  | nil => rfl
  | cons byte bytes ih =>
    have hbyte := byte.toNat_lt
    have hhigh := hexValue?_digit (byte.toNat / 16) (by omega)
    have hlow := hexValue?_digit (byte.toNat % 16) (by omega)
    have hvalue : 16 * (byte.toNat / 16) + byte.toNat % 16 = byte.toNat := Nat.div_add_mod _ 16
    rw [List.flatMap_cons, ofByte, List.cons_append, List.cons_append, List.nil_append, readPairs?,
      hhigh, hlow, ih]
    simp only [Option.bind_eq_bind, Option.bind_some, hvalue, UInt8.ofNat_toNat]
    rfl

theorem toList_encode (s : String) : (encode s).toList = (Utf8.encode s).flatMap ofByte :=
  String.toList_ofList

theorem readPairs?_encode (s : String) : readPairs? (encode s).toList = some (Utf8.encode s) := by
  rw [toList_encode, readPairs?_flatMap_ofByte]

theorem encode_append (s t : String) : encode (s ++ t) = encode s ++ encode t := by
  rw [encode, Utf8.encode, String.toList_append, List.flatMap_append, List.flatMap_append,
    String.ofList_append]
  rfl

theorem toByteArray_utf8Encode (s : String) : (Utf8.encode s).toByteArray = s.toUTF8 :=
  String.utf8Encode_toList

theorem encode_injective : Function.Injective encode := by
  intro s t h
  have hbytes : some (Utf8.encode s) = some (Utf8.encode t) := by
    rw [← readPairs?_encode, ← readPairs?_encode, h]
  have hutf8 := congrArg List.toByteArray (Option.some.inj hbytes)
  rwa [toByteArray_utf8Encode, toByteArray_utf8Encode, String.toUTF8, String.toUTF8,
    String.toByteArray_inj] at hutf8

/-- Two lowercase digits are written for each byte that a text has in UTF-8, the high half first;
from these the bytes, and so the text, are told. -/
theorem encode_lossless :
    (∀ s, ∃ bytes : List UInt8, bytes.toByteArray = s.toUTF8 ∧
      (encode s).length = 2 * bytes.length ∧
      (∀ i byte, bytes[i]? = some byte →
        (encode s).toList[2 * i]? = digits.toList[byte.toNat / 16]? ∧
        (encode s).toList[2 * i + 1]? = digits.toList[byte.toNat % 16]?) ∧
      readPairs? (encode s).toList = some bytes) ∧
    Function.Injective encode ∧
    ∀ s t, encode (s ++ t) = encode s ++ encode t := by
  refine ⟨fun s => ⟨Utf8.encode s, toByteArray_utf8Encode s, ?_, ?_, readPairs?_encode s⟩,
    encode_injective, encode_append⟩
  · rw [← String.length_toList, toList_encode, length_flatMap_ofByte]
  · intro i byte h
    have hbyte := byte.toNat_lt
    rw [toList_encode, digits_getElem? _ (by omega), digits_getElem? _ (by omega)]
    exact getElem?_flatMap_ofByte h

example : encode "é" = "c3a9" ∧ readPairs? "C3A9".toList = some [0xC3, 0xA9] := by decide

end ScriptBuiltins.Text.Hex
