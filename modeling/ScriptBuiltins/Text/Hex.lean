import ScriptBuiltins.Text.Utf8

set_option autoImplicit false

namespace ScriptBuiltins.Text.Hex

def digit (n : Nat) : Char :=
  Char.ofNat (if n < 10 then 0x30 + n else 0x57 + n)

def ofByte (byte : UInt8) : List Char :=
  [digit (byte.toNat / 16), digit (byte.toNat % 16)]

def encode (s : String) : String :=
  String.ofList ((Utf8.encode s).flatMap ofByte)

end ScriptBuiltins.Text.Hex
