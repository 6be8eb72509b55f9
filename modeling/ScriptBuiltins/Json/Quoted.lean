import ScriptBuiltins.Text.Hex

set_option autoImplicit false

namespace ScriptBuiltins.Json.Quoted

def escapeChar (c : Char) : List Char :=
  match c with
  | '"' => ['\\', '"']
  | '\\' => ['\\', '\\']
  | '\x08' => ['\\', 'b']
  | '\x0c' => ['\\', 'f']
  | '\n' => ['\\', 'n']
  | '\r' => ['\\', 'r']
  | '\t' => ['\\', 't']
  | c =>
    if c.toNat < 0x20 then
      ['\\', 'u', '0', '0', Text.Hex.digit (c.toNat / 16), Text.Hex.digit (c.toNat % 16)]
    else [c]

def chars (s : String) : List Char :=
  '"' :: s.toList.flatMap escapeChar ++ ['"']

inductive Part where
  | plain
  | backslash
  /-- `left` digits are to come, and `value` is that of the digits before. A first half of a
  surrogate pair may have gone before. -/
  | code (half : Option Nat) (left value : Nat)
  | half (first : Nat)
  | halfEscape (first : Nat)
deriving DecidableEq, Repr

/-- The last character read stands in front. -/
structure Scan where
  seen : List Char
  part : Part
deriving DecidableEq, Repr

inductive Step where
  | more (scan : Scan)
  | closed (s : String)
  | refused

def start : Scan := ⟨[], .plain⟩

def escaped? : Char → Option Char
  | '"' => some '"'
  | '\\' => some '\\'
  | '/' => some '/'
  | 'b' => some '\x08'
  | 'f' => some '\x0c'
  | 'n' => some '\n'
  | 'r' => some '\r'
  | 't' => some '\t'
  | _ => none

def hexValue? (c : Char) : Option Nat :=
  if c.isDigit then some (c.toNat - '0'.toNat)
  else if 'a' ≤ c ∧ c ≤ 'f' then some (c.toNat - 'a'.toNat + 10)
  else if 'A' ≤ c ∧ c ≤ 'F' then some (c.toNat - 'A'.toNat + 10)
  else none

/-- A first half waits for its second half, which is refused anywhere else. -/
def endCode (seen : List Char) (first : Option Nat) (code : Nat) : Step :=
  match first with
  | none =>
    if 0xD800 ≤ code ∧ code < 0xDC00 then .more ⟨seen, .half code⟩
    else if 0xDC00 ≤ code ∧ code < 0xE000 then .refused
    else .more ⟨Char.ofNat code :: seen, .plain⟩
  | some first =>
    if 0xDC00 ≤ code ∧ code < 0xE000 then
      let c := Char.ofNat (0x10000 + (first - 0xD800) * 0x400 + (code - 0xDC00))
      .more ⟨c :: seen, .plain⟩
    else .refused

def Scan.step (scan : Scan) (c : Char) : Step :=
  let seen := scan.seen
  match scan.part with
  | .plain =>
    if c = '"' then .closed (String.ofList seen.reverse)
    else if c = '\\' then .more ⟨seen, .backslash⟩
    else if c.toNat < 0x20 then .refused
    else .more ⟨c :: seen, .plain⟩
  | .backslash =>
    if c = 'u' then .more ⟨seen, .code none 4 0⟩
    else
      match escaped? c with
      | some e => .more ⟨e :: seen, .plain⟩
      | none => .refused
  | .code first left value =>
    match hexValue? c with
    | none => .refused
    | some d =>
      if left ≤ 1 then endCode seen first (value * 16 + d)
      else .more ⟨seen, .code first (left - 1) (value * 16 + d)⟩
  | .half first => if c = '\\' then .more ⟨seen, .halfEscape first⟩ else .refused
  | .halfEscape first => if c = 'u' then .more ⟨seen, .code (some first) 4 0⟩ else .refused

end ScriptBuiltins.Json.Quoted
