import ScriptBuiltins.Json.Number
import ScriptBuiltins.Json.Quoted

set_option autoImplicit false

namespace ScriptBuiltins.Json.Reader

/-- The last of the earlier items or members stands in front. -/
inductive Frame where
  | array (items : List Json)
  | object (members : List (String × Json)) (key : String)

/-- As a value, or as the next key of an object with these members. -/
inductive Purpose where
  | value
  | key (members : List (String × Json))

inductive Mode where
  /-- A value, or else the end of an array without items. -/
  | value (closable : Bool)
  /-- A key, or else the end of an object without members. -/
  | key (members : List (String × Json)) (closable : Bool)
  | colon (members : List (String × Json)) (key : String)
  /-- A comma, or the end of what the value stands in. -/
  | complete (v : Json)
  | string (purpose : Purpose) (scan : Quoted.Scan)
  | number (seen : List Char)
  | word (rest : List Char) (v : Json)

structure State where
  stack : List Frame
  mode : Mode

def start : State := ⟨[], .value false⟩

def isSpace (c : Char) : Bool := c == ' ' || c == '\n' || c == '\r' || c == '\t'

def isNumberChar (c : Char) : Bool :=
  c.isDigit || c == '-' || c == '+' || c == '.' || c == 'e' || c == 'E'

def afterValue (stack : List Frame) (v : Json) (c : Char) : Option State :=
  if isSpace c then some ⟨stack, .complete v⟩
  else
    match stack, c with
    | .array items :: stack, ',' => some ⟨.array (v :: items) :: stack, .value false⟩
    | .array items :: stack, ']' => some ⟨stack, .complete (.array (v :: items).reverse)⟩
    | .object members key :: stack, ',' => some ⟨stack, .key ((key, v) :: members) false⟩
    | .object members key :: stack, '\x7d' =>
      some ⟨stack, .complete (.object ((key, v) :: members).reverse)⟩
    | _, _ => none

def beginValue (limit : Nat) (stack : List Frame) (closable : Bool) (c : Char) : Option State :=
  if isSpace c then some ⟨stack, .value closable⟩
  else if c = '-' ∨ c.isDigit then some ⟨stack, .number [c]⟩
  else
    match c with
    | '"' => some ⟨stack, .string .value Quoted.start⟩
    | '[' => if stack.length < limit then some ⟨.array [] :: stack, .value true⟩ else none
    | '\x7b' => if stack.length < limit then some ⟨stack, .key [] true⟩ else none
    | ']' =>
      match closable, stack with
      | true, .array items :: stack => some ⟨stack, .complete (.array items.reverse)⟩
      | _, _ => none
    | 't' => some ⟨stack, .word ['r', 'u', 'e'] (.bool true)⟩
    | 'f' => some ⟨stack, .word ['a', 'l', 's', 'e'] (.bool false)⟩
    | 'n' => some ⟨stack, .word ['u', 'l', 'l'] .null⟩
    | _ => none

def endString (stack : List Frame) (s : String) : Purpose → State
  | .value => ⟨stack, .complete (.string s)⟩
  | .key members => ⟨stack, .colon members s⟩

/-- One character further; `limit` is the depth to which arrays and objects may be nested. -/
def step (limit : Nat) (state : State) (c : Char) : Option State :=
  let stack := state.stack
  match state.mode with
  | .value closable => beginValue limit stack closable c
  | .key members closable =>
    if isSpace c then some ⟨stack, .key members closable⟩
    else if c = '"' then some ⟨stack, .string (.key members) Quoted.start⟩
    else if c = '\x7d' ∧ closable then some ⟨stack, .complete (.object members.reverse)⟩
    else none
  | .colon members key =>
    if isSpace c then some ⟨stack, .colon members key⟩
    else if c = ':' then some ⟨.object members key :: stack, .value false⟩
    else none
  | .complete v => afterValue stack v c
  | .string purpose scan =>
    match scan.step c with
    | .more scan => some ⟨stack, .string purpose scan⟩
    | .closed s => some (endString stack s purpose)
    | .refused => none
  | .number seen =>
    if isNumberChar c then some ⟨stack, .number (c :: seen)⟩
    else do
      let n ← Number.ofChars? seen.reverse
      afterValue stack (.number n) c
  | .word rest v =>
    match rest with
    | [] => none
    | [r] => if c = r then some ⟨stack, .complete v⟩ else none
    | r :: rest => if c = r then some ⟨stack, .word rest v⟩ else none

def finish (state : State) : Option Json :=
  match state.stack, state.mode with
  | [], .complete v => some v
  | [], .number seen => (Number.ofChars? seen.reverse).map .number
  | _, _ => none

def readChars (limit : Nat) (cs : List Char) : Option Json := do
  finish (← cs.foldlM (step limit) start)

end ScriptBuiltins.Json.Reader

namespace ScriptBuiltins.Json

def depthLimit : Nat := 127

def read (s : String) : Option Json := Reader.readChars depthLimit s.toList

end ScriptBuiltins.Json
