import ScriptBuiltins.Fixture
import ScriptBuiltins.Integer
import ScriptBuiltins.Json.Reader

set_option autoImplicit false

/-! A record is an object with the names of its fields, none of them twice, or an array of its
fields in their order; fields that have a default may be left out, in an array those at the end. -/
namespace ScriptBuiltins.Fixture

def record? (names : List String) : Json → Option (String → Option Json)
  | .object members =>
    let keys := members.map (·.1)
    if keys.all (names.contains ·) && decide keys.Nodup then some (members.lookup ·) else none
  | .array items =>
    if items.length ≤ names.length then some ((names.zip items).lookup ·) else none
  | _ => none

def required {α : Type} (read : Json → Option α) (field : Option Json) : Option α :=
  field.bind read

def optional {α : Type} (read : Json → Option α) (default : α) : Option Json → Option α
  | none => some default
  | some v => read v

def nullable {α : Type} (read : Json → Option α) : Json → Option (Option α)
  | .null => some none
  | v => (read v).map some

def integer? (least greatest : Int) : Json → Option Int
  | .number (.integer n) => if least ≤ n ∧ n ≤ greatest then some n else none
  | _ => none

def natural? (v : Json) : Option Nat := (integer? 0 (UInt64.size - 1) v).map Int.toNat

def id? (v : Json) : Option UInt64 := (natural? v).map UInt64.ofNat

def text? : Json → Option String
  | .string s => some s
  | _ => none

def bool? : Json → Option Bool
  | .bool b => some b
  | _ => none

def list? {α : Type} (read : Json → Option α) : Json → Option (List α)
  | .array items => items.mapM read
  | _ => none

def kind? : Json → Option WindowKind
  | .string name => WindowKind.ofName? name
  | .object [(name, .null)] => WindowKind.ofName? name
  | _ => none

def window? (v : Json) : Option Window := do
  let field ← record? ["id", "kind", "context"] v
  return {
    id := ← required id? (field "id")
    kind := ← optional kind? .other (field "kind")
    context := ← optional (nullable id?) none (field "context") }

def channel? (v : Json) : Option (String × WindowId) := do
  let field ← record? ["name", "window"] v
  return (← required text? (field "name"), ← required id? (field "window"))

def connection? (v : Json) : Option Connection := do
  let field ← record?
    ["window", "context", "server", "nick", "active_window", "connected", "away", "channels"] v
  return {
    console := {
      window := ← required id? (field "window")
      context := ← required id? (field "context")
      activeWindow := ← optional (nullable id?) none (field "active_window")
      connected := ← optional bool? true (field "connected") }
    server := ← optional text? "" (field "server")
    nick := ← optional text? "" (field "nick")
    away := ← optional bool? false (field "away")
    channels := ← optional (list? channel?) [] (field "channels") }

def ofJson? (v : Json) : Option Fixture := do
  let field ← record?
    ["windows", "consoles", "active_window", "features", "classes", "status_bar_items", "now",
      "utc_offset_seconds"] v
  return {
    windows := ← optional (list? window?) [] (field "windows")
    connections := ← optional (list? connection?) [] (field "consoles")
    activeWindow := ← optional (nullable id?) none (field "active_window")
    features := ← optional (list? text?) [] (field "features")
    classes := ← optional (list? text?) [] (field "classes")
    statusBarItems := ← optional natural? 0 (field "status_bar_items")
    now := ← optional (nullable (integer? Integer.least Integer.greatest)) none (field "now")
    utcOffset := ← optional (nullable (integer? (-(1 <<< 31)) (1 <<< 31 - 1))) none
      (field "utc_offset_seconds") }

def read (s : String) : Option Fixture := do
  ofJson? (← Json.read s)

end ScriptBuiltins.Fixture
