import ScriptBuiltins.Handler.Application
import ScriptBuiltins.Handler.Connections
import ScriptBuiltins.Handler.Texts
import ScriptBuiltins.Handler.Values
import ScriptBuiltins.Registry

set_option autoImplicit false

namespace ScriptBuiltins

inductive Builtin where
  | array
  | flatten
  | active
  | away
  | channel
  | console
  | context
  | firstConnectedConsole
  | countStatusBarItems
  | features
  | classDefined
  | asciiToBase64
  | asciiToHex
  | base64ToAscii
  | bold
  | char
  | carriageReturn
  | escape
  | link
  | boolean
  | falsehood
  | date
deriving DecidableEq, Repr

namespace Builtin

def all : List Builtin :=
  [array, flatten, active, away, channel, console, context, firstConnectedConsole,
    countStatusBarItems, features, classDefined, asciiToBase64, asciiToHex, base64ToAscii, bold,
    char, carriageReturn, escape, link, boolean, falsehood, date]

def name : Builtin → String
  | array => "array"
  | flatten => "flatten"
  | active => "active"
  | away => "away"
  | channel => "channel"
  | console => "console"
  | context => "context"
  | firstConnectedConsole => "firstConnectedConsole"
  | countStatusBarItems => "countStatusBarItems"
  | features => "features"
  | classDefined => "classDefined"
  | asciiToBase64 => "asciiToBase64"
  | asciiToHex => "asciiToHex"
  | base64ToAscii => "base64ToAscii"
  | bold => "b"
  | char => "char"
  | carriageReturn => "cr"
  | escape => "escape"
  | link => "fmtlink"
  | boolean => "boolean"
  | falsehood => "false"
  | date => "date"

def aliases : Builtin → List String
  | boolean => ["bool"]
  | _ => []

open Param in
def signature : Builtin → Signature
  | array | flatten => ⟨[], true⟩
  | active | console => .fixed [optional "context_id" .unsigned]
  | away => .fixed [optional "irc_context_id" .unsigned]
  | channel => .fixed [optional "channel_name" .nonemptyText, optional "context_id" .unsigned]
  | context => .fixed [optional "server" .text, optional "nick" .text]
  | firstConnectedConsole | countStatusBarItems | bold | carriageReturn | falsehood => .fixed []
  | features => .fixed [optional "test_feature" .text]
  | classDefined => .fixed [mandatory "className" .nonemptyText]
  | asciiToBase64 | asciiToHex => .fixed [mandatory "ascii_string" .text]
  | base64ToAscii => .fixed [mandatory "base64_encoded_string" .text]
  | char => .fixed [mandatory "unicode_value" .unsigned]
  | escape => .fixed [mandatory "text" .nonemptyText]
  | link =>
    .fixed [mandatory "link_text" .nonemptyText, mandatory "double_click_command" .text,
      optional "tooltip_text" .text]
  | boolean => .fixed [mandatory "data" .variant]
  | date => .fixed [mandatory "format" .nonemptyText, optional "unixtime" .signed]

def handler : Builtin → Handler
  | array => Handler.array
  | flatten => Handler.flatten
  | active => Handler.active
  | away => Handler.away
  | channel => Handler.channel
  | console => Handler.console
  | context => Handler.context
  | firstConnectedConsole => Handler.firstConnectedConsole
  | countStatusBarItems => Handler.countStatusBarItems
  | features => Handler.features
  | classDefined => Handler.classDefined
  | asciiToBase64 => Handler.asciiToBase64
  | asciiToHex => Handler.asciiToHex
  | base64ToAscii => Handler.base64ToAscii
  | bold => Handler.bold
  | char => Handler.char
  | carriageReturn => Handler.carriageReturn
  | escape => Handler.escape
  | link => Handler.link
  | boolean => Handler.boolean
  | falsehood => Handler.falsehood
  | date => Handler.date

def entries (b : Builtin) : List Entry :=
  (b.name :: b.aliases).map fun name => ⟨name, b.signature, b.handler⟩

end Builtin

namespace Registry

def initial (builtins : Bool) (disabled : List String) : Registry :=
  let entries := if builtins then Builtin.all.flatMap Builtin.entries else []
  disabled.foldl unregister (entries.foldl register empty)

end Registry

end ScriptBuiltins
