import ScriptBuiltins.Call
import ScriptBuiltins.Text.Base64
import ScriptBuiltins.Text.Escape
import ScriptBuiltins.Text.Hex
import ScriptBuiltins.Text.Markup

set_option autoImplicit false

namespace ScriptBuiltins.Handler

def asciiToBase64 : Handler := fun _ args =>
  .value (.scalar (Text.Base64.ofText (args.text 0)))

def asciiToHex : Handler := fun _ args =>
  .value (.scalar (Text.Hex.encode (args.text 0)))

def base64ToAscii : Handler := fun ctx args =>
  match Text.Base64.toText (args.text 0) with
  | .ok text => .value (.scalar text)
  | .error error =>
    .warn (Message.undecodable ctx.function (args.text 0) error.message) (.scalar "")

def bold : Handler := fun _ _ =>
  .value (.ofChar Text.bold)

def char : Handler := fun _ args =>
  .value <|
    match Text.charOfCode? (args.unsigned 0).toNat with
    | some c => .ofChar c
    | none => .scalar ""

def carriageReturn : Handler := fun _ _ =>
  .value (.ofChar '\r')

def escape : Handler := fun _ args =>
  .value (.scalar (Text.escape (args.text 0)))

def link : Handler := fun _ args =>
  .value (.scalar (Text.link (args.text 0) (args.text 1) (args.text 2)))

end ScriptBuiltins.Handler
