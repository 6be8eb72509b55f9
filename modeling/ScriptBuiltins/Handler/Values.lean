import ScriptBuiltins.Call
import ScriptBuiltins.Flatten

set_option autoImplicit false

namespace ScriptBuiltins.Handler

def array : Handler := fun _ args =>
  .value (.ofList args.rest)

def flatten : Handler := fun _ args =>
  .value (.array (Value.flatten args.rest))

def boolean : Handler := fun _ args =>
  .value (.ofBool (args.variant 0).boolean)

def falsehood : Handler := fun _ _ =>
  .value (.ofBool false)

end ScriptBuiltins.Handler
