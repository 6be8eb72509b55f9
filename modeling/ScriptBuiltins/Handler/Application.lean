import ScriptBuiltins.Call
import ScriptBuiltins.DateFormat

set_option autoImplicit false

namespace ScriptBuiltins.Handler

def countStatusBarItems : Handler := fun ctx _ =>
  .value (.ofNat ctx.host.statusBarItemCount)

def features : Handler := fun ctx args =>
  if (args.text 0).isEmpty then .value (.ofList (ctx.host.features.map .scalar))
  else .value (.ofBool (ctx.host.hasFeature (args.text 0)))

def classDefined : Handler := fun ctx args =>
  .value (.ofBool (ctx.host.classDefined (args.text 0)))

def dateAt (ctx : CallContext) (format : String) (seconds : Int) (offset : UtcOffset) : Reply :=
  match Moment.ofSeconds seconds offset with
  | .ok moment => .value (.scalar (DateFormat.format format moment.civilTime))
  | .error error => .warn (Message.invalidDate ctx.function error.message) .nothing

/-- Where the local offset cannot be told the clock is UTC. -/
def date : Handler := fun ctx args =>
  let seconds := if args.isSupplied 1 then args.signed 1 else ctx.host.now.seconds
  match Timestamp.ofSeconds seconds with
  | .error error => .warn (Message.invalidDate ctx.function error.message) .nothing
  | .ok time =>
    match ctx.host.utcOffset time with
    | some offset => dateAt ctx (args.text 0) seconds offset
    | none =>
      let reply := dateAt ctx (args.text 0) seconds .utc
      { reply with
        notes := .remark "local offset unavailable, formatting in UTC" :: reply.notes }

end ScriptBuiltins.Handler
