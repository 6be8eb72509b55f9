import ScriptBuiltins.Call

set_option autoImplicit false

namespace ScriptBuiltins

/-- The number 0 stands for none. -/
def Value.ofId (id : Option UInt64) : Value :=
  .ofNat (id.getD 0).toNat

/-- Nothing can be said of a connection that is down. -/
def Host.awayOf (host : Host) : Option Console → Value
  | some console => if console.connected then .ofBool (host.isAway console.context) else .nothing
  | none => .nothing

def Host.channelOf (host : Host) (console : Console) (name : String) : Value :=
  .ofId (if console.connected then host.findChannel console.context name else none)

namespace Handler

def active : Handler := fun ctx args =>
  .value <| .ofId <|
    if args.isSupplied 0 then (ctx.host.findConsole (args.unsigned 0)).bind (·.activeWindow)
    else ctx.host.activeWindow

def away : Handler := fun ctx args =>
  if args.isSupplied 0 then .value (ctx.host.awayOf (ctx.host.findConsole (args.unsigned 0)))
  else
    match ctx.console with
    | some console => .value (ctx.host.awayOf console)
    | none => .warn (Message.noWindowContext ctx.function) .nothing

/-- With no argument the calling window, if it is a channel; with a name that channel, of the
calling window's connection or of the one given. -/
def channel : Handler := fun ctx args =>
  match args.supplied with
  | 0 => .value (.ofId ((ctx.callingWindow.filter (·.kind = .channel)).map (·.id)))
  | 1 =>
    match ctx.console with
    | some console => .value (ctx.host.channelOf console (args.text 0))
    | none => .warn (Message.noWindowContext ctx.function) (.ofId none)
  | _ =>
    match ctx.host.findConsole (args.unsigned 1) with
    | some console => .value (ctx.host.channelOf console (args.text 0))
    | none => .warn (Message.noSuchContext ctx.function (args.unsigned 1)) (.ofId none)

def console : Handler := fun ctx args =>
  if args.isSupplied 0 then
    .value (.ofId ((ctx.host.findConsole (args.unsigned 0)).map (·.window)))
  else
    match ctx.console with
    | some console => .value (.ofId (some console.window))
    | none => .warn (Message.noWindowContext ctx.function) (.ofId none)

def context : Handler := fun ctx args =>
  let console :=
    if (args.text 0).isEmpty && (args.text 1).isEmpty then ctx.console
    else ctx.host.findConsoleByIdentity (args.text 0) (args.text 1)
  .value (.ofId (console.map (·.context)))

def firstConnectedConsole : Handler := fun ctx _ =>
  .value (.ofId (ctx.host.firstConnectedConsole.map (·.window)))

end Handler

end ScriptBuiltins
