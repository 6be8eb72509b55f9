import ScriptBuiltins.Client

set_option autoImplicit false

namespace ScriptBuiltins

structure Fixture where
  windows : List Window
  connections : List Connection
  activeWindow : Option WindowId
  features : List String
  classes : List String
  statusBarItems : Nat
  /-- Seconds since the epoch. -/
  now : Option Int
  /-- Seconds ahead of UTC. -/
  utcOffset : Option Int
deriving Repr

inductive FixtureError where
  | clock (seconds : Int)
  | offset (seconds : Int)
deriving DecidableEq, Repr

namespace FixtureError

def message : FixtureError → String
  | clock seconds => "fixture clock " ++ toString seconds ++ " is out of range"
  | offset seconds => "fixture offset " ++ toString seconds ++ "s is out of range"

def cause : FixtureError → RangeError
  | clock _ => .timestamp
  | offset _ => .offset

end FixtureError

/-- A context that has a console already gets the channels and the flag there. -/
def Client.addConnection (c : Client) (connection : Connection) : Client :=
  let context := connection.console.context
  let c := c.addConsole connection.console connection.server connection.nick
  let c := connection.channels.foldl (fun c channel => c.addChannel context channel.1 channel.2) c
  c.setAway context connection.away

namespace Fixture

def clientWithoutClock (f : Fixture) : Client :=
  let c := f.windows.foldl Client.addWindow .empty
  let c := f.connections.foldl Client.addConnection c
  let c := f.activeWindow.elim c c.setActiveWindow
  let c := f.classes.foldl Client.addClass c
  (c.addFeatures f.features).setStatusBarItems f.statusBarItems

def setClock (now : Option Int) (c : Client) : Except FixtureError Client :=
  match now with
  | none => .ok c
  | some seconds =>
    match Timestamp.ofSeconds seconds with
    | .ok time => .ok (c.setNow time)
    | .error _ => .error (.clock seconds)

def setOffset (offset : Option Int) (c : Client) : Except FixtureError Client :=
  match offset with
  | none => .ok c
  | some seconds =>
    match UtcOffset.ofSeconds seconds with
    | .ok offset => .ok (c.setUtcOffset offset)
    | .error _ => .error (.offset seconds)

def toClient (f : Fixture) : Except FixtureError Client := do
  setOffset f.utcOffset (← setClock f.now f.clientWithoutClock)

end Fixture

end ScriptBuiltins
