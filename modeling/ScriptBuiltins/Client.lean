import ScriptBuiltins.Host

set_option autoImplicit false

/-! A window registered again replaces the one of its id. Contexts may repeat: a look-up, a channel
and an away flag all go to the console that was registered first with the context. -/
namespace ScriptBuiltins

structure Connection where
  console : Console
  server : String
  nick : String
  away : Bool
  channels : List (String × WindowId)
deriving Repr

def Connection.answersTo (connection : Connection) (server nick : String) : Bool :=
  connection.console.connected &&
    (server.isEmpty || Text.sameIgnoringCase connection.server server) &&
    (nick.isEmpty || Text.sameIgnoringCase connection.nick nick)

structure SystemClock where
  now : Timestamp
  utcOffset : Instant → Option UtcOffset

structure Client where
  /-- The last one registered stands first. -/
  windows : List Window
  connections : List Connection
  activeWindow : Option WindowId
  features : List String
  classes : List String
  statusBarItems : Nat
  now : Option Instant
  utcOffset : Option UtcOffset
deriving Repr

namespace Client

def empty : Client where
  windows := []
  connections := []
  activeWindow := none
  features := []
  classes := []
  statusBarItems := 0
  now := none
  utcOffset := none

def addWindow (c : Client) (w : Window) : Client :=
  { c with windows := w :: c.windows }

def addConsole (c : Client) (console : Console) (server nick : String) : Client :=
  let c := c.addWindow ⟨console.window, .console, some console.context⟩
  { c with connections := c.connections ++ [⟨console, server, nick, false, []⟩] }

def updateFirst (context : ContextId) (change : Connection → Connection) :
    List Connection → List Connection
  | [] => []
  | connection :: connections =>
    if connection.console.context = context then change connection :: connections
    else connection :: updateFirst context change connections

/-- The window is there even if no console has the context yet; the channel is then lost. -/
def addChannel (c : Client) (context : ContextId) (name : String) (window : WindowId) : Client :=
  let c := c.addWindow ⟨window, .channel, some context⟩
  { c with
    connections := updateFirst context
      (fun connection => { connection with channels := connection.channels ++ [(name, window)] })
      c.connections }

def setAway (c : Client) (context : ContextId) (away : Bool) : Client :=
  { c with
    connections :=
      updateFirst context (fun connection => { connection with away }) c.connections }

def setActiveWindow (c : Client) (window : WindowId) : Client :=
  { c with activeWindow := some window }

def addFeatures (c : Client) (names : List String) : Client :=
  { c with features := c.features ++ names }

def addClass (c : Client) (name : String) : Client :=
  { c with classes := c.classes ++ [name] }

def setStatusBarItems (c : Client) (count : Nat) : Client :=
  { c with statusBarItems := count }

def setNow (c : Client) (now : Instant) : Client :=
  { c with now := some now }

def setUtcOffset (c : Client) (offset : UtcOffset) : Client :=
  { c with utcOffset := some offset }

def findWindow (c : Client) (id : WindowId) : Option Window :=
  c.windows.find? (·.id == id)

def connection? (c : Client) (context : ContextId) : Option Connection :=
  c.connections.find? (·.console.context == context)

def findConsole (c : Client) (context : ContextId) : Option Console :=
  (c.connection? context).map (·.console)

def findConsoleByIdentity (c : Client) (server nick : String) : Option Console :=
  (c.connections.find? (Connection.answersTo · server nick)).map (·.console)

def firstConnectedConsole (c : Client) : Option Console :=
  (c.connections.find? (·.console.connected)).map (·.console)

def findChannel (c : Client) (context : ContextId) (name : String) : Option WindowId := do
  let connection ← c.connection? context
  let channel ← connection.channels.find? (Text.sameIgnoringCase ·.1 name)
  return channel.2

def isAway (c : Client) (context : ContextId) : Bool :=
  match c.connection? context with
  | some connection => connection.away
  | none => false

def classDefined (c : Client) (name : String) : Bool :=
  Text.anyIgnoringCase c.classes name

def toHost (c : Client) (system : SystemClock) : Host where
  findWindow := c.findWindow
  activeWindow := c.activeWindow
  findConsole := c.findConsole
  findConsoleByIdentity := c.findConsoleByIdentity
  firstConnectedConsole := c.firstConnectedConsole
  findChannel := c.findChannel
  isAway := c.isAway
  features := c.features
  statusBarItemCount := c.statusBarItems
  classDefined := c.classDefined
  now := c.now.getD system.now
  utcOffset := fun time =>
    match c.utcOffset with
    | some offset => some offset
    | none => system.utcOffset time

end Client

end ScriptBuiltins
