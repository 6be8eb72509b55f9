import ScriptBuiltins.Moment
import ScriptBuiltins.Text.LetterCase

set_option autoImplicit false

namespace ScriptBuiltins

abbrev WindowId := UInt64

abbrev ContextId := UInt64

inductive WindowKind where
  | console
  | channel
  | query
  | other
deriving DecidableEq, Repr

def WindowKind.ofName? : String → Option WindowKind
  | "console" => some .console
  | "channel" => some .channel
  | "query" => some .query
  | "other" => some .other
  | _ => none

structure Window where
  id : WindowId
  kind : WindowKind
  context : Option ContextId
deriving DecidableEq, Repr

structure Console where
  window : WindowId
  context : ContextId
  /-- The window of this connection that was used last. -/
  activeWindow : Option WindowId
  connected : Bool
deriving DecidableEq, Repr

structure Host where
  findWindow : WindowId → Option Window
  /-- The window with the input focus. -/
  activeWindow : Option WindowId
  findConsole : ContextId → Option Console
  /-- By server and nick; an empty text matches any. -/
  findConsoleByIdentity : String → String → Option Console
  firstConnectedConsole : Option Console
  findChannel : ContextId → String → Option WindowId
  isAway : ContextId → Bool
  features : List String
  hasFeature : String → Bool := Text.anyIgnoringCase features
  statusBarItemCount : Nat := 0
  classDefined : String → Bool := fun _ => false
  now : Instant
  utcOffset : Instant → Option UtcOffset

end ScriptBuiltins
