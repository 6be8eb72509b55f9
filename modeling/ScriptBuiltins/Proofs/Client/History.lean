import Mathlib.Data.List.Basic
import Mathlib.Tactic.SplitIfs
import ScriptBuiltins.Client
import ScriptBuiltins.Proofs.History

set_option autoImplicit false

/-! The last window registered under an id is the one found. Of the consoles of one context the
first counts, and for its channels and its away flag only what was done after it was registered: a
channel that was added before is lost, although its window is there. -/
namespace ScriptBuiltins.Client

open Text (lowercase)

inductive Step where
  | addWindow (window : Window)
  | addConsole (console : Console) (server nick : String)
  | addChannel (context : ContextId) (name : String) (window : WindowId)
  | setAway (context : ContextId) (away : Bool)
  | setActiveWindow (window : WindowId)
  | addFeatures (names : List String)
  | addClass (name : String)
  | setStatusBarItems (count : Nat)
  | setNow (now : Instant)
  | setUtcOffset (offset : UtcOffset)

namespace Step

def apply (c : Client) : Step → Client
  | addWindow window => c.addWindow window
  | addConsole console server nick => c.addConsole console server nick
  | addChannel context name window => c.addChannel context name window
  | setAway context away => c.setAway context away
  | setActiveWindow window => c.setActiveWindow window
  | addFeatures names => c.addFeatures names
  | addClass name => c.addClass name
  | setStatusBarItems count => c.setStatusBarItems count
  | setNow now => c.setNow now
  | setUtcOffset offset => c.setUtcOffset offset

def window? : Step → Option Window
  | addWindow window => some window
  | addConsole console _ _ => some ⟨console.window, .console, some console.context⟩
  | addChannel context _ window => some ⟨window, .channel, some context⟩
  | _ => none

def connection? : Step → Option Connection
  | addConsole console server nick => some ⟨console, server, nick, false, []⟩
  | _ => none

def channel? (context : ContextId) : Step → Option (String × WindowId)
  | addChannel changed name window => if changed = context then some (name, window) else none
  | _ => none

def away? (context : ContextId) : Step → Option Bool
  | setAway changed away => if changed = context then some away else none
  | _ => none

def activeWindow? : Step → Option WindowId
  | setActiveWindow window => some window
  | _ => none

def features : Step → List String
  | addFeatures names => names
  | _ => []

def class? : Step → Option String
  | addClass name => some name
  | _ => none

def statusBarItems? : Step → Option Nat
  | setStatusBarItems count => some count
  | _ => none

def now? : Step → Option Instant
  | setNow now => some now
  | _ => none

def utcOffset? : Step → Option UtcOffset
  | setUtcOffset offset => some offset
  | _ => none

def opens? (context : ContextId) (step : Step) : Option Connection :=
  step.connection?.filter (·.console.context == context)

/-- What the step makes of the connection that is found under the context. -/
def change (context : ContextId) (x : Connection) (step : Step) : Connection :=
  { x with
    away := (step.away? context).getD x.away
    channels := x.channels ++ (step.channel? context).toList }

end Step

def sinceConsole (context : ContextId) (steps : List Step) : List Step :=
  (steps.dropWhile fun step => (step.opens? context).isNone).tail

theorem windows_apply (c : Client) (step : Step) :
    (step.apply c).windows.reverse = c.windows.reverse ++ step.window?.toList := by
  cases step with
  | addWindow | addConsole | addChannel => exact List.reverse_cons
  | _ => exact (List.append_nil _).symm

theorem find?_updateFirst {f : Connection → Connection} (hf : ∀ x, (f x).console = x.console)
    (changed context : ContextId) (connections : List Connection) :
    (updateFirst changed f connections).find? (·.console.context == context) =
      (connections.find? (·.console.context == context)).map
        fun x => if changed = context then f x else x := by
  induction connections with
  | nil => rfl
  | cons x connections ih =>
    by_cases hx : x.console.context = context
    · -- The search ends here, and the change too if it is for this context.
      rw [List.find?_cons_of_pos (by simp [hx]), Option.map_some, updateFirst, hx]
      by_cases hchanged : changed = context
      · rw [if_pos hchanged.symm, if_pos hchanged, List.find?_cons_of_pos (by simp [hf, hx])]
      · rw [if_neg (Ne.symm hchanged), if_neg hchanged, List.find?_cons_of_pos (by simp [hx])]
    · rw [List.find?_cons_of_neg (by simp [hx]), updateFirst]
      by_cases hchanged : x.console.context = changed
      · -- The change ends here, and is not for this context.
        rw [if_pos hchanged, List.find?_cons_of_neg (by simp [hf, hx]), ← hchanged]
        simp only [if_neg hx, Option.map_id']
      · rw [if_neg hchanged, List.find?_cons_of_neg (by simp [hx]), ih]

theorem Step.change_eq_id {context : ContextId} {step : Step}
    (hchannel : step.channel? context = none) (haway : step.away? context = none) :
    (Step.change context · step) = id := by
  funext x
  rw [change, hchannel, haway, Option.toList_none, List.append_nil]
  rfl

section

variable (c : Client) (context : ContextId)

theorem connection?_addConsole (console : Console) (server nick : String) :
    (c.addConsole console server nick).connection? context =
      (c.connection? context).or
        (if console.context == context then some ⟨console, server, nick, false, []⟩ else none) := by
  refine List.find?_append.trans (congrArg _ ?_)
  rw [List.find?_singleton]

theorem connection?_addChannel (changed : ContextId) (name : String) (window : WindowId) :
    (c.addChannel changed name window).connection? context =
      (c.connection? context).map fun x =>
        if changed = context then { x with channels := x.channels ++ [(name, window)] } else x := by
  refine find?_updateFirst ?_ changed context c.connections
  exact fun _ => rfl

theorem connection?_setAway (changed : ContextId) (away : Bool) :
    (c.setAway changed away).connection? context =
      (c.connection? context).map fun x => if changed = context then { x with away } else x := by
  refine find?_updateFirst ?_ changed context c.connections
  exact fun _ => rfl

end

theorem connection?_apply (c : Client) (step : Step) (context : ContextId) :
    (step.apply c).connection? context =
      ((c.connection? context).map (Step.change context · step)).or (step.opens? context) := by
  cases step with
  | addConsole console server nick =>
    rw [Step.change_eq_id rfl rfl, Option.map_id, id]
    exact connection?_addConsole c context console server nick
  | addChannel changed name window =>
    refine (connection?_addChannel c context changed name window).trans ?_
    refine (congrArg (Option.map · _) (funext fun x => ?_)).trans Option.or_none.symm
    by_cases h : changed = context <;> simp [Step.change, Step.away?, Step.channel?, h]
  | setAway changed away =>
    refine (connection?_setAway c context changed away).trans ?_
    refine (congrArg (Option.map · _) (funext fun x => ?_)).trans Option.or_none.symm
    by_cases h : changed = context <;> simp [Step.change, Step.away?, Step.channel?, h]
  | _ =>
    rw [Step.change_eq_id rfl rfl, Option.map_id]
    exact Option.or_none.symm

def registration (x : Connection) : Connection :=
  { x with away := false, channels := [] }

theorem Step.registration_of_opens? {context : ContextId} {step : Step} {x : Connection}
    (h : step.opens? context = some x) : registration x = x := by
  cases step with
  | addConsole =>
    cases (Option.filter_eq_some_iff.mp h).1
    rfl
  | _ => cases h

theorem map_updateFirst {α : Type} {f : Connection → Connection} {view : Connection → α}
    (hf : ∀ x, view (f x) = view x) (changed : ContextId) (connections : List Connection) :
    (updateFirst changed f connections).map view = connections.map view := by
  induction connections with
  | nil => rfl
  | cons x connections ih =>
    rw [updateFirst]
    split_ifs
    · rw [List.map_cons, List.map_cons, hf]
    · rw [List.map_cons, List.map_cons, ih]

theorem connections_apply (c : Client) (step : Step) :
    (step.apply c).connections.map registration =
      c.connections.map registration ++ step.connection?.toList := by
  cases step with
  | addConsole => exact List.map_append
  | addChannel changed | setAway changed =>
    refine (map_updateFirst ?_ changed c.connections).trans (List.append_nil _).symm
    exact fun _ => rfl
  | _ => exact (List.append_nil _).symm

theorem features_apply (c : Client) (step : Step) :
    (step.apply c).features = c.features ++ step.features := by
  cases step with
  | addFeatures => rfl
  | _ => exact (List.append_nil _).symm

theorem classes_apply (c : Client) (step : Step) :
    (step.apply c).classes = c.classes ++ step.class?.toList := by
  cases step with
  | addClass => rfl
  | _ => exact (List.append_nil _).symm

theorem settings_apply (c : Client) (step : Step) :
    (step.apply c).activeWindow = step.activeWindow?.or c.activeWindow ∧
    some (step.apply c).statusBarItems = step.statusBarItems?.or (some c.statusBarItems) ∧
    (step.apply c).now = step.now?.or c.now ∧
    (step.apply c).utcOffset = step.utcOffset?.or c.utcOffset := by
  cases step <;> exact ⟨rfl, rfl, rfl, rfl⟩

theorem windows_foldl_apply (steps : List Step) :
    (steps.foldl Step.apply empty).windows = (steps.filterMap Step.window?).reverse := by
  have hwindows := History.foldl_collect (·.windows.reverse) windows_apply empty steps
  rw [← List.reverse_inj, List.reverse_reverse, List.filterMap_eq_flatMap_toList]
  exact hwindows

theorem connections_foldl_apply (steps : List Step) :
    (steps.foldl Step.apply empty).connections.map registration =
      steps.filterMap Step.connection? := by
  have hconnections := History.foldl_collect (·.connections.map registration) connections_apply
    empty steps
  rw [List.filterMap_eq_flatMap_toList]
  exact hconnections

theorem connection?_foldl_of_some {c : Client} {context : ContextId} {x : Connection}
    (h : c.connection? context = some x) (steps : List Step) :
    (steps.foldl Step.apply c).connection? context =
      some (steps.foldl (Step.change context) x) := by
  induction steps generalizing c x with
  | nil => exact h
  | cons step steps ih =>
    refine ih ?_
    rw [connection?_apply, h, Option.map_some, Option.some_or]

/-- What was done before the first console of the context is lost on the connection. -/
theorem connection?_foldl_apply {c : Client} {context : ContextId}
    (h : c.connection? context = none) (steps : List Step) :
    let found := (steps.foldl Step.apply c).connection? context
    (found = none ∧ sinceConsole context steps = []) ∨
      ∃ x, registration x = x ∧
        found = some ((sinceConsole context steps).foldl (Step.change context) x) := by
  induction steps generalizing c with
  | nil => exact .inl ⟨h, rfl⟩
  | cons step steps ih =>
    have happly := connection?_apply c step context
    rw [h, Option.map_none, Option.none_or] at happly
    rw [List.foldl_cons]
    cases hopens : step.opens? context with
    | none =>
      have hsince : sinceConsole context (step :: steps) = sinceConsole context steps := by
        rw [sinceConsole, List.dropWhile_cons_of_pos (by simp [hopens]), sinceConsole]
      rw [hsince]
      exact ih (happly.trans hopens)
    | some x =>
      have hsince : sinceConsole context (step :: steps) = steps := by
        rw [sinceConsole, List.dropWhile_cons_of_neg (by simp [hopens]), List.tail_cons]
      rw [hsince]
      exact .inr ⟨x, Step.registration_of_opens? hopens,
        connection?_foldl_of_some (happly.trans hopens) steps⟩

theorem channels_foldl_change (context : ContextId) (x : Connection) (steps : List Step) :
    (steps.foldl (Step.change context) x).channels =
      x.channels ++ steps.filterMap (Step.channel? context) := by
  have hstep : ∀ x (step : Step), (step.change context x).channels =
      x.channels ++ (step.channel? context).toList := fun _ _ => rfl
  rw [List.filterMap_eq_flatMap_toList]
  exact History.foldl_collect (·.channels) hstep x steps

theorem away_foldl_change (context : ContextId) (x : Connection) (steps : List Step) :
    (steps.foldl (Step.change context) x).away =
      (steps.findSomeRev? (Step.away? context)).getD x.away := by
  have hstep : ∀ x (step : Step), some (step.change context x).away =
      (step.away? context).or (some x.away) := fun _ _ => Option.or_some.symm
  have haway := History.foldl_last (fun x => some x.away) hstep x steps
  rw [Option.or_some] at haway
  exact Option.some.inj haway

theorem find?_connections (steps : List Step) {p : Connection → Bool}
    (hp : ∀ x, p (registration x) = p x) :
    ((steps.foldl Step.apply empty).connections.find? p).map (·.console) =
      ((steps.filterMap Step.connection?).find? p).map (·.console) := by
  rw [← connections_foldl_apply, List.find?_map, Option.map_map]
  exact congrArg (fun q => (List.find? q _).map _) (funext fun x => (hp x).symm)

theorem findWindow_history (steps : List Step) (id : WindowId) :
    (steps.foldl Step.apply empty).findWindow id =
      (steps.filterMap Step.window?).findRev? (·.id == id) := by
  rw [findWindow, windows_foldl_apply, List.findRev?_eq_find?_reverse]

theorem findChannel_history (steps : List Step) (context : ContextId) (name : String) :
    (steps.foldl Step.apply empty).findChannel context name =
      (((sinceConsole context steps).filterMap (Step.channel? context)).find?
        (Text.sameIgnoringCase ·.1 name)).map (·.2) := by
  have hempty : empty.connection? context = none := rfl
  rcases connection?_foldl_apply hempty steps with ⟨hnone, hsince⟩ | ⟨x, hx, hfound⟩
  · rw [findChannel, hnone, hsince]
    rfl
  · have hchannels : x.channels = [] := congrArg (·.channels) hx.symm
    rw [findChannel, hfound, Option.bind_eq_bind, Option.bind_some, channels_foldl_change,
      hchannels, List.nil_append]
    exact Option.map_eq_bind.symm

theorem isAway_history (steps : List Step) (context : ContextId) :
    (steps.foldl Step.apply empty).isAway context =
      ((sinceConsole context steps).findSomeRev? (Step.away? context)).getD false := by
  have hempty : empty.connection? context = none := rfl
  rcases connection?_foldl_apply hempty steps with ⟨hnone, hsince⟩ | ⟨x, hx, hfound⟩
  · rw [isAway, hnone, hsince]
    rfl
  · have haway : x.away = false := congrArg (·.away) hx.symm
    rw [isAway, hfound]
    exact (away_foldl_change context x _).trans (by rw [haway])

theorem answersTo_iff (x : Connection) (server nick : String) :
    x.answersTo server nick = true ↔ x.console.connected ∧
      (server = "" ∨ lowercase x.server = lowercase server) ∧
      (nick = "" ∨ lowercase x.nick = lowercase nick) := by
  simp [Connection.answersTo, Text.sameIgnoringCase, String.isEmpty_iff, and_assoc]

theorem answersTo_empty (x : Connection) : x.answersTo "" "" = x.console.connected := by
  rw [Bool.eq_iff_iff, answersTo_iff]
  simp

theorem anyIgnoringCase_iff (names : List String) (name : String) :
    Text.anyIgnoringCase names name = true ↔ ∃ known ∈ names, lowercase known = lowercase name := by
  simp [Text.anyIgnoringCase, Text.sameIgnoringCase]

theorem features_history (steps : List Step) :
    (steps.foldl Step.apply empty).features = steps.flatMap Step.features :=
  (History.foldl_collect (·.features) features_apply empty steps).trans (List.nil_append _)

theorem mem_classes_history (steps : List Step) (name : String) :
    name ∈ (steps.foldl Step.apply empty).classes ↔ .addClass name ∈ steps := by
  have hclasses := History.foldl_collect (·.classes) classes_apply empty steps
  have hstep : ∀ step : Step, name ∈ step.class?.toList ↔ step = .addClass name := by
    intro step
    cases step <;> simp [Step.class?, eq_comm]
  rw [hclasses, empty, List.nil_append, List.mem_flatMap]
  simp only [hstep, exists_eq_right]

theorem toHost_utcOffset (c : Client) (system : SystemClock) (time : Instant) :
    (c.toHost system).utcOffset time = c.utcOffset.or (system.utcOffset time) := by
  simp only [toHost]
  cases c.utcOffset <;> rfl

theorem history_answers (steps : List Step) (system : SystemClock) :
    let host := (steps.foldl Step.apply empty).toHost system
    let windows := steps.filterMap Step.window?
    let connections := steps.filterMap Step.connection?
    (∀ id, host.findWindow id = windows.findRev? (·.id == id)) ∧
    (∀ context, host.findConsole context =
      (connections.find? (·.console.context == context)).map (·.console)) ∧
    (∀ context name, host.findChannel context name =
      (((sinceConsole context steps).filterMap (Step.channel? context)).find?
        (lowercase ·.1 == lowercase name)).map (·.2)) ∧
    (∀ context, host.isAway context =
      ((sinceConsole context steps).findSomeRev? (Step.away? context)).getD false) ∧
    (∀ server nick, host.findConsoleByIdentity server nick =
      (connections.find? fun x => x.console.connected ∧
        (server = "" ∨ lowercase x.server = lowercase server) ∧
        (nick = "" ∨ lowercase x.nick = lowercase nick)).map (·.console)) ∧
    host.findConsoleByIdentity "" "" = host.firstConnectedConsole ∧
    host.firstConnectedConsole = (connections.find? (·.console.connected)).map (·.console) ∧
    host.features = steps.flatMap Step.features ∧
    (∀ name, host.hasFeature name = true ↔
      ∃ feature ∈ host.features, lowercase feature = lowercase name) ∧
    (∀ name, host.classDefined name = true ↔
      ∃ known, .addClass known ∈ steps ∧ lowercase known = lowercase name) ∧
    host.statusBarItemCount = (steps.findSomeRev? Step.statusBarItems?).getD 0 ∧
    host.activeWindow = steps.findSomeRev? Step.activeWindow? ∧
    host.now = (steps.findSomeRev? Step.now?).getD system.now ∧
    ∀ time, host.utcOffset time =
      (steps.findSomeRev? Step.utcOffset?).or (system.utcOffset time) := by
  intro host windows connections
  refine ⟨findWindow_history steps, ?_, findChannel_history steps, isAway_history steps, ?_, ?_, ?_,
    ?_, ?_, ?_, ?_, ?_, ?_, ?_⟩
  · exact fun context => find?_connections steps fun _ => rfl
  · intro server nick
    refine (find?_connections steps fun _ => rfl).trans ?_
    refine congrArg (fun p => (List.find? p connections).map (·.console)) (funext fun x => ?_)
    rw [Bool.eq_iff_iff, answersTo_iff, decide_eq_true_iff]
  · exact congrArg (fun p => (List.find? p _).map (·.console)) (funext answersTo_empty)
  · exact find?_connections steps fun _ => rfl
  · exact features_history steps
  · exact anyIgnoringCase_iff _
  · intro name
    refine (anyIgnoringCase_iff _ name).trans ?_
    simp only [mem_classes_history]
  · have hitems := History.foldl_last (fun c => some c.statusBarItems)
      (fun c step => (settings_apply c step).2.1) empty steps
    rw [Option.or_some] at hitems
    exact Option.some.inj hitems
  · have hactive := History.foldl_last (·.activeWindow)
      (fun c step => (settings_apply c step).1) empty steps
    exact hactive.trans Option.or_none
  · have hnow := History.foldl_last (·.now)
      (fun c step => (settings_apply c step).2.2.1) empty steps
    exact congrArg (Option.getD · _) (hnow.trans Option.or_none)
  · intro time
    have hoffset := History.foldl_last (·.utcOffset)
      (fun c step => (settings_apply c step).2.2.2) empty steps
    rw [toHost_utcOffset, hoffset]
    exact congrArg (Option.or · _) Option.or_none

/-- A channel is lost if it comes before the console, but its window is there. -/
example :
    let steps : List Step := [.addChannel 1 "#chess" 5, .addConsole ⟨2, 1, none, true⟩ "" "",
      .addChannel 1 "#Chess" 6]
    (steps.foldl Step.apply empty).findChannel 1 "#chess" = some 6 ∧
      (steps.foldl Step.apply empty).findWindow 5 = some ⟨5, .channel, some 1⟩ := by
  decide

end ScriptBuiltins.Client
