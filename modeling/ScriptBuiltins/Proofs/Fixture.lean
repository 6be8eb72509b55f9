import Mathlib.Data.List.Induction
import Mathlib.Data.List.Nodup
import ScriptBuiltins.Fixture
import ScriptBuiltins.Proofs.Client.History

set_option autoImplicit false

/-! Connections of one context are one connection to the client: it has the console of the first,
the channels of all in their order and the away flag of the last. Each connection registers its own
window and then those of its channels. -/
namespace ScriptBuiltins

namespace Connection

def windows (x : Connection) : List Window :=
  ⟨x.console.window, .console, some x.console.context⟩ ::
    x.channels.map fun channel => ⟨channel.2, .channel, some x.console.context⟩

/-- One more connection of a context, under which one may have been found already. -/
def join (found : Option Connection) (x : Connection) : Connection :=
  match found with
  | none => x
  | some first => { first with channels := first.channels ++ x.channels, away := x.away }

def merge (found : Option Connection) (xs : List Connection) : Option Connection :=
  xs.foldl (fun found x => some (join found x)) found

theorem map_console_merge (found : Option Connection) (xs : List Connection) :
    (merge found xs).map (·.console) =
      (found.map (·.console)).or (xs.head?.map (·.console)) := by
  induction xs generalizing found with
  | nil => exact Option.or_none.symm
  | cons x xs ih => cases found <;> exact ih _

theorem channels_merge (found : Option Connection) (xs : List Connection) :
    (merge found xs).elim [] (·.channels) =
      found.elim [] (·.channels) ++ xs.flatMap (·.channels) := by
  have hjoin : ∀ found x, (some (join found x)).elim [] (·.channels) =
      found.elim [] (·.channels) ++ x.channels := by
    intro found x
    cases found <;> rfl
  exact History.foldl_collect (fun found => found.elim [] (·.channels)) hjoin found xs

theorem map_away_merge (found : Option Connection) (xs : List Connection) :
    (merge found xs).map (·.away) = (xs.getLast?.map (·.away)).or (found.map (·.away)) := by
  induction xs using List.reverseRecOn with
  | nil => rfl
  | append_singleton xs x _ =>
    rw [merge, List.foldl_concat, List.getLast?_concat]
    cases xs.foldl (fun found x => some (join found x)) found <;> rfl

end Connection

open Connection (join merge)

namespace Client

section

variable (c : Client) (context : ContextId)

theorem connection?_addChannels (changed : ContextId) (channels : List (String × WindowId)) :
    (channels.foldl (fun c channel => c.addChannel changed channel.1 channel.2) c).connection?
        context =
      (c.connection? context).map fun x =>
        if changed = context then { x with channels := x.channels ++ channels } else x := by
  induction channels generalizing c with
  | nil => simp
  | cons channel channels ih =>
    rw [List.foldl_cons, ih, connection?_addChannel, Option.map_map]
    refine congrArg (Option.map · _) (funext fun x => ?_)
    by_cases h : changed = context <;> simp [h]

theorem connection?_addConnection (x : Connection) :
    (c.addConnection x).connection? context =
      if x.console.context = context then some (join (c.connection? context) x)
      else c.connection? context := by
  rw [addConnection, connection?_setAway, connection?_addChannels, connection?_addConsole]
  by_cases h : x.console.context = context
  · cases c.connection? context <;> simp [h, join]
  · simp [h]

theorem windows_addConnection (x : Connection) :
    (c.addConnection x).windows.reverse = c.windows.reverse ++ x.windows := by
  have hchannels := History.foldl_collect (·.windows.reverse)
    (fun c (channel : String × WindowId) =>
      windows_apply c (.addChannel x.console.context channel.1 channel.2))
    (c.addConsole x.console x.server x.nick) x.channels
  refine hchannels.trans ?_
  rw [Connection.windows, ← List.singleton_append, ← List.append_assoc, List.map_eq_flatMap]
  exact congrArg (· ++ _) List.reverse_cons

end

def settings (c : Client) : Client := { c with windows := [], connections := [] }

theorem settings_addConnection (c : Client) (x : Connection) :
    (c.addConnection x).settings = c.settings := by
  refine History.foldl_keep settings ?_ (c.addConsole x.console x.server x.nick) x.channels
  exact fun _ _ => rfl

theorem connection?_foldl_addConnection (c : Client) (context : ContextId)
    (connections : List Connection) :
    (connections.foldl addConnection c).connection? context =
      merge (c.connection? context) (connections.filter (·.console.context == context)) := by
  induction connections generalizing c with
  | nil => rfl
  | cons x connections ih =>
    rw [List.foldl_cons, ih, connection?_addConnection]
    by_cases h : x.console.context = context
    · rw [if_pos h, List.filter_cons_of_pos (by simp [h])]
      rfl
    · rw [if_neg h, List.filter_cons_of_neg (by simp [h])]

end Client

namespace Fixture

open Text (lowercase)

def registrations (f : Fixture) : List Window :=
  f.windows ++ f.connections.flatMap Connection.windows

structure Fills (f : Fixture) (c : Client) : Prop where
  windows : c.windows.reverse = f.registrations
  connection? : ∀ context,
    c.connection? context = merge none (f.connections.filter (·.console.context == context))
  activeWindow : c.activeWindow = f.activeWindow
  features : c.features = f.features
  classes : c.classes = f.classes
  statusBarItems : c.statusBarItems = f.statusBarItems
  now : c.now.map (·.seconds) = f.now
  utcOffset : c.utcOffset.map (·.seconds) = f.utcOffset

theorem foldl_addWindow (c : Client) (windows : List Window) :
    windows.foldl Client.addWindow c = { c with windows := windows.reverse ++ c.windows } := by
  induction windows generalizing c with
  | nil => rfl
  | cons window windows ih => simp [ih, Client.addWindow]

theorem foldl_addClass (c : Client) (classes : List String) :
    classes.foldl Client.addClass c = { c with classes := c.classes ++ classes } := by
  induction classes generalizing c with
  | nil => simp
  | cons name classes ih => simp [ih, Client.addClass]

theorem clientWithoutClock_eq (f : Fixture) :
    let start : Client := { Client.empty with windows := f.windows.reverse }
    let c := f.connections.foldl Client.addConnection start
    f.clientWithoutClock = { c with
      activeWindow := f.activeWindow.or c.activeWindow
      classes := c.classes ++ f.classes
      features := c.features ++ f.features
      statusBarItems := f.statusBarItems } := by
  intro start c
  have hactive : f.activeWindow.elim c c.setActiveWindow =
      { c with activeWindow := f.activeWindow.or c.activeWindow } := by
    cases f.activeWindow <;> rfl
  have hwindows : f.windows.foldl Client.addWindow .empty = start :=
    (foldl_addWindow .empty f.windows).trans
      (congrArg (fun windows => { Client.empty with windows }) (List.append_nil _))
  rw [clientWithoutClock, hwindows, hactive, foldl_addClass]
  rfl

theorem fills_clientWithoutClock (f : Fixture) :
    Fills { f with now := none, utcOffset := none } f.clientWithoutClock := by
  let start : Client := { Client.empty with windows := f.windows.reverse }
  have hwindows := History.foldl_collect (·.windows.reverse) Client.windows_addConnection start
    f.connections
  have hsettings :
      (f.connections.foldl Client.addConnection start).settings = Client.empty.settings :=
    History.foldl_keep Client.settings Client.settings_addConnection start f.connections
  have hfound := fun context =>
    Client.connection?_foldl_addConnection start context f.connections
  rw [clientWithoutClock_eq]
  refine ⟨?_, hfound, ?_, ?_, ?_, rfl, ?_, ?_⟩
  · refine hwindows.trans ?_
    rw [List.reverse_reverse, registrations]
  · have hactive := congrArg Client.activeWindow hsettings
    exact (congrArg (f.activeWindow.or ·) hactive).trans Option.or_none
  · exact congrArg (·.features ++ f.features) hsettings
  · exact congrArg (·.classes ++ f.classes) hsettings
  · exact congrArg (·.now.map (·.seconds)) hsettings
  · exact congrArg (·.utcOffset.map (·.seconds)) hsettings

section

variable {seconds : Int} (c : Client)

theorem setClock_eq_error (h : ¬ InYears seconds) :
    setClock (some seconds) c = .error (.clock seconds) := by
  simp only [setClock, Timestamp.ofSeconds, dif_neg h]

theorem setOffset_eq_error (h : ¬ (-93599 ≤ seconds ∧ seconds ≤ 93599)) :
    setOffset (some seconds) c = .error (.offset seconds) := by
  simp only [setOffset, UtcOffset.ofSeconds, dif_neg h]

theorem exists_setClock {now : Option Int} (h : ∀ seconds ∈ now, InYears seconds) :
    ∃ time : Option Instant, time.map (·.seconds) = now ∧
      setClock now c = .ok { c with now := time.or c.now } := by
  cases now with
  | none => exact ⟨none, rfl, rfl⟩
  | some seconds =>
    have hyears : InYears seconds := h seconds rfl
    refine ⟨some (Timestamp.toInstant ⟨seconds, hyears⟩), rfl, ?_⟩
    simp only [setClock, Timestamp.ofSeconds, dif_pos hyears]
    rfl

theorem exists_setOffset {offset : Option Int}
    (h : ∀ seconds ∈ offset, -93599 ≤ seconds ∧ seconds ≤ 93599) :
    ∃ ahead : Option UtcOffset, ahead.map (·.seconds) = offset ∧
      setOffset offset c = .ok { c with utcOffset := ahead.or c.utcOffset } := by
  cases offset with
  | none => exact ⟨none, rfl, rfl⟩
  | some seconds =>
    have hbounds := h seconds rfl
    refine ⟨some ⟨seconds, hbounds.1, hbounds.2⟩, rfl, ?_⟩
    simp only [setOffset, UtcOffset.ofSeconds, dif_pos hbounds]
    rfl

end

section

variable {f : Fixture}

theorem toClient_of_clock {seconds : Int} (hnow : f.now = some seconds) (h : ¬ InYears seconds) :
    f.toClient = .error (.clock seconds) := by
  rw [toClient, hnow, setClock_eq_error _ h]
  rfl

theorem toClient_of_offset {seconds : Int} (hclock : ∀ now ∈ f.now, InYears now)
    (hoffset : f.utcOffset = some seconds) (h : ¬ (-93599 ≤ seconds ∧ seconds ≤ 93599)) :
    f.toClient = .error (.offset seconds) := by
  obtain ⟨time, _, htime⟩ := exists_setClock f.clientWithoutClock hclock
  rw [toClient, htime, hoffset]
  exact setOffset_eq_error _ h

theorem exists_toClient (hclock : ∀ now ∈ f.now, InYears now)
    (hoffset : ∀ seconds ∈ f.utcOffset, -93599 ≤ seconds ∧ seconds ≤ 93599) :
    ∃ c, f.toClient = .ok c ∧ f.Fills c := by
  have hfills := f.fills_clientWithoutClock
  have hnow : f.clientWithoutClock.now = none := Option.map_eq_none_iff.mp hfills.now
  have hutcOffset : f.clientWithoutClock.utcOffset = none :=
    Option.map_eq_none_iff.mp hfills.utcOffset
  obtain ⟨time, htime, hset⟩ := exists_setClock f.clientWithoutClock hclock
  obtain ⟨ahead, hahead, hset'⟩ :=
    exists_setOffset { f.clientWithoutClock with now := time.or f.clientWithoutClock.now } hoffset
  rw [hnow, Option.or_none] at hset hset'
  rw [hutcOffset, Option.or_none] at hset'
  refine ⟨{ f.clientWithoutClock with now := time, utcOffset := ahead }, ?_,
    { hfills with now := htime, utcOffset := hahead }⟩
  rw [toClient, hset]
  exact hset'

theorem toClient_cases (f : Fixture) :
    (∃ seconds, f.toClient = .error (.clock seconds) ∧ f.now = some seconds ∧ ¬ InYears seconds) ∨
    (∃ seconds, f.toClient = .error (.offset seconds) ∧ (∀ now ∈ f.now, InYears now) ∧
      f.utcOffset = some seconds ∧ ¬ (-93599 ≤ seconds ∧ seconds ≤ 93599)) ∨
    ∃ c, f.toClient = .ok c := by
  by_cases hclock : ∀ now ∈ f.now, InYears now
  · by_cases hoffset : ∀ seconds ∈ f.utcOffset, -93599 ≤ seconds ∧ seconds ≤ 93599
    · obtain ⟨c, hc, _⟩ := exists_toClient hclock hoffset
      exact .inr (.inr ⟨c, hc⟩)
    · simp only [not_forall] at hoffset
      obtain ⟨seconds, hseconds, hbounds⟩ := hoffset
      have herror := toClient_of_offset hclock hseconds hbounds
      exact .inr (.inl ⟨seconds, herror, hclock, hseconds, hbounds⟩)
  · simp only [not_forall] at hclock
    obtain ⟨seconds, hseconds, hyears⟩ := hclock
    exact .inl ⟨seconds, toClient_of_clock hseconds hyears, hseconds, hyears⟩

end

/-- Where the fixture has no clock or no offset, the clock of the machine counts. -/
structure Describes (f : Fixture) (system : SystemClock) (host : Host) : Prop where
  findWindow : ∀ id, host.findWindow id = f.registrations.findRev? (·.id == id)
  findConsole : ∀ context, host.findConsole context =
    (f.connections.find? (·.console.context == context)).map (·.console)
  findChannel : ∀ context name, host.findChannel context name =
    (((f.connections.filter (·.console.context == context)).flatMap (·.channels)).find?
      (lowercase ·.1 == lowercase name)).map (·.2)
  isAway : ∀ context, host.isAway context =
    ((f.connections.findRev? (·.console.context == context)).map (·.away)).getD false
  features : host.features = f.features
  classDefined : ∀ name, host.classDefined name = true ↔
    ∃ known ∈ f.classes, lowercase known = lowercase name
  activeWindow : host.activeWindow = f.activeWindow
  statusBarItemCount : host.statusBarItemCount = f.statusBarItems
  now : host.now.seconds = f.now.getD system.now.seconds
  utcOffset : ∀ time, (host.utcOffset time).map (·.seconds) =
    f.utcOffset.or ((system.utcOffset time).map (·.seconds))

section

variable {f : Fixture} {c : Client}

theorem Fills.findWindow (h : f.Fills c) (id : WindowId) :
    c.findWindow id = f.registrations.findRev? (·.id == id) := by
  rw [← h.windows, List.findRev?_eq_find?_reverse, List.reverse_reverse, Client.findWindow]

theorem Fills.findConsole (h : f.Fills c) (context : ContextId) :
    c.findConsole context =
      (f.connections.find? (·.console.context == context)).map (·.console) := by
  rw [Client.findConsole, h.connection?, Connection.map_console_merge, List.head?_filter]
  exact Option.none_or

theorem Fills.findChannel (h : f.Fills c) (context : ContextId) (name : String) :
    c.findChannel context name =
      (((f.connections.filter (·.console.context == context)).flatMap (·.channels)).find?
        (lowercase ·.1 == lowercase name)).map (·.2) := by
  have hchannels := Connection.channels_merge none
    (f.connections.filter (·.console.context == context))
  rw [← h.connection?, Option.elim_none, List.nil_append] at hchannels
  rw [← hchannels, Client.findChannel]
  cases c.connection? context with
  | none => rfl
  | some x => exact Option.map_eq_bind.symm

theorem Fills.isAway (h : f.Fills c) (context : ContextId) :
    c.isAway context =
      ((f.connections.findRev? (·.console.context == context)).map (·.away)).getD false := by
  have haway := Connection.map_away_merge none
    (f.connections.filter (·.console.context == context))
  rw [← h.connection?, Option.map_none, Option.or_none, ← List.head?_reverse, ← List.filter_reverse,
    List.head?_filter, ← List.findRev?_eq_find?_reverse] at haway
  rw [← haway, Client.isAway]
  cases c.connection? context <;> rfl

/-- Where no context repeats, a connection is found as it was described. -/
theorem Fills.connection?_of_nodup (h : f.Fills c)
    (hnodup : (f.connections.map (·.console.context)).Nodup) {x : Connection}
    (hx : x ∈ f.connections) : c.connection? x.console.context = some x := by
  have hcontexts : (f.connections.filter (·.console.context == x.console.context)).map
      (·.console.context) = [x.console.context] := by
    have hcount := List.count_eq_one_of_mem hnodup (List.mem_map_of_mem hx)
    have hfilter := List.filter_beq (l := f.connections.map (·.console.context)) x.console.context
    rwa [List.filter_map, hcount] at hfilter
  obtain ⟨y, hfilter, _⟩ := List.map_eq_singleton_iff.mp hcontexts
  have hmem : x ∈ f.connections.filter (·.console.context == x.console.context) :=
    List.mem_filter.mpr ⟨hx, beq_self_eq_true _⟩
  rw [hfilter, List.mem_singleton] at hmem
  rw [h.connection?, hfilter, hmem]
  rfl

theorem Fills.describes (h : f.Fills c) (system : SystemClock) :
    f.Describes system (c.toHost system) where
  findWindow := h.findWindow
  findConsole := h.findConsole
  findChannel := h.findChannel
  isAway := h.isAway
  features := h.features
  classDefined := by
    intro name
    rw [← h.classes]
    exact Client.anyIgnoringCase_iff c.classes name
  activeWindow := h.activeWindow
  statusBarItemCount := h.statusBarItems
  now := by
    rw [← h.now]
    exact (Option.getD_map (·.seconds) (system.now : Instant) c.now).symm
  utcOffset := by
    intro time
    rw [Client.toHost_utcOffset, ← h.utcOffset, Option.map_or]

end

/-- A fixture whose clock or offset is out of range is refused, the clock first. From any other one
a client is made, which answers what the fixture says; where no context repeats, each connection
has its own away flag and its own channels there. -/
theorem toClient_outcome (f : Fixture) (system : SystemClock) :
    (∀ seconds, f.toClient = .error (.clock seconds) ↔ f.now = some seconds ∧ ¬ InYears seconds) ∧
    (∀ seconds, f.toClient = .error (.offset seconds) ↔ (∀ now ∈ f.now, InYears now) ∧
      f.utcOffset = some seconds ∧ ¬ (-93599 ≤ seconds ∧ seconds ≤ 93599)) ∧
    ((∀ now ∈ f.now, InYears now) →
      (∀ seconds ∈ f.utcOffset, -93599 ≤ seconds ∧ seconds ≤ 93599) →
      ∃ c, f.toClient = .ok c ∧ f.Describes system (c.toHost system) ∧
        ((f.connections.map (·.console.context)).Nodup → ∀ x ∈ f.connections,
          (c.toHost system).findConsole x.console.context = some x.console ∧
          (c.toHost system).isAway x.console.context = x.away ∧
          ∀ name, (c.toHost system).findChannel x.console.context name =
            (x.channels.find? (lowercase ·.1 == lowercase name)).map (·.2))) := by
  refine ⟨fun seconds => ?_, fun seconds => ?_, fun hclock hoffset => ?_⟩
  · refine ⟨fun h => ?_, fun h => toClient_of_clock h.1 h.2⟩
    obtain ⟨_, herror, hcause⟩ | ⟨_, herror, _⟩ | ⟨_, hok⟩ := f.toClient_cases
    · cases h.symm.trans herror
      exact hcause
    · cases h.symm.trans herror
    · cases h.symm.trans hok
  · refine ⟨fun h => ?_, fun h => toClient_of_offset h.1 h.2.1 h.2.2⟩
    obtain ⟨_, herror, _⟩ | ⟨_, herror, hcause⟩ | ⟨_, hok⟩ := f.toClient_cases
    · cases h.symm.trans herror
    · cases h.symm.trans herror
      exact hcause
    · cases h.symm.trans hok
  · obtain ⟨c, hc, hfills⟩ := exists_toClient hclock hoffset
    refine ⟨c, hc, hfills.describes system, fun hnodup x hx => ?_⟩
    have hfound := hfills.connection?_of_nodup hnodup hx
    refine ⟨?_, ?_, fun name => ?_⟩
    · change c.findConsole x.console.context = _
      rw [Client.findConsole, hfound, Option.map_some]
    · change c.isAway x.console.context = _
      rw [Client.isAway, hfound]
    · change c.findChannel x.console.context name = _
      rw [Client.findChannel, hfound]
      exact Option.map_eq_bind.symm

/-- The second connection of a context leaves its channels and its away flag with the first, and
only its window is its own. -/
theorem toClient_outcome_repeated :
    let f : Fixture :=
      { windows := [⟨5, .other, none⟩]
        connections := [⟨⟨2, 1, none, true⟩, "", "", true, [("#a", 5)]⟩,
          ⟨⟨3, 1, none, true⟩, "", "", false, [("#A", 6), ("#b", 7)]⟩]
        activeWindow := none
        features := []
        classes := []
        statusBarItems := 0
        now := some 253402300799
        utcOffset := some (-93599) }
    (∀ now ∈ f.now, InYears now) ∧
    (∀ seconds ∈ f.utcOffset, -93599 ≤ seconds ∧ seconds ≤ 93599) ∧
    ∃ c, f.toClient = .ok c ∧ c.findWindow 3 = some ⟨3, .console, some 1⟩ ∧
      c.findWindow 5 = some ⟨5, .channel, some 1⟩ ∧ c.findConsole 1 = some ⟨2, 1, none, true⟩ ∧
      c.findChannel 1 "#A" = some 5 ∧ c.findChannel 1 "#B" = some 7 ∧ c.isAway 1 = false := by
  intro f
  have hclock : ∀ now ∈ f.now, InYears now := by
    rintro _ ⟨⟩
    decide
  have hoffset : ∀ seconds ∈ f.utcOffset, -93599 ≤ seconds ∧ seconds ≤ 93599 := by
    rintro _ ⟨⟩
    decide
  obtain ⟨c, hc, hdescribes, _⟩ :=
    (toClient_outcome f ⟨.epoch, fun _ => none⟩).2.2 hclock hoffset
  exact ⟨hclock, hoffset, c, hc, hdescribes.findWindow 3, hdescribes.findWindow 5,
    hdescribes.findConsole 1, (hdescribes.findChannel 1 "#A").trans (by decide),
    (hdescribes.findChannel 1 "#B").trans (by decide), hdescribes.isAway 1⟩

end Fixture

end ScriptBuiltins
