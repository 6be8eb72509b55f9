import ScriptBuiltins.Proofs.Call
import ScriptBuiltins.Proofs.Warnings

set_option autoImplicit false

/-! The built-in functions see the window that calls them through the connection that it belongs to.
One call only tells two windows of one connection apart: `channel` without an argument answers the
window itself. -/
namespace ScriptBuiltins

def Host.Belongs (host : Host) (window : Option WindowId) (context : ContextId) : Prop :=
  ∃ id found, window = some id ∧ host.findWindow id = some found ∧ found.context = some context

def Host.ShowsChannel (host : Host) (window : Option WindowId) (found : Window) : Prop :=
  ∃ id, window = some id ∧ host.findWindow id = some found ∧ found.kind = .channel

section

variable {host : Host} {window window' : Option WindowId}

theorem CallSite.context_eq_some_iff (host : Host) (window : Option WindowId)
    (context : ContextId) :
    CallSite.context ⟨host, window⟩ = some context ↔ host.Belongs window context := by
  simp only [CallSite.context, CallSite.callingWindow, Option.bind_eq_some_iff, Host.Belongs]
  constructor
  · rintro ⟨found, ⟨id, hid, hfound⟩, hcontext⟩
    exact ⟨id, found, hid, hfound, hcontext⟩
  · rintro ⟨id, found, hid, hfound, hcontext⟩
    exact ⟨found, ⟨id, hid, hfound⟩, hcontext⟩

theorem CallSite.context_eq_iff :
    CallSite.context ⟨host, window⟩ = CallSite.context ⟨host, window'⟩ ↔
      ∀ context, host.Belongs window context ↔ host.Belongs window' context := by
  simp only [← CallSite.context_eq_some_iff]
  exact Option.ext_iff

theorem CallSite.console_congr
    (h : CallSite.context ⟨host, window⟩ = CallSite.context ⟨host, window'⟩) :
    CallSite.console ⟨host, window⟩ = CallSite.console ⟨host, window'⟩ := by
  rw [CallSite.console, h, CallSite.console]

theorem CallSite.channelWindow_of_showsChannel {found : Window}
    (h : host.ShowsChannel window found) :
    (CallSite.callingWindow ⟨host, window⟩).filter (·.kind = .channel) = some found := by
  obtain ⟨id, rfl, hfound, hkind⟩ := h
  rw [Option.filter_eq_some_iff]
  exact ⟨hfound, decide_eq_true hkind⟩

theorem CallSite.channelWindow_eq_none (h : ∀ found, ¬ host.ShowsChannel window found) :
    (CallSite.callingWindow ⟨host, window⟩).filter (·.kind = .channel) = none := by
  rw [Option.filter_eq_none_iff]
  intro found hfound hkind
  obtain ⟨id, hid, hfound⟩ := Option.bind_eq_some_iff.mp hfound
  exact h found ⟨id, hid, hfound, of_decide_eq_true hkind⟩

variable (function : String) (args : Bound)

theorem base64ToAscii_congr_site (site site' : CallSite) :
    Handler.base64ToAscii ⟨site, function⟩ args = Handler.base64ToAscii ⟨site', function⟩ args := by
  simp only [Handler.base64ToAscii]

theorem date_congr_window :
    Handler.date ⟨⟨host, window⟩, function⟩ args =
      Handler.date ⟨⟨host, window'⟩, function⟩ args := by
  simp only [Handler.date, Handler.dateAt]

variable (h : CallSite.console ⟨host, window⟩ = CallSite.console ⟨host, window'⟩)

include h

theorem away_congr_window :
    Handler.away ⟨⟨host, window⟩, function⟩ args =
      Handler.away ⟨⟨host, window'⟩, function⟩ args := by
  simp only [Handler.away, h]

theorem console_congr_window :
    Handler.console ⟨⟨host, window⟩, function⟩ args =
      Handler.console ⟨⟨host, window'⟩, function⟩ args := by
  simp only [Handler.console, h]

theorem context_congr_window :
    Handler.context ⟨⟨host, window⟩, function⟩ args =
      Handler.context ⟨⟨host, window'⟩, function⟩ args := by
  simp only [Handler.context, h]

/-- The window itself is only looked at where there is no argument. -/
theorem channel_congr_window (hsupplied : args.supplied ≠ 0) :
    Handler.channel ⟨⟨host, window⟩, function⟩ args =
      Handler.channel ⟨⟨host, window'⟩, function⟩ args := by
  unfold Handler.channel
  split
  · contradiction
  · rw [h]
  · rfl

theorem handler_congr_window (b : Builtin) (hb : b = .channel → args.supplied ≠ 0) :
    b.handler ⟨⟨host, window⟩, function⟩ args = b.handler ⟨⟨host, window'⟩, function⟩ args := by
  cases b with
  | away => exact away_congr_window function args h
  | channel => exact channel_congr_window function args h (hb rfl)
  | console => exact console_congr_window function args h
  | context => exact context_congr_window function args h
  | date =>
    rw [Builtin.handler]
    exact date_congr_window function args
  | base64ToAscii =>
    rw [Builtin.handler]
    exact base64ToAscii_congr_site function args _ _
  | _ => rfl

end

theorem supplied_channel_ne_zero {args : List Value} {bound : Bound}
    (h : bind Builtin.channel.signature args = .ok bound) (hargs : args ≠ []) :
    bound.supplied ≠ 0 := by
  have hsupplied : bound.supplied = min args.length 2 := (bind_eq_ok h).2.2.1
  have hlength := List.length_pos_iff.mpr hargs
  omega

theorem call_channel_nil (function : String) (host : Host) (window : Option WindowId) :
    (Entry.call ⟨function, Builtin.channel.signature, Builtin.channel.handler⟩
        ⟨host, window⟩ []).result =
      .ok ⟨.ofId (((CallSite.callingWindow ⟨host, window⟩).filter (·.kind = .channel)).map (·.id)),
        none⟩ :=
  Entry.call_of_value rfl rfl

theorem call_congr_window (builtins : Bool) (disabled : List String) {host : Host}
    {window window' : Option WindowId}
    (h : ∀ context, host.Belongs window context ↔ host.Belongs window' context) (name : String)
    (args : List Value) :
    let r := Registry.initial builtins disabled
    let call := fun window => r.call ⟨host, window⟩ name args
    let asksForItself := r.lookup name ≠ none ∧ Builtin.channel.goesBy name = true ∧ args = []
    (¬ asksForItself → call window = call window') ∧
    (asksForItself → ∀ window,
      (∀ found, host.ShowsChannel window found →
        (call window).result = .ok ⟨.ofId (some found.id), none⟩) ∧
      ((∀ found, ¬ host.ShowsChannel window found) →
        (call window).result = .ok ⟨.scalar "0", none⟩)) := by
  intro r call asksForItself
  have hconsole := CallSite.console_congr (CallSite.context_eq_iff.mpr h)
  constructor
  · intro hother
    by_cases hlookup : r.lookup name = none
    · simp only [call, Registry.call, hlookup]
    · refine Registry.call_initial_congr_site ?_
      intro b hname function bound hbound
      refine handler_congr_window function bound hconsole b ?_
      rintro rfl
      refine supplied_channel_ne_zero hbound ?_
      rintro rfl
      exact hother ⟨hlookup, hname, rfl⟩
  · rintro ⟨hlookup, hname, rfl⟩ window
    obtain ⟨known, _, hcall⟩ := Registry.exists_call_of_goesBy hname hlookup
    have hresult : (call window).result = _ :=
      (congrArg CallRecord.result (hcall _ _)).trans (call_channel_nil known host window)
    rw [hresult]
    constructor
    · intro found hfound
      rw [CallSite.channelWindow_of_showsChannel hfound, Option.map_some]
    · intro hnone
      rw [CallSite.channelWindow_eq_none hnone, Option.map_none, Value.ofId_none]

/-- From a channel window and from the console of its connection. -/
theorem call_congr_window_of_channel :
    let client := (Client.empty.addConsole ⟨2, 1, none, true⟩ "" "").addChannel 1 "#chess" 5
    let host := client.toHost ⟨.epoch, fun _ => none⟩
    let call := fun window name => (Registry.initial true []).call ⟨host, window⟩ name []
    (∀ context, host.Belongs (some 2) context ↔ host.Belongs (some 5) context) ∧
    call (some 2) "console" = call (some 5) "console" ∧
    (call (some 2) "channel").result = .ok ⟨.scalar "0", none⟩ ∧
    (call (some 5) "channel").result = .ok ⟨.scalar "5", none⟩ := by
  intro client host call
  have h : ∀ context, host.Belongs (some 2) context ↔ host.Belongs (some 5) context :=
    CallSite.context_eq_iff.mp rfl
  have hfive : Value.ofId (some 5) = .scalar "5" := congrArg Value.scalar (by decide)
  have hname : Builtin.channel.goesBy "channel" = true := by decide
  obtain ⟨entry, _, hlookup⟩ := Registry.exists_lookup_initial hname List.any_nil
  have hasks : (Registry.initial true []).lookup "channel" ≠ none ∧
      Builtin.channel.goesBy "channel" = true ∧ ([] : List Value) = [] :=
    ⟨by simp [hlookup], hname, rfl⟩
  refine ⟨h, (call_congr_window true [] h "console" []).1 ?_, ?_, ?_⟩
  · rintro ⟨_, hchannel, _⟩
    exact absurd hchannel (by decide)
  · refine ((call_congr_window true [] h "channel" []).2 hasks (some 2)).2 ?_
    rintro found ⟨id, hid, hfound, hkind⟩
    cases hid
    cases hfound
    cases hkind
  · rw [← hfive]
    exact ((call_congr_window true [] h "channel" []).2 hasks (some 5)).1 _ ⟨5, rfl, rfl, rfl⟩

end ScriptBuiltins
