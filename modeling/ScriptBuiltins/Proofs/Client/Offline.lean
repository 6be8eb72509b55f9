import ScriptBuiltins.Proofs.CallingWindow
import ScriptBuiltins.Proofs.Client.History
import ScriptBuiltins.Proofs.Ids

set_option autoImplicit false

/-! A function that looks for a server, a channel or an away flag passes by every connection that is
down, also where it shares its context with one that is up. Only `console` and `active` show more of
it than its context. -/
namespace ScriptBuiltins

open Text (lowercase)

/-- The connection of the id given, or else of the calling window. -/
def CallSite.contextOf (site : CallSite) : Option Value → Option ContextId
  | some v => some v.word
  | none => site.context

def textAt (args : List Value) (i : Nat) : String :=
  match args[i]? with
  | some v => v.text
  | none => ""

def Client.Online (steps : List Client.Step) (context : Option ContextId) (x : Connection) : Prop :=
  x.console.connected = true ∧ ∃ id, context = some id ∧
    (steps.filterMap Client.Step.connection?).find? (·.console.context == id) = some x

namespace Client

def channelsOf (steps : List Step) (x : Connection) : List (String × WindowId) :=
  (sinceConsole x.console.context steps).filterMap (Step.channel? x.console.context)

def awayFlagOf (steps : List Step) (x : Connection) : Bool :=
  ((sinceConsole x.console.context steps).findSomeRev? (Step.away? x.console.context)).getD false

end Client

/-- Only the context is left of a console that is down. -/
def Console.hidden (console : Console) : Console :=
  if console.connected then console else ⟨0, console.context, none, false⟩

def Connection.hidden (x : Connection) : Connection :=
  if x.console.connected then x else ⟨x.console.hidden, "", "", false, []⟩

def Client.hideOffline (c : Client) : Client :=
  { c with connections := c.connections.map Connection.hidden }

section

variable {args : List Value} {bound : Bound} {i : Nat} {name : String} {required : Bool}

theorem Bound.unsigned_eq_word {s : Signature} (h : bind s args = .ok bound) {v : Value}
    (hp : s.params[i]? = some ⟨name, .unsigned, required⟩) (hv : args[i]? = some v) :
    bound.unsigned i = v.word := by
  have hunsigned := Bound.toNat_unsigned h hp hv
  have hword := v.toNat_ofNat_integer
  rw [← UInt64.toNat_inj, Value.word]
  omega

theorem Bound.text_eq_textAt {s : Signature} (h : bind s args = .ok bound)
    (hp : s.params[i]? = some ⟨name, .text, required⟩) : bound.text i = textAt args i := by
  rw [textAt]
  cases hv : args[i]? with
  | some v => exact Bound.text_eq h hp hv
  | none =>
    obtain ⟨_, slot, hslot, htakes⟩ := (bind_eq_ok h).2.1 i _ hp
    rw [hv] at htakes
    cases htakes
    rw [Bound.text, hslot]
    rfl

theorem exists_bind_of_optional {s : Signature}
    (h : ∀ p ∈ s.params, p.required = false ∧ p.kind ≠ .nonemptyText) (args : List Value) :
    ∃ bound, bind s args = .ok bound := by
  rw [exists_bind_eq_ok_iff]
  intro i p hp
  obtain ⟨hrequired, hkind⟩ := h p (List.mem_of_getElem? hp)
  rw [Param.fault?_eq_none_iff]
  simp [hrequired, hkind]

theorem exists_bind_channel {first : Value} (h : first.text ≠ "") (more : List Value) :
    ∃ bound, bind Builtin.channel.signature (first :: more) = .ok bound := by
  rw [exists_bind_eq_ok_iff]
  intro i p hp
  match i with
  | 0 =>
    cases hp
    simp [Param.fault?, Param.optional, h]
  | 1 =>
    cases hp
    rw [Param.fault?_eq_none_iff]
    simp [Param.optional]

end

section

variable {site : CallSite} {function : String} {args : List Value} {bound : Bound}

theorem away_result (h : bind Builtin.away.signature args = .ok bound) :
    (Handler.away ⟨site, function⟩ bound).result =
      .ok (site.host.awayOf ((site.contextOf args.head?).bind site.host.findConsole)) := by
  have hsupplied := isSupplied_zero h Nat.zero_lt_one
  cases args with
  | nil =>
    change _ = Except.ok (site.host.awayOf site.console)
    rw [Handler.away, if_neg (by simp [hsupplied])]
    cases site.console <;> rfl
  | cons v args =>
    rw [Handler.away, if_pos (hsupplied.mpr (List.cons_ne_nil _ _)),
      Bound.unsigned_eq_word h rfl rfl]
    rfl

theorem channel_result {first : Value} {more : List Value}
    (h : bind Builtin.channel.signature (first :: more) = .ok bound) :
    (Handler.channel ⟨site, function⟩ bound).result =
      .ok (((site.contextOf more.head?).bind site.host.findConsole).elim (.ofId none)
        (site.host.channelOf · first.text)) := by
  have hsupplied : bound.supplied = min (first :: more).length 2 := (bind_eq_ok h).2.2.1
  have htext : bound.text 0 = first.text := Bound.nonemptyText_eq h rfl rfl
  cases more with
  | nil =>
    have hmin : min [first].length 2 = 1 := rfl
    change _ = Except.ok (site.console.elim _ _)
    rw [Handler.channel, hsupplied, hmin, htext]
    dsimp only
    cases site.console <;> rfl
  | cons v more =>
    have hmin : min (first :: v :: more).length 2 = 2 := by simp
    have hword : bound.unsigned 1 = v.word := Bound.unsigned_eq_word h rfl rfl
    rw [Handler.channel, hsupplied, hmin, htext, hword, List.head?_cons, CallSite.contextOf,
      Option.bind_some]
    dsimp only
    cases site.host.findConsole v.word <;> rfl

theorem context_reply (h : bind Builtin.context.signature args = .ok bound)
    (hgiven : textAt args 0 ≠ "" ∨ textAt args 1 ≠ "") :
    Handler.context ⟨site, function⟩ bound =
      .value (.ofId ((site.host.findConsoleByIdentity (textAt args 0) (textAt args 1)).map
        (·.context))) := by
  have hserver : bound.text 0 = textAt args 0 := Bound.text_eq_textAt h rfl
  have hnick : bound.text 1 = textAt args 1 := Bound.text_eq_textAt h rfl
  have hempty : ((textAt args 0).isEmpty && (textAt args 1).isEmpty) = false := by
    rw [Bool.and_eq_false_iff]
    simpa [String.isEmpty_iff] using hgiven
  rw [Handler.context, hserver, hnick, hempty]
  rfl

end

namespace Client

theorem findConsole_foldl_apply (steps : List Step) (id : ContextId) :
    (steps.foldl Step.apply empty).findConsole id =
      ((steps.filterMap Step.connection?).find? (·.console.context == id)).map (·.console) :=
  find?_connections steps fun _ => rfl

theorem Online.unique {steps : List Step} {context : Option ContextId} {x y : Connection}
    (hx : Online steps context x) (hy : Online steps context y) : x = y := by
  obtain ⟨_, id, rfl, hx⟩ := hx
  obtain ⟨_, _, hid, hy⟩ := hy
  cases hid
  rw [hx] at hy
  exact Option.some.inj hy

/-- Either the first console of the context is up, or all that is found is down. -/
theorem online_or_offline (steps : List Step) (context : Option ContextId) :
    let found := context.bind (steps.foldl Step.apply empty).findConsole
    (∃ x, Online steps context x ∧ found = some x.console) ∨
      (∀ x, ¬ Online steps context x) ∧ ∀ console, found = some console →
        console.connected = false := by
  intro found
  by_cases hup : ∃ x, Online steps context x
  · obtain ⟨x, hx⟩ := hup
    obtain ⟨hconnected, id, rfl, hfirst⟩ := hx
    refine .inl ⟨x, ⟨hconnected, id, rfl, hfirst⟩, ?_⟩
    change findConsole _ id = _
    rw [findConsole_foldl_apply, hfirst, Option.map_some]
  · refine .inr ⟨not_exists.mp hup, ?_⟩
    intro console hconsole
    obtain ⟨id, rfl, hid⟩ := Option.bind_eq_some_iff.mp hconsole
    rw [findConsole_foldl_apply] at hid
    obtain ⟨x, hfirst, rfl⟩ := Option.map_eq_some_iff.mp hid
    rw [← Bool.not_eq_true]
    exact fun hconnected => hup ⟨x, hconnected, id, rfl, hfirst⟩

theorem awayOf_history (steps : List Step) (system : SystemClock) (context : Option ContextId) :
    let host := (steps.foldl Step.apply empty).toHost system
    let answer := host.awayOf (context.bind host.findConsole)
    (∃ x, Online steps context x ∧ answer = .ofBool (awayFlagOf steps x)) ∨
      (∀ x, ¬ Online steps context x) ∧ answer = .nothing := by
  intro host answer
  rcases online_or_offline steps context with ⟨x, hx, hfound⟩ | ⟨hnone, hdown⟩
  · refine .inl ⟨x, hx, ?_⟩
    have hanswer : answer = host.awayOf (some x.console) := congrArg host.awayOf hfound
    rw [hanswer, Host.awayOf, if_pos hx.1, awayFlagOf, ← isAway_history]
    rfl
  · refine .inr ⟨hnone, ?_⟩
    change host.awayOf (context.bind (steps.foldl Step.apply empty).findConsole) = _
    cases hfound : context.bind (steps.foldl Step.apply empty).findConsole with
    | none => rfl
    | some console => rw [Host.awayOf, if_neg (by simp [hdown console hfound])]

theorem channelOf_history (steps : List Step) (system : SystemClock) (context : Option ContextId)
    (name : String) :
    let host := (steps.foldl Step.apply empty).toHost system
    ∃ id, (context.bind host.findConsole).elim (.ofId none) (host.channelOf · name) = .ofId id ∧
      (∀ window, id = some window → ∃ x, Online steps context x ∧
        ∃ channel ∈ channelsOf steps x, lowercase channel.1 = lowercase name ∧
          channel.2 = window) ∧
      (id = none → ∀ x, Online steps context x →
        ∀ channel ∈ channelsOf steps x, lowercase channel.1 ≠ lowercase name) := by
  intro host
  rcases online_or_offline steps context with ⟨x, hx, hfound⟩ | ⟨hnone, hdown⟩
  · have hanswer : (context.bind host.findConsole).elim (.ofId none) (host.channelOf · name) =
        host.channelOf x.console name := congrArg (Option.elim · _ _) hfound
    have hchannel := findChannel_history steps x.console.context name
    rw [← channelsOf] at hchannel
    rw [hanswer, Host.channelOf, if_pos hx.1]
    refine ⟨_, congrArg Value.ofId hchannel, ?_, ?_⟩
    · intro window hwindow
      obtain ⟨channel, hfirst, rfl⟩ := Option.map_eq_some_iff.mp hwindow
      have hsame := List.find?_some hfirst
      exact ⟨x, hx, channel, List.mem_of_find?_eq_some hfirst, beq_iff_eq.mp hsame, rfl⟩
    · intro hwindow y hy channel hmem hsame
      rw [← hx.unique hy] at hmem
      exact List.find?_eq_none.mp (Option.map_eq_none_iff.mp hwindow) channel hmem
        (beq_iff_eq.mpr hsame)
  · refine ⟨none, ?_, by simp, fun _ x hx => absurd hx (hnone x)⟩
    change Option.elim (context.bind (steps.foldl Step.apply empty).findConsole) _ _ = _
    cases hfound : context.bind (steps.foldl Step.apply empty).findConsole with
    | none => rfl
    | some console => rw [Option.elim_some, Host.channelOf, if_neg (by simp [hdown console hfound])]

theorem findConsoleByIdentity_history (steps : List Step) (server nick : String) :
    (steps.foldl Step.apply empty).findConsoleByIdentity server nick =
      ((steps.filterMap Step.connection?).find? (·.answersTo server nick)).map (·.console) :=
  find?_connections steps fun _ => rfl

theorem firstConnectedConsole_history (steps : List Step) :
    (steps.foldl Step.apply empty).firstConnectedConsole =
      ((steps.filterMap Step.connection?).find? (·.console.connected)).map (·.console) :=
  find?_connections steps fun _ => rfl

end Client

theorem Console.context_hidden (console : Console) : console.hidden.context = console.context := by
  unfold hidden
  split <;> rfl

theorem Console.connected_hidden (console : Console) :
    console.hidden.connected = console.connected := by
  unfold hidden
  split
  · rfl
  · simp_all

theorem Connection.console_hidden (x : Connection) : x.hidden.console = x.console.hidden := by
  unfold hidden Console.hidden
  split <;> rfl

theorem Connection.hidden_of_connected {x : Connection} (h : x.console.connected = true) :
    x.hidden = x :=
  if_pos h

namespace Client

theorem find?_hideOffline {p : Connection → Bool}
    (hp : ∀ x, p x = true → x.console.connected = true) (c : Client) :
    c.hideOffline.connections.find? p = c.connections.find? p := by
  have hsame : p ∘ Connection.hidden = p := by
    funext x
    rw [Function.comp_apply]
    by_cases hx : x.console.connected = true
    · rw [Connection.hidden_of_connected hx]
    · have hdown : x.hidden.console.connected ≠ true := by
        rwa [Connection.console_hidden, Console.connected_hidden]
      rw [Bool.eq_false_iff.mpr (mt (hp x) hx), Bool.eq_false_iff.mpr (mt (hp x.hidden) hdown)]
  rw [hideOffline, List.find?_map, hsame]
  cases hfound : c.connections.find? p with
  | none => rfl
  | some x => rw [Option.map_some, Connection.hidden_of_connected (hp x (List.find?_some hfound))]

theorem connection?_hideOffline (c : Client) (context : ContextId) :
    c.hideOffline.connection? context = (c.connection? context).map Connection.hidden := by
  rw [connection?, connection?, hideOffline, List.find?_map]
  congr 2
  funext x
  rw [Function.comp_apply, Connection.console_hidden, Console.context_hidden]

theorem findConsole_hideOffline (c : Client) (context : ContextId) :
    c.hideOffline.findConsole context = (c.findConsole context).map Console.hidden := by
  rw [findConsole, connection?_hideOffline, findConsole, Option.map_map, Option.map_map]
  congr 1
  funext x
  exact x.console_hidden

theorem findConsoleByIdentity_hideOffline (c : Client) (server nick : String) :
    c.hideOffline.findConsoleByIdentity server nick = c.findConsoleByIdentity server nick := by
  rw [findConsoleByIdentity, find?_hideOffline, findConsoleByIdentity]
  intro x hx
  exact ((answersTo_iff x server nick).mp hx).1

theorem firstConnectedConsole_hideOffline (c : Client) :
    c.hideOffline.firstConnectedConsole = c.firstConnectedConsole := by
  rw [firstConnectedConsole, find?_hideOffline, firstConnectedConsole]
  exact fun x hx => hx

section

variable {c : Client} {context : ContextId} {console : Console}

theorem connection?_of_connected (h : c.findConsole context = some console)
    (hconnected : console.connected = true) :
    c.hideOffline.connection? console.context = c.connection? console.context := by
  obtain ⟨x, hx, rfl⟩ := Option.map_eq_some_iff.mp (findConsole_context h)
  rw [connection?_hideOffline, hx, Option.map_some, Connection.hidden_of_connected hconnected]

theorem awayOf_hidden (h : c.findConsole context = some console) (system : SystemClock) :
    (c.hideOffline.toHost system).awayOf (some console.hidden) =
      (c.toHost system).awayOf (some console) := by
  rw [Host.awayOf, Host.awayOf, Console.connected_hidden, Console.context_hidden]
  split_ifs with hconnected
  · have hsame := connection?_of_connected h hconnected
    change Value.ofBool (c.hideOffline.isAway _) = .ofBool (c.isAway _)
    rw [isAway, hsame, isAway]
  · rfl

theorem channelOf_hidden (h : c.findConsole context = some console) (system : SystemClock)
    (name : String) :
    (c.hideOffline.toHost system).channelOf console.hidden name =
      (c.toHost system).channelOf console name := by
  rw [Host.channelOf, Host.channelOf, Console.connected_hidden, Console.context_hidden]
  split_ifs with hconnected
  · have hsame := connection?_of_connected h hconnected
    change Value.ofId (c.hideOffline.findChannel _ _) = .ofId (c.findChannel _ _)
    rw [findChannel, hsame, findChannel]
  · rfl

end

end Client

section

variable (c : Client) (system : SystemClock) (window : Option WindowId) (function : String)
  (args : Bound)

theorem console_hideOffline :
    CallSite.console ⟨c.hideOffline.toHost system, window⟩ =
      (CallSite.console ⟨c.toHost system, window⟩).map Console.hidden := by
  rw [CallSite.console, CallSite.console, Option.map_bind]
  congr 1
  funext context
  exact c.findConsole_hideOffline context

theorem away_hideOffline :
    Handler.away ⟨⟨c.hideOffline.toHost system, window⟩, function⟩ args =
      Handler.away ⟨⟨c.toHost system, window⟩, function⟩ args := by
  unfold Handler.away
  split_ifs
  · change Reply.value (Host.awayOf _ (c.hideOffline.findConsole _)) =
      .value (Host.awayOf _ (c.findConsole _))
    rw [c.findConsole_hideOffline]
    cases h : c.findConsole (args.unsigned 0) with
    | none => rfl
    | some console => rw [Option.map_some, Client.awayOf_hidden h]
  · rw [console_hideOffline]
    cases h : CallSite.console ⟨c.toHost system, window⟩ with
    | none => rfl
    | some console =>
      obtain ⟨context, _, hconsole⟩ := Option.bind_eq_some_iff.mp h
      exact congrArg Reply.value (Client.awayOf_hidden hconsole system)

theorem channel_hideOffline :
    Handler.channel ⟨⟨c.hideOffline.toHost system, window⟩, function⟩ args =
      Handler.channel ⟨⟨c.toHost system, window⟩, function⟩ args := by
  unfold Handler.channel
  split
  · rfl
  · rw [console_hideOffline]
    cases h : CallSite.console ⟨c.toHost system, window⟩ with
    | none => rfl
    | some console =>
      obtain ⟨context, _, hconsole⟩ := Option.bind_eq_some_iff.mp h
      exact congrArg Reply.value (Client.channelOf_hidden hconsole system _)
  · have hfound : (c.hideOffline.toHost system).findConsole (args.unsigned 1) =
        (c.findConsole (args.unsigned 1)).map Console.hidden :=
      c.findConsole_hideOffline _
    have hfound' : (c.toHost system).findConsole = c.findConsole := rfl
    rw [hfound, hfound']
    cases h : c.findConsole (args.unsigned 1) with
    | none => rfl
    | some console => exact congrArg Reply.value (Client.channelOf_hidden h system _)

theorem context_hideOffline :
    Handler.context ⟨⟨c.hideOffline.toHost system, window⟩, function⟩ args =
      Handler.context ⟨⟨c.toHost system, window⟩, function⟩ args := by
  have hmap : ∀ console : Option Console,
      (console.map Console.hidden).map (·.context) = console.map (·.context) := by
    intro console
    rw [Option.map_map]
    congr 1
    funext console
    exact console.context_hidden
  unfold Handler.context
  dsimp only
  split_ifs
  · rw [console_hideOffline, hmap]
  · have hidentity : (c.hideOffline.toHost system).findConsoleByIdentity =
        (c.toHost system).findConsoleByIdentity :=
      funext₂ c.findConsoleByIdentity_hideOffline
    rw [hidentity]

/-- The look-ups by an id apart, a function replies the same without what is out of sight. -/
theorem handler_hideOffline (b : Builtin) (hconsole : b ≠ .console)
    (hactive : b = .active → args.isSupplied 0 = false) :
    b.handler ⟨⟨c.hideOffline.toHost system, window⟩, function⟩ args =
      b.handler ⟨⟨c.toHost system, window⟩, function⟩ args := by
  cases b with
  | console => exact absurd rfl hconsole
  | active =>
    simp only [Builtin.handler, Handler.active, hactive rfl]
    rfl
  | away => exact away_hideOffline c system window function args
  | channel => exact channel_hideOffline c system window function args
  | context => exact context_hideOffline c system window function args
  | firstConnectedConsole =>
    simp only [Builtin.handler, Handler.firstConnectedConsole, Client.toHost,
      c.firstConnectedConsole_hideOffline]
  | base64ToAscii =>
    rw [Builtin.handler]
    exact base64ToAscii_congr_site function args _ _
  | date =>
    rw [Builtin.handler]
    simp only [Handler.date, Handler.dateAt]
    rfl
  | _ => rfl

end

section

variable (steps : List Client.Step) (system : SystemClock) (window : Option WindowId)
  (function : String) (args : List Value)

theorem call_context_given (hgiven : textAt args 0 ≠ "" ∨ textAt args 1 ≠ "") :
    let registered := steps.filterMap Client.Step.connection?
    let answers := fun x : Connection => x.answersTo (textAt args 0) (textAt args 1) = true
    ∃ id, (Entry.call ⟨function, Builtin.context.signature, Builtin.context.handler⟩
        ⟨(steps.foldl Client.Step.apply .empty).toHost system, window⟩ args).result =
          .ok ⟨.ofId id, none⟩ ∧
      (∀ context, id = some context → ∃ x ∈ registered, answers x ∧ x.console.context = context) ∧
      (id = none → ∀ x ∈ registered, ¬ answers x) := by
  intro registered answers
  obtain ⟨bound, hbound⟩ := exists_bind_of_optional (s := Builtin.context.signature)
    (by decide) args
  have hidentity := Client.findConsoleByIdentity_history steps (textAt args 0) (textAt args 1)
  refine ⟨_, Entry.call_of_value hbound (context_reply hbound hgiven), ?_⟩
  change (∀ context, (Client.findConsoleByIdentity _ _ _).map _ = _ → _) ∧
    ((Client.findConsoleByIdentity _ _ _).map _ = _ → _)
  rw [hidentity, Option.map_map]
  constructor
  · intro context hfound
    obtain ⟨x, hx, rfl⟩ := Option.map_eq_some_iff.mp hfound
    have hanswers := List.find?_some hx
    exact ⟨x, List.mem_of_find?_eq_some hx, hanswers, rfl⟩
  · intro hnone
    exact List.find?_eq_none.mp (Option.map_eq_none_iff.mp hnone)

theorem call_firstConnectedConsole :
    (Entry.call ⟨function, Builtin.firstConnectedConsole.signature,
        Builtin.firstConnectedConsole.handler⟩
        ⟨(steps.foldl Client.Step.apply .empty).toHost system, window⟩ args).result =
      .ok ⟨.ofId (((steps.filterMap Client.Step.connection?).find? (·.console.connected)).map
        (·.console.window)), none⟩ := by
  obtain ⟨bound, hbound⟩ := exists_bind_of_optional (s := Builtin.firstConnectedConsole.signature)
    (by decide) args
  refine Entry.call_of_value hbound ?_
  change Reply.value (.ofId ((Client.firstConnectedConsole _).map _)) = _
  rw [Client.firstConnectedConsole_history, Option.map_map]
  rfl

theorem exists_call_away (site : CallSite) :
    ∃ outcome, (Entry.call ⟨function, Builtin.away.signature, Builtin.away.handler⟩ site
        args).result = .ok outcome ∧
      outcome.value =
        site.host.awayOf ((site.contextOf args.head?).bind site.host.findConsole) := by
  obtain ⟨bound, hbound⟩ := exists_bind_of_optional (s := Builtin.away.signature) (by decide) args
  exact ⟨_, Entry.call_of_reply hbound (away_result hbound), rfl⟩

theorem exists_call_channel (site : CallSite) {first : Value} (h : first.text ≠ "")
    (more : List Value) :
    ∃ outcome, (Entry.call ⟨function, Builtin.channel.signature, Builtin.channel.handler⟩ site
        (first :: more)).result = .ok outcome ∧
      outcome.value = ((site.contextOf more.head?).bind site.host.findConsole).elim (.ofId none)
        (site.host.channelOf · first.text) := by
  obtain ⟨bound, hbound⟩ := exists_bind_channel h more
  exact ⟨_, Entry.call_of_reply hbound (channel_result hbound), rfl⟩

theorem call_hideOffline {builtins : Bool} {disabled : List String} {name : String}
    (c : Client) (hconsole : Builtin.console.goesBy name = false)
    (hactive : Builtin.active.goesBy name = true → args = []) :
    (Registry.initial builtins disabled).call ⟨c.hideOffline.toHost system, window⟩ name args =
      (Registry.initial builtins disabled).call ⟨c.toHost system, window⟩ name args := by
  refine Registry.call_initial_congr_site ?_
  intro b hname function bound hbound
  refine handler_hideOffline c system window function bound b ?_ ?_
  · rintro rfl
    simp [hname] at hconsole
  · rintro rfl
    have hsupplied := isSupplied_zero hbound Nat.zero_lt_one
    simpa [hactive hname] using hsupplied

end

/-- What is found by a server, a nick or a channel, and whose away flag is told, is up; and for all
calls but `console` and `active` with an id, only the context is left of what is down. -/
theorem call_hides_offline (builtins : Bool) (disabled : List String) (steps : List Client.Step)
    (system : SystemClock) (window : Option WindowId) :
    let client := steps.foldl Client.Step.apply .empty
    let site : CallSite := ⟨client.toHost system, window⟩
    let r := Registry.initial builtins disabled
    let registered := steps.filterMap Client.Step.connection?
    (∀ name args, Builtin.context.goesBy name = true → r.lookup name ≠ none →
      textAt args 0 ≠ "" ∨ textAt args 1 ≠ "" →
      let answers := fun x : Connection => x.console.connected = true ∧
        (textAt args 0 = "" ∨ lowercase x.server = lowercase (textAt args 0)) ∧
        (textAt args 1 = "" ∨ lowercase x.nick = lowercase (textAt args 1))
      ∃ id, (r.call site name args).result = .ok ⟨.ofId id, none⟩ ∧
        (∀ context, id = some context →
          ∃ x ∈ registered, answers x ∧ x.console.context = context) ∧
        (id = none → ∀ x ∈ registered, ¬ answers x)) ∧
    (∀ name first more, Builtin.channel.goesBy name = true → r.lookup name ≠ none →
      let result := (r.call site name (first :: more)).result
      (first.text = "" →
        result = .error (.binding "channel" (.emptyStringNotAllowed "channel_name"))) ∧
      (first.text ≠ "" → ∃ outcome id, result = .ok outcome ∧ outcome.value = .ofId id ∧
        (∀ found, id = some found → ∃ x, Client.Online steps (site.contextOf more.head?) x ∧
          ∃ channel ∈ Client.channelsOf steps x, lowercase channel.1 = lowercase first.text ∧
            channel.2 = found) ∧
        (id = none → ∀ x, Client.Online steps (site.contextOf more.head?) x →
          ∀ channel ∈ Client.channelsOf steps x, lowercase channel.1 ≠ lowercase first.text))) ∧
    (∀ name args, Builtin.away.goesBy name = true → r.lookup name ≠ none →
      ∃ outcome, (r.call site name args).result = .ok outcome ∧
        ((∃ x, Client.Online steps (site.contextOf args.head?) x ∧
            outcome.value = .ofBool (Client.awayFlagOf steps x)) ∨
          (∀ x, ¬ Client.Online steps (site.contextOf args.head?) x) ∧
            outcome.value = .nothing)) ∧
    (∀ name args, Builtin.firstConnectedConsole.goesBy name = true → r.lookup name ≠ none →
      (r.call site name args).result =
        .ok ⟨.ofId ((registered.find? (·.console.connected)).map (·.console.window)), none⟩) ∧
    ∀ name args, Builtin.console.goesBy name = false →
      (Builtin.active.goesBy name = true → args = []) →
      r.call site name args = r.call ⟨client.hideOffline.toHost system, window⟩ name args := by
  intro client site r registered
  have hentry : ∀ {b : Builtin} {name : String}, b.goesBy name = true → r.lookup name ≠ none →
      ∃ known ∈ b.name :: b.aliases, ∀ args, (r.call site name args).result =
        (Entry.call ⟨known, b.signature, b.handler⟩ site args).result := by
    intro b name hname hknown
    obtain ⟨known, hmem, hcall⟩ := Registry.exists_call_of_goesBy hname hknown
    exact ⟨known, hmem, fun args => congrArg CallRecord.result (hcall site args)⟩
  refine ⟨?_, ?_, ?_, ?_, ?_⟩
  · intro name args hname hknown hgiven answers
    obtain ⟨known, _, hcall⟩ := hentry hname hknown
    have hcontext := call_context_given steps system window known args hgiven
    simp only [Client.answersTo_iff] at hcontext
    rw [hcall]
    exact hcontext
  · intro name first more hname hknown result
    obtain ⟨known, hmem, hcall⟩ := hentry hname hknown
    have hchannel : known = "channel" := by simpa [Builtin.name, Builtin.aliases] using hmem
    subst hchannel
    constructor
    · intro hempty
      exact (hcall _).trans (Entry.call_of_bind_error (bind_channel_of_empty hempty more) site)
    · intro htext
      obtain ⟨outcome, houtcome, hvalue⟩ := exists_call_channel "channel" site htext more
      obtain ⟨id, hid, hfound⟩ :=
        Client.channelOf_history steps system (site.contextOf more.head?) first.text
      exact ⟨outcome, id, (hcall _).trans houtcome, hvalue.trans hid, hfound⟩
  · intro name args hname hknown
    obtain ⟨known, _, hcall⟩ := hentry hname hknown
    obtain ⟨outcome, houtcome, hvalue⟩ := exists_call_away known args site
    refine ⟨outcome, (hcall args).trans houtcome, ?_⟩
    rw [hvalue]
    exact Client.awayOf_history steps system (site.contextOf args.head?)
  · intro name args hname hknown
    obtain ⟨known, _, hcall⟩ := hentry hname hknown
    exact (hcall args).trans (call_firstConnectedConsole steps system window known args)
  · intro name args hconsole hactive
    exact (call_hideOffline system window args client hconsole hactive).symm

end ScriptBuiltins
