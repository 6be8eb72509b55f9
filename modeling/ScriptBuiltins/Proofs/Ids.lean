import ScriptBuiltins.Proofs.Binding
import ScriptBuiltins.Proofs.Call
import ScriptBuiltins.Proofs.Integer.Numeral

set_option autoImplicit false

namespace ScriptBuiltins

namespace Value

def word (v : Value) : UInt64 := UInt64.ofNat v.integer.toNat

theorem toNat_word_ofId (id : UInt64) :
    (ofId (some id)).word.toNat = min id.toNat (1 <<< 63 - 1) := by
  have hinteger : (ofId (some id)).integer = min (id.toNat : Int) (1 <<< 63 - 1) :=
    Integer.ofText_toString id.toNat
  have hword := toNat_ofNat_integer (ofId (some id))
  rw [hinteger] at hword
  rw [word, hinteger]
  omega

theorem word_ofId_iff (id : UInt64) :
    (ofId (some id)).word = id ↔ id.toNat ≤ 1 <<< 63 - 1 := by
  rw [← UInt64.toNat_inj, toNat_word_ofId]
  omega

end Value

theorem Param.coerce_ofId {p : Param} (hp : p.kind = .unsigned) (id : UInt64) :
    p.coerce (.ofId (some id)) = .ok (.unsigned (Value.ofId (some id)).word) := by
  rw [coerce, hp]
  rfl

theorem Client.findConsole_context {c : Client} {context : ContextId} {console : Console}
    (h : c.findConsole context = some console) : c.findConsole console.context = some console := by
  obtain ⟨connection, hconnection, rfl⟩ := Option.map_eq_some_iff.mp h
  have hcontext : connection.console.context = context := by
    simpa using List.find?_some hconnection
  rw [hcontext, h]

theorem CallSite.findConsole_of_console {client : Client} {system : SystemClock}
    {window : Option WindowId} {console : Console}
    (h : CallSite.console ⟨client.toHost system, window⟩ = some console) :
    client.findConsole console.context = some console := by
  obtain ⟨context, _, hconsole⟩ := Option.bind_eq_some_iff.mp h
  exact Client.findConsole_context hconsole

section

variable {site : CallSite} {console : Console} (function : String) (v : Value)

theorem call_context (h : site.console = some console) :
    (Entry.call ⟨function, Builtin.context.signature, Builtin.context.handler⟩ site []).result =
      .ok ⟨.ofId (some console.context), none⟩ := by
  refine Entry.call_of_value rfl ?_
  change Reply.value (.ofId (site.console.map (·.context))) = _
  rw [h, Option.map_some]

theorem call_console_nil (h : site.console = some console) :
    (Entry.call ⟨function, Builtin.console.signature, Builtin.console.handler⟩ site []).result =
      .ok ⟨.ofId (some console.window), none⟩ := by
  refine Entry.call_of_value rfl ?_
  simp only [Builtin.handler, Handler.console, Bound.isSupplied, h]
  rfl

theorem call_away_nil (h : site.console = some console) :
    (Entry.call ⟨function, Builtin.away.signature, Builtin.away.handler⟩ site []).result =
      .ok ⟨site.host.awayOf (some console), none⟩ := by
  refine Entry.call_of_value rfl ?_
  simp only [Builtin.handler, Handler.away, Bound.isSupplied, h]
  rfl

theorem call_console (site : CallSite) :
    (Entry.call ⟨function, Builtin.console.signature, Builtin.console.handler⟩ site [v]).result =
      .ok ⟨.ofId ((site.host.findConsole v.word).map (·.window)), none⟩ :=
  Entry.call_of_value rfl rfl

theorem call_active (site : CallSite) :
    (Entry.call ⟨function, Builtin.active.signature, Builtin.active.handler⟩ site [v]).result =
      .ok ⟨.ofId ((site.host.findConsole v.word).bind (·.activeWindow)), none⟩ :=
  Entry.call_of_value rfl rfl

theorem call_away (site : CallSite) :
    (Entry.call ⟨function, Builtin.away.signature, Builtin.away.handler⟩ site [v]).result =
      .ok ⟨site.host.awayOf (site.host.findConsole v.word), none⟩ :=
  Entry.call_of_value rfl rfl

theorem bind_channel_of_empty {name : Value} (h : name.text = "") (more : List Value) :
    bind Builtin.channel.signature (name :: more) =
      .error (.emptyStringNotAllowed "channel_name") := by
  rw [bind_eq_error_iff]
  exact ⟨0, _, rfl, by simp [Param.fault?, Param.optional, h], by simp⟩

/-- A channel is looked for by its name, and an empty name is refused, with or without an id. -/
theorem call_channel (hconsole : site.console = some console)
    (h : site.host.findConsole v.word = some console) (name : Value) :
    let entry : Entry := ⟨function, Builtin.channel.signature, Builtin.channel.handler⟩
    (entry.call site [name, v]).result = (entry.call site [name]).result := by
  intro entry
  by_cases hname : name.text = ""
  · rw [Entry.call_of_bind_error (bind_channel_of_empty hname [v]),
      Entry.call_of_bind_error (bind_channel_of_empty hname [])]
  · have hcoerce : Param.coerce (.optional "channel_name" .nonemptyText) name =
        .ok (.text name.text) := Param.coerce_eq_ok_iff.mpr ⟨rfl, fun _ => hname⟩
    have hone : bind entry.signature [name] = .ok ⟨[.text name.text, .unsigned 0], 1, []⟩ := by
      simp only [entry, bind, Builtin.signature, Signature.fixed, bindSlots, hcoerce]
      rfl
    have htwo : bind entry.signature [name, v] =
        .ok ⟨[.text name.text, .unsigned v.word], 2, []⟩ := by
      simp only [entry, bind, Builtin.signature, Signature.fixed, bindSlots, hcoerce]
      rfl
    have hreply : entry.handler ⟨site, function⟩ ⟨[.text name.text, .unsigned 0], 1, []⟩ =
        .value (site.host.channelOf console name.text) := by
      simp only [entry, Builtin.handler, Handler.channel, hconsole]
      rfl
    have hreply' : entry.handler ⟨site, function⟩ ⟨[.text name.text, .unsigned v.word], 2, []⟩ =
        .value (site.host.channelOf console name.text) := by
      have harg : Bound.unsigned ⟨[.text name.text, .unsigned v.word], 2, []⟩ 1 = v.word := rfl
      simp only [entry, Builtin.handler, Handler.channel, harg, h]
      rfl
    rw [Entry.call_of_value hone hreply, Entry.call_of_value htwo hreply']

end

/-- An id comes back through the integer view, so one above the greatest integer comes back as that
integer, and every other id as it is. -/
theorem call_with_context_id {disabled : List String}
    (henabled : ∀ name ∈ ["context", "console", "active", "away", "channel"],
      Text.anyIgnoringCase disabled name = false)
    (client : Client) (system : SystemClock) (window : Option WindowId) {console : Console}
    (hconsole : CallSite.console ⟨client.toHost system, window⟩ = some console)
    (hid : console.context.toNat ≤ 1 <<< 63 - 1) :
    let site : CallSite := ⟨client.toHost system, window⟩
    let call := fun name args => ((Registry.initial true disabled).call site name args).result
    (∃ v, call "context" [] = .ok ⟨v, none⟩ ∧
      call "console" [v] = call "console" [] ∧
      call "console" [] = .ok ⟨.ofId (some console.window), none⟩ ∧
      call "active" [v] = .ok ⟨.ofId console.activeWindow, none⟩ ∧
      call "away" [v] = call "away" [] ∧
      ∀ name, call "channel" [name, v] = call "channel" [name]) ∧
    ∀ (p : Param) (id : UInt64), p.kind = .unsigned →
      ∃ n : UInt64, p.coerce (.ofId (some id)) = .ok (.unsigned n) ∧
        n.toNat = min id.toNat (1 <<< 63 - 1) := by
  intro site call
  have hfound := CallSite.findConsole_of_console hconsole
  have hword : site.host.findConsole (Value.ofId (some console.context)).word = some console := by
    rw [(Value.word_ofId_iff console.context).mpr hid]
    exact hfound
  have hentry : ∀ (b : Builtin) (name : String), b.goesBy name = true →
      Text.anyIgnoringCase disabled name = false →
      ∃ function, ∀ args, call name args =
        (Entry.call ⟨function, b.signature, b.handler⟩ site args).result := by
    intro b name hname hb
    obtain ⟨function, _, hcall⟩ := Registry.exists_call_initial hname hb
    exact ⟨function, fun args => congrArg CallRecord.result (hcall site args)⟩
  obtain ⟨_, hcontext⟩ := hentry .context _ (by decide) (henabled "context" (by simp))
  obtain ⟨_, hcall⟩ := hentry .console _ (by decide) (henabled "console" (by simp))
  obtain ⟨_, hactive⟩ := hentry .active _ (by decide) (henabled "active" (by simp))
  obtain ⟨_, haway⟩ := hentry .away _ (by decide) (henabled "away" (by simp))
  obtain ⟨_, hchannel⟩ := hentry .channel _ (by decide) (henabled "channel" (by simp))
  refine ⟨⟨.ofId (some console.context), ?_, ?_, ?_, ?_, ?_, ?_⟩, ?_⟩
  · rw [hcontext, call_context _ hconsole]
  · rw [hcall, hcall, call_console, hword, call_console_nil _ hconsole, Option.map_some]
  · rw [hcall, call_console_nil _ hconsole]
  · rw [hactive, call_active, hword, Option.bind_some]
  · rw [haway, haway, call_away, hword, call_away_nil _ hconsole]
  · intro name
    rw [hchannel, hchannel]
    exact call_channel _ _ hconsole hword name
  · intro p id hp
    exact ⟨_, Param.coerce_ofId hp id, Value.toNat_word_ofId id⟩

/-- The greatest id that comes back. -/
theorem call_with_greatest_context_id :
    let console : Console := ⟨5, 0x7fffffffffffffff, none, true⟩
    let site : CallSite :=
      ⟨(Client.empty.addConsole console "" "").toHost ⟨.epoch, fun _ => none⟩, some 5⟩
    let call := fun name args => ((Registry.initial true []).call site name args).result
    site.console = some console ∧ console.context.toNat ≤ 1 <<< 63 - 1 ∧
    ∃ v, call "context" [] = .ok ⟨v, none⟩ ∧ call "console" [v] = .ok ⟨.scalar "5", none⟩ := by
  intro console site call
  have hconsole : site.console = some console := rfl
  have hid : console.context.toNat ≤ 1 <<< 63 - 1 := by decide
  have henabled : ∀ name ∈ ["context", "console", "active", "away", "channel"],
      Text.anyIgnoringCase [] name = false := fun _ _ => rfl
  obtain ⟨⟨v, hv, hback, hwindow, _⟩, _⟩ := call_with_context_id henabled
    (Client.empty.addConsole console "" "") ⟨.epoch, fun _ => none⟩ (some 5) hconsole hid
  have hfive : Value.ofId (some 5) = .scalar "5" := congrArg Value.scalar (by decide)
  exact ⟨hconsole, hid, v, hv, hfive ▸ hback.trans hwindow⟩

/-- One above it, the id that is handed out is not the one that comes back. -/
theorem great_context_id_is_lost :
    let console : Console := ⟨5, 0x8000000000000000, none, true⟩
    let site : CallSite :=
      ⟨(Client.empty.addConsole console "" "").toHost ⟨.epoch, fun _ => none⟩, some 5⟩
    let call := fun name args => ((Registry.initial true []).call site name args).result
    call "context" [] = .ok ⟨.scalar "9223372036854775808", none⟩ ∧
    call "console" [] = .ok ⟨.scalar "5", none⟩ ∧
    call "console" [.scalar "9223372036854775808"] = .ok ⟨.scalar "0", none⟩ := by
  intro console site call
  have hconsole : site.console = some console := rfl
  have hid : Value.ofId (some console.context) = .scalar "9223372036854775808" :=
    congrArg Value.scalar (by decide)
  have hfive : Value.ofId (some console.window) = .scalar "5" := congrArg Value.scalar (by decide)
  have hzero : Value.ofId none = .scalar "0" := congrArg Value.scalar (by decide)
  have hword : (Value.ofId (some console.context)).word = 0x7fffffffffffffff :=
    UInt64.toNat_inj.mp (Value.toNat_word_ofId console.context)
  have hcontext : Builtin.context.goesBy "context" = true := by decide
  have hname : Builtin.console.goesBy "console" = true := by decide
  obtain ⟨_, _, hfirst⟩ := Registry.exists_call_initial hcontext List.any_nil
  obtain ⟨_, _, hcall⟩ := Registry.exists_call_initial hname List.any_nil
  rw [← hid, ← hfive, ← hzero]
  refine ⟨?_, ?_, ?_⟩
  · change (Registry.call _ site "context" []).result = _
    rw [hfirst, call_context _ hconsole]
  · change (Registry.call _ site "console" []).result = _
    rw [hcall, call_console_nil _ hconsole]
  · change (Registry.call _ site "console" [_]).result = _
    rw [hcall, call_console, hword]
    rfl

end ScriptBuiltins
