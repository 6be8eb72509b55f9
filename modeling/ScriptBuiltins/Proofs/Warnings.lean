import ScriptBuiltins.Proofs.Binding
import ScriptBuiltins.Proofs.Call
import ScriptBuiltins.Proofs.Registry

set_option autoImplicit false

namespace ScriptBuiltins

def CallSite.seconds (site : CallSite) (args : List Value) : Int :=
  match args[1]? with
  | some v => v.integer
  | none => site.host.now.seconds

/-- The offset counts as 0 if it cannot be told. -/
def Host.offsetSeconds (host : Host) (time : Timestamp) : Int :=
  match host.utcOffset time with
  | some offset => offset.seconds
  | none => 0

def Host.NoDate (host : Host) (seconds : Int) : Prop :=
  ¬ InYears seconds ∨
    ∃ h : InYears seconds, ¬ InYears (seconds + host.offsetSeconds ⟨seconds, h⟩)

def Builtin.Warns (site : CallSite) (args : List Value) : Builtin → Prop
  | away | console => args = [] ∧ site.console = none
  | channel =>
    (args.length = 1 ∧ site.console = none) ∨
      ∃ name v more, args = name :: v :: more ∧
        ∃ id : ContextId, (id.toNat : Int) = max 0 v.integer ∧ site.host.findConsole id = none
  | base64ToAscii => ∃ v more e, args = v :: more ∧ Text.Base64.toText v.text = .error e
  | date => site.host.NoDate (site.seconds args)
  | _ => False

/-- The value beside a warning. -/
def Builtin.emptyResult : Builtin → Value
  | channel | console => .scalar "0"
  | base64ToAscii => .scalar ""
  | _ => .nothing

/-- The reply has a value. It has a warning in the case `warned` and in no other, and its value is
then `empty`. -/
def Reply.Answers (reply : Reply) (warned : Prop) (empty : Value) : Prop :=
  ∃ v, reply.result = .ok v ∧ (reply.warnings.head?.isSome = true ↔ warned) ∧ (warned → v = empty)

namespace Reply

theorem answers_value {warned : Prop} (h : ¬ warned) (v empty : Value) :
    (value v).Answers warned empty :=
  ⟨v, rfl, iff_of_false (by simp [value, warnings]) h, fun hw => absurd hw h⟩

theorem answers_warn {warned : Prop} (h : warned) (message : String) (empty : Value) :
    (warn message empty).Answers warned empty :=
  ⟨empty, rfl, iff_of_true (by simp [warn, warnings]) h, fun _ => rfl⟩

theorem Answers.congr {reply : Reply} {warned warned' : Prop} {empty : Value}
    (h : reply.Answers warned empty) (hw : warned ↔ warned') : reply.Answers warned' empty := by
  rwa [← propext hw]

/-- A remark is no warning. -/
theorem Answers.remark {reply : Reply} {warned : Prop} {empty : Value}
    (h : reply.Answers warned empty) (message : String) :
    Answers { reply with notes := .remark message :: reply.notes } warned empty := by
  obtain ⟨v, hv, hwarned, hempty⟩ := h
  exact ⟨v, hv, hwarned, hempty⟩

end Reply

theorem Value.ofId_none : Value.ofId none = .scalar "0" :=
  congrArg scalar (by decide)

section

variable {site : CallSite} {function : String} {args : List Value} {bound : Bound}

theorem isSupplied_zero {s : Signature} (h : bind s args = .ok bound) (hs : 0 < s.params.length) :
    bound.isSupplied 0 = true ↔ args ≠ [] := by
  rw [Bound.isSupplied_iff h hs, List.length_pos_iff]

theorem away_answers (h : bind Builtin.away.signature args = .ok bound) :
    (Handler.away ⟨site, function⟩ bound).Answers (args = [] ∧ site.console = none) .nothing := by
  have hsupplied := isSupplied_zero h Nat.zero_lt_one
  rw [Handler.away]
  split_ifs with hzero
  · exact Reply.answers_value (fun hw => hsupplied.mp hzero hw.1) _ _
  · have hargs : args = [] := by simpa [hzero] using hsupplied
    cases hconsole : site.console with
    | some console => exact Reply.answers_value (by simp) _ _
    | none => exact Reply.answers_warn ⟨hargs, rfl⟩ _ _

theorem console_answers (h : bind Builtin.console.signature args = .ok bound) :
    (Handler.console ⟨site, function⟩ bound).Answers (args = [] ∧ site.console = none)
      (.scalar "0") := by
  have hsupplied := isSupplied_zero h Nat.zero_lt_one
  rw [Handler.console]
  split_ifs with hzero
  · exact Reply.answers_value (fun hw => hsupplied.mp hzero hw.1) _ _
  · have hargs : args = [] := by simpa [hzero] using hsupplied
    cases hconsole : site.console with
    | some console => exact Reply.answers_value (by simp) _ _
    | none =>
      rw [Value.ofId_none]
      exact Reply.answers_warn ⟨hargs, rfl⟩ _ _

theorem channel_answers (h : bind Builtin.channel.signature args = .ok bound) :
    (Handler.channel ⟨site, function⟩ bound).Answers (Builtin.channel.Warns site args)
      (.scalar "0") := by
  have hsupplied : bound.supplied = min args.length 2 := (bind_eq_ok h).2.2.1
  -- The function tells none, one and more arguments apart; any behind the second do not count.
  match args with
  | [] =>
    rw [Handler.channel, hsupplied]
    exact Reply.answers_value (by simp [Builtin.Warns]) _ _
  | [name] =>
    have hmin : min [name].length 2 = 1 := rfl
    rw [Handler.channel, hsupplied, hmin]
    dsimp only
    cases hconsole : site.console with
    | some console => exact Reply.answers_value (by simp [Builtin.Warns, hconsole]) _ _
    | none =>
      rw [Value.ofId_none]
      exact Reply.answers_warn (.inl ⟨rfl, hconsole⟩) _ _
  | name :: v :: more =>
    have hid := Bound.toNat_unsigned h (i := 1) rfl rfl
    have hmin : min (name :: v :: more).length 2 = 2 := by simp
    rw [Handler.channel, hsupplied, hmin]
    dsimp only
    cases hconsole : site.host.findConsole (bound.unsigned 1) with
    | some console =>
      refine Reply.answers_value ?_ _ _
      rintro (⟨hlength, _⟩ | ⟨_, w, _, hargs, id, hw, hnone⟩)
      · simp at hlength
      · cases hargs
        have heq : id = bound.unsigned 1 := UInt64.toNat_inj.mp (by omega)
        rw [heq, hconsole] at hnone
        cases hnone
    | none =>
      rw [Value.ofId_none]
      exact Reply.answers_warn (.inr ⟨name, v, more, rfl, bound.unsigned 1, hid, hconsole⟩) _ _

theorem base64ToAscii_answers (h : bind Builtin.base64ToAscii.signature args = .ok bound) :
    (Handler.base64ToAscii ⟨site, function⟩ bound).Answers
      (Builtin.base64ToAscii.Warns site args) (.scalar "") := by
  have hfault := ((bind_eq_ok h).2.1 0 _ rfl).1
  match args with
  | [] => cases hfault
  | v :: more =>
    have htext := Bound.text_eq h (i := 0) rfl rfl
    rw [Handler.base64ToAscii, htext]
    cases hdecoded : Text.Base64.toText v.text with
    | ok text =>
      refine Reply.answers_value ?_ _ _
      rintro ⟨w, _, e, hargs, he⟩
      cases hargs
      rw [hdecoded] at he
      cases he
    | error e => exact Reply.answers_warn ⟨v, more, e, rfl, hdecoded⟩ _ _

theorem Moment.ofSeconds_eq {seconds : Int} (h : InYears seconds) (offset : UtcOffset) :
    Moment.ofSeconds seconds offset =
      if hlocal : InYears (seconds + offset.seconds) then .ok ⟨⟨seconds, h⟩, offset, hlocal⟩
      else .error .timestamp := by
  rw [Moment.ofSeconds, Timestamp.ofSeconds, dif_pos h]
  rfl

theorem dateAt_answers (ctx : CallContext) (format : String) {seconds : Int}
    (h : InYears seconds) (offset : UtcOffset) :
    (Handler.dateAt ctx format seconds offset).Answers (¬ InYears (seconds + offset.seconds))
      .nothing := by
  rw [Handler.dateAt, Moment.ofSeconds_eq h]
  split_ifs with hlocal
  · exact Reply.answers_value (fun hw => hw hlocal) _ _
  · exact Reply.answers_warn hlocal _ _

theorem seconds_eq (h : bind Builtin.date.signature args = .ok bound) :
    (if bound.isSupplied 1 then bound.signed 1 else site.host.now.seconds) = site.seconds args := by
  have hsupplied := Bound.isSupplied_iff h (i := 1) Nat.one_lt_two
  rw [CallSite.seconds]
  split_ifs with hone
  · have hlt := hsupplied.mp hone
    rw [List.getElem?_eq_getElem hlt]
    exact Bound.signed_eq h rfl (List.getElem?_eq_getElem hlt)
  · rw [List.getElem?_eq_none (Nat.le_of_not_lt (mt hsupplied.mpr hone))]

theorem date_answers (h : bind Builtin.date.signature args = .ok bound) :
    (Handler.date ⟨site, function⟩ bound).Answers (Builtin.date.Warns site args) .nothing := by
  rw [Handler.date, Builtin.Warns]
  simp only [seconds_eq h]
  by_cases hyears : InYears (site.seconds args)
  · have htime : Timestamp.ofSeconds (site.seconds args) = .ok ⟨_, hyears⟩ := dif_pos hyears
    rw [htime]
    dsimp only
    have hwarns : ∀ offset : UtcOffset, offset.seconds = site.host.offsetSeconds ⟨_, hyears⟩ →
        (¬ InYears (site.seconds args + offset.seconds) ↔
          site.host.NoDate (site.seconds args)) := by
      intro offset hoffset
      rw [hoffset, Host.NoDate]
      simp [hyears]
    cases hoffset : site.host.utcOffset (⟨_, hyears⟩ : Timestamp) with
    | some offset =>
      exact (dateAt_answers _ _ hyears offset).congr
        (hwarns offset (by rw [Host.offsetSeconds, hoffset]))
    | none =>
      exact ((dateAt_answers _ _ hyears .utc).congr
        (hwarns .utc (by rw [Host.offsetSeconds, hoffset]; rfl))).remark _
  · have htime : Timestamp.ofSeconds (site.seconds args) = .error .timestamp := dif_neg hyears
    rw [htime]
    exact Reply.answers_warn (.inl hyears) _ _

end

theorem handler_answers (b : Builtin) (site : CallSite) (function : String) {args : List Value}
    {bound : Bound} (h : bind b.signature args = .ok bound) :
    (b.handler ⟨site, function⟩ bound).Answers (b.Warns site args) b.emptyResult := by
  cases b with
  | away => exact away_answers h
  | channel => exact channel_answers h
  | console => exact console_answers h
  | base64ToAscii =>
    rw [Builtin.handler]
    exact base64ToAscii_answers h
  | date =>
    rw [Builtin.handler]
    exact date_answers h
  | features =>
    have hquiet : ¬ Builtin.features.Warns site args := by simp [Builtin.Warns]
    rw [Builtin.handler, Handler.features]
    split_ifs
    · exact Reply.answers_value hquiet _ _
    · exact Reply.answers_value hquiet _ _
  | _ => exact Reply.answers_value (by simp [Builtin.Warns]) _ _

/-- A call of a built-in function fails if its name is not known or its arguments do not bind, and
for no other reason. -/
theorem call_initial (builtins : Bool) (disabled : List String) (site : CallSite) (name : String)
    (args : List Value) :
    let r := Registry.initial builtins disabled
    let result := (r.call site name args).result
    (result = .error (.unknownFunction name) ↔ r.lookup name = none) ∧
    (∀ function e, result = .error (.binding function e) ↔
      ∃ entry, r.lookup name = some entry ∧ function = entry.name ∧
        bind entry.signature args = .error e) ∧
    (∀ error, result = .error error →
      error = .unknownFunction name ∨ ∃ function e, error = .binding function e) ∧
    ∀ entry bound, r.lookup name = some entry → bind entry.signature args = .ok bound →
      ∃ b : Builtin, (∀ c : Builtin, c.goesBy name = true ↔ c = b) ∧ entry ∈ b.entries ∧
        ∃ outcome, result = .ok outcome ∧
          (outcome.warning.isSome = true ↔ b.Warns site args) ∧
          (outcome.warning.isSome = true → outcome.value = b.emptyResult) := by
  intro r result
  cases hlookup : r.lookup name with
  | none =>
    have hresult : result = .error (.unknownFunction name) :=
      Registry.call_of_lookup_none hlookup site args
    simp [hresult]
  | some entry =>
    -- Only built-in functions are registered, and each name belongs to one of them.
    obtain ⟨b, hname, hentry⟩ := Registry.mem_entries_of_lookup_initial hlookup
    have hcall : result = (entry.call site args).result := by
      rw [← Registry.call_of_lookup hlookup]
    cases hbind : bind entry.signature args with
    | error e =>
      rw [Entry.call_of_bind_error hbind] at hcall
      refine ⟨by simp [hcall], ?_, by simp [hcall], ?_⟩
      · intro function e'
        simp [hcall, hbind, eq_comm]
      · intro entry' bound hentry' hbound
        cases hentry'
        rw [hbind] at hbound
        cases hbound
    | ok bound =>
      obtain ⟨known, _, rfl⟩ := (Builtin.mem_entries b entry).mp hentry
      obtain ⟨v, hv, hwarned, hempty⟩ := handler_answers b site known hbind
      rw [Entry.call_of_reply hbind hv] at hcall
      refine ⟨by simp [hcall], by simp [hcall, hbind], by simp [hcall], ?_⟩
      intro entry' bound' hentry' hbound
      cases hentry'
      rw [hbind] at hbound
      cases hbound
      refine ⟨b, ?_, hentry, _, hcall, hwarned, fun hw => hempty (hwarned.mp hw)⟩
      intro c
      constructor
      · intro hc
        exact Builtin.eq_of_goesBy hc hname
      · rintro rfl
        exact hname

end ScriptBuiltins
