import ScriptBuiltins.Proofs.Call
import ScriptBuiltins.Proofs.History

set_option autoImplicit false

/-! Each step of a call logs an event, and a step that fails ends the call; every warning of a
function is logged, and the first one is kept for the outcome. -/
namespace ScriptBuiltins

structure Progress where
  events : List Event
  warning : Option String

namespace Progress

def start : Progress := ⟨[], none⟩

def log (event : Event) (p : Progress) : Progress :=
  { p with events := p.events ++ [event] }

def warn (function message : String) (p : Progress) : Progress :=
  let p := p.log (.noted function (.warning message))
  match p.warning with
  | some _ => p
  | none => { p with warning := some message }

def note (function : String) (p : Progress) : Note → Progress
  | .warning message => p.warn function message
  | .remark message => p.log (.noted function (.remark message))

end Progress

/-- A step of a call changes what is under way, and gives a value or ends the call. -/
abbrev CallStep := ExceptT CallError (StateM Progress)

namespace CallStep

def log (event : Event) : CallStep Unit := modify (Progress.log event)

def fail {α : Type} (event : Event) (error : CallError) : CallStep α := do
  log event
  throw error

def run {α : Type} (step : CallStep α) (p : Progress) : Except CallError α × Progress :=
  Id.run (StateT.run (ExceptT.run step) p)

end CallStep

namespace Entry

open CallStep (log fail)

def openInSteps (entry : Entry) (args : List Value) : CallStep Unit := do
  log (.dispatchingCall entry.name args.length)
  if !entry.signature.variadic && args.length > entry.signature.params.length then
    log (.ignoringExtraArguments entry.name (args.length - entry.signature.params.length))

def answerInSteps (entry : Entry) (site : CallSite) (args : List Value) : CallStep Outcome :=
  match bind entry.signature args with
  | .error error => fail (.bindingFailed entry.name error) (.binding entry.name error)
  | .ok bound => do
    let reply := entry.handler ⟨site, entry.name⟩ bound
    modify fun p => reply.notes.foldl (Progress.note entry.name) p
    match reply.result with
    | .error failure => fail (.handlerFailed entry.name failure) (.handler entry.name failure)
    | .ok value => return ⟨value, (← get).warning⟩

def callInSteps (entry : Entry) (site : CallSite) (args : List Value) : CallStep Outcome := do
  entry.openInSteps args
  entry.answerInSteps site args

end Entry

open CallStep (fail) in
def Registry.callInSteps (r : Registry) (site : CallSite) (name : String) (args : List Value) :
    CallStep Outcome :=
  match r.lookup name with
  | none => fail (.unknownFunction name) (.unknownFunction name)
  | some entry => entry.callInSteps site args

def Event.warning? : Event → Option String
  | noted _ (.warning message) => some message
  | _ => none

namespace Progress

def KeepsFirst (p : Progress) : Prop := p.warning = (p.events.filterMap Event.warning?).head?

theorem keepsFirst_start : start.KeepsFirst := rfl

theorem KeepsFirst.log {p : Progress} (h : p.KeepsFirst) {event : Event}
    (hevent : event.warning? = none) : (p.log event).KeepsFirst := by
  unfold KeepsFirst at h ⊢
  simp [Progress.log, List.filterMap_append, hevent, h]

theorem KeepsFirst.warn {p : Progress} (h : p.KeepsFirst) (function message : String) :
    (p.warn function message).KeepsFirst := by
  unfold KeepsFirst at h ⊢
  cases hwarning : p.warning with
  | none =>
    rw [hwarning, eq_comm, List.head?_eq_none_iff] at h
    simp [Progress.warn, Progress.log, List.filterMap_append, hwarning, h, Event.warning?]
  | some first =>
    rw [hwarning, eq_comm] at h
    simp [Progress.warn, Progress.log, List.filterMap_append, hwarning, h, List.head?_append]

theorem KeepsFirst.note {p : Progress} (h : p.KeepsFirst) (function : String) (n : Note) :
    (p.note function n).KeepsFirst := by
  cases n with
  | warning message => exact h.warn function message
  | remark message => exact h.log rfl

theorem events_note (function : String) (p : Progress) (n : Note) :
    (p.note function n).events = p.events ++ [.noted function n] := by
  cases n with
  | warning message =>
    unfold note warn
    dsimp only
    split <;> rfl
  | remark message => rfl

theorem events_foldl_note (function : String) (notes : List Note) (p : Progress) :
    (notes.foldl (note function) p).events = p.events ++ notes.map (.noted function) := by
  have hevents := History.foldl_collect (·.events) (events_note function) p notes
  rw [← List.map_eq_flatMap] at hevents
  exact hevents

theorem KeepsFirst.foldl_note {p : Progress} (h : p.KeepsFirst) (function : String)
    (notes : List Note) : (notes.foldl (Progress.note function) p).KeepsFirst := by
  induction notes generalizing p with
  | nil => exact h
  | cons n notes ih => exact ih (h.note function n)

end Progress

theorem filterMap_warning?_opening (entry : Entry) (args : List Value) :
    (entry.opening args).filterMap Event.warning? = [] := by
  unfold Entry.opening Entry.ignored
  split_ifs <;> rfl

theorem filterMap_warning?_noted (function : String) (reply : Reply) :
    (reply.notes.map (.noted function)).filterMap Event.warning? = reply.warnings := by
  rw [List.filterMap_map, Reply.warnings]
  congr 1
  funext n
  cases n <;> rfl

theorem filter_warn_opening (entry : Entry) (args : List Value) :
    (entry.opening args).filter (fun event => event.level = .warn) = [] := by
  unfold Entry.opening Entry.ignored
  split_ifs <;> rfl

theorem filter_warn_noted (function : String) (reply : Reply) :
    (reply.notes.map (Event.noted function)).filter (fun event => event.level = .warn) =
      reply.warnings.map fun message => .noted function (.warning message) := by
  unfold Reply.warnings
  induction reply.notes with
  | nil => rfl
  | cons n notes ih =>
    cases n with
    | warning message => simpa [Event.level] using ih
    | remark message => simpa [Event.level] using ih

namespace CallStep

/-- The steps come to the end that the record tells. -/
def Ends (step : CallStep Outcome) (p : Progress) (record : CallRecord) : Prop :=
  ∃ p' : Progress, step.run p = (record.result, p') ∧ p'.events = record.events ∧ p'.KeepsFirst

theorem run_bind {α β : Type} (step : CallStep α) (next : α → CallStep β) (p : Progress) :
    (step >>= next).run p =
      match step.run p with
      | (.ok a, p') => (next a).run p'
      | (.error error, p') => (.error error, p') := by
  change (match step.run p with | (result, p') => (ExceptT.bindCont next result).run p') = _
  rcases step.run p with ⟨_ | _, p'⟩ <;> rfl

theorem fail_ends {p : Progress} (h : p.KeepsFirst) {event : Event}
    (hevent : event.warning? = none) (error : CallError) :
    (fail event error).Ends p ⟨p.events ++ [event], .error error⟩ :=
  ⟨p.log event, rfl, rfl, h.log hevent⟩

end CallStep

theorem Entry.run_openInSteps (entry : Entry) (args : List Value) (p : Progress) :
    (entry.openInSteps args).run p =
      (.ok (), { p with events := p.events ++ entry.opening args }) := by
  unfold openInSteps opening ignored
  rw [CallStep.run_bind]
  by_cases h : entry.signature.variadic = false ∧
      0 < args.length - entry.signature.params.length
  · rw [if_pos (by grind), if_pos h]
    change (_, (p.log _).log _) = _
    simp [Progress.log]
  · rw [if_neg (by grind), if_neg h]
    rfl

theorem Entry.answerInSteps_ends {entry : Entry} {args : List Value} {p : Progress}
    (h : p.KeepsFirst)
    (hevents : p.events = entry.opening args)
    (site : CallSite) : (entry.answerInSteps site args).Ends p (entry.call site args) := by
  cases hbind : bind entry.signature args with
  | error e =>
    rw [call_of_error hbind, answerInSteps, hbind, ← hevents]
    exact CallStep.fail_ends h rfl _
  | ok bound =>
    let reply := entry.handler ⟨site, entry.name⟩ bound
    let p' := reply.notes.foldl (Progress.note entry.name) p
    have hfirst : p'.KeepsFirst := h.foldl_note entry.name reply.notes
    have hevents' : p'.events = entry.opening args ++
        reply.notes.map (.noted entry.name) := by
      rw [← hevents]
      exact Progress.events_foldl_note entry.name reply.notes p
    rw [answerInSteps, hbind]
    unfold CallStep.Ends
    dsimp only
    rw [CallStep.run_bind]
    cases hresult : reply.result with
    | error failure =>
      rw [call_of_failure hbind hresult, ← hevents']
      exact CallStep.fail_ends hfirst rfl _
    | ok v =>
      have hwarning : p'.warning = reply.warnings.head? := by
        rw [hfirst, hevents', List.filterMap_append, filterMap_warning?_opening,
          filterMap_warning?_noted, List.nil_append]
      rw [call_of_ok hbind hresult, ← hwarning]
      exact ⟨p', rfl, hevents', hfirst⟩

theorem Entry.callInSteps_ends (entry : Entry) (site : CallSite) (args : List Value) :
    (entry.callInSteps site args).Ends .start (entry.call site args) := by
  have hfirst : Progress.KeepsFirst ⟨entry.opening args, none⟩ := by
    rw [Progress.KeepsFirst, filterMap_warning?_opening]
    rfl
  unfold callInSteps CallStep.Ends
  rw [CallStep.run_bind, run_openInSteps]
  exact answerInSteps_ends hfirst rfl site

theorem Registry.callInSteps_ends (r : Registry) (site : CallSite) (name : String)
    (args : List Value) : (r.callInSteps site name args).Ends .start (r.call site name args) := by
  unfold callInSteps call
  cases r.lookup name with
  | none => exact CallStep.fail_ends Progress.keepsFirst_start rfl _
  | some entry => exact entry.callInSteps_ends site args

theorem CallStep.Ends.run_eq {step : CallStep Outcome} {p : Progress} {record : CallRecord}
    (h : step.Ends p record) :
    step.run p =
      (record.result, ⟨record.events, (record.events.filterMap Event.warning?).head?⟩) := by
  obtain ⟨⟨events, warning⟩, hrun, rfl, hfirst⟩ := h
  rw [hrun, show warning = _ from hfirst]

/-- What is logged after the opening is told by the binding and by the reply, and the warning that
comes with the value is the first one logged. -/
theorem call_trace (r : Registry) (site : CallSite) (name : String) (args : List Value) :
    let record := r.call site name args
    let first := (record.events.filterMap Event.warning?).head?
    (r.callInSteps site name args).run .start = (record.result, ⟨record.events, first⟩) ∧
    match r.lookup name with
    | none =>
      record.events = [.unknownFunction name] ∧ record.result = .error (.unknownFunction name)
    | some entry => ∃ rest : List Event,
      record.events =
        .dispatchingCall entry.name args.length :: entry.ignored args ++ rest ∧
      match bind entry.signature args with
      | .error e =>
        rest = [.bindingFailed entry.name e] ∧ record.result = .error (.binding entry.name e)
      | .ok bound =>
        let reply := entry.handler ⟨site, entry.name⟩ bound
        (record.events.filter fun event => event.level = .warn) =
          reply.warnings.map (fun message => .noted entry.name (.warning message)) ∧
        match reply.result with
        | .error failure =>
          rest = reply.notes.map (.noted entry.name) ++ [.handlerFailed entry.name failure] ∧
            record.result = .error (.handler entry.name failure)
        | .ok v => rest = reply.notes.map (.noted entry.name) ∧ record.result = .ok ⟨v, first⟩ := by
  refine ⟨(r.callInSteps_ends site name args).run_eq, ?_⟩
  cases hlookup : r.lookup name with
  | none => simp only [Registry.call, hlookup, and_self]
  | some entry =>
    rw [Registry.call_of_lookup hlookup]
    dsimp only
    cases hbind : bind entry.signature args with
    | error e =>
      rw [Entry.call_of_error hbind]
      exact ⟨_, rfl, rfl, rfl⟩
    | ok bound =>
      dsimp only
      cases hresult : (entry.handler ⟨site, entry.name⟩ bound).result with
      | error failure =>
        rw [Entry.call_of_failure hbind hresult]
        refine ⟨_, List.append_assoc .., ?_, rfl, rfl⟩
        rw [List.filter_append, List.filter_append, filter_warn_opening, filter_warn_noted]
        exact List.append_nil _
      | ok v =>
        rw [Entry.call_of_ok hbind hresult]
        refine ⟨_, rfl, ?_, rfl, ?_⟩
        · rw [List.filter_append, filter_warn_opening, filter_warn_noted, List.nil_append]
        · rw [List.filterMap_append, filterMap_warning?_opening, filterMap_warning?_noted,
            List.nil_append]

end ScriptBuiltins
