import ScriptBuiltins.Client
import ScriptBuiltins.Proofs.Registry

set_option autoImplicit false

namespace ScriptBuiltins

/-- A call from no window, on a client that has nothing. -/
def CallSite.vacant : CallSite := ⟨Client.empty.toHost ⟨.epoch, fun _ => none⟩, none⟩

def Entry.ignored (entry : Entry) (args : List Value) : List Event :=
  if entry.signature.variadic = false ∧ 0 < args.length - entry.signature.params.length then
    [.ignoringExtraArguments entry.name (args.length - entry.signature.params.length)]
  else []

def Entry.opening (entry : Entry) (args : List Value) : List Event :=
  .dispatchingCall entry.name args.length :: entry.ignored args

theorem Entry.opening_eq (entry : Entry) (args : List Value) :
    (Event.dispatchingCall entry.name args.length ::
      if entry.signature.variadic || args.length - entry.signature.params.length == 0 then []
      else [Event.ignoringExtraArguments entry.name
        (args.length - entry.signature.params.length)]) = entry.opening args := by
  unfold opening ignored
  cases entry.signature.variadic <;> grind

section

variable {entry : Entry} {site : CallSite} {args : List Value}

theorem Entry.call_of_error {e : BindingError} (h : bind entry.signature args = .error e) :
    entry.call site args =
      ⟨entry.opening args ++ [.bindingFailed entry.name e], .error (.binding entry.name e)⟩ := by
  simp only [Entry.call, h, opening_eq]

theorem Entry.call_of_failure {bound : Bound} {failure : Failure}
    (h : bind entry.signature args = .ok bound)
    (hresult : (entry.handler ⟨site, entry.name⟩ bound).result = .error failure) :
    entry.call site args =
      ⟨entry.opening args ++
        (entry.handler ⟨site, entry.name⟩ bound).notes.map (.noted entry.name) ++
        [.handlerFailed entry.name failure], .error (.handler entry.name failure)⟩ := by
  simp only [Entry.call, h, hresult, opening_eq]

theorem Entry.call_of_ok {bound : Bound} {v : Value} (h : bind entry.signature args = .ok bound)
    (hresult : (entry.handler ⟨site, entry.name⟩ bound).result = .ok v) :
    entry.call site args =
      ⟨entry.opening args ++ (entry.handler ⟨site, entry.name⟩ bound).notes.map (.noted entry.name),
        .ok ⟨v, (entry.handler ⟨site, entry.name⟩ bound).warnings.head?⟩⟩ := by
  simp only [Entry.call, h, hresult, opening_eq]

theorem Entry.call_of_bind_error {e : BindingError} (h : bind entry.signature args = .error e)
    (site : CallSite) : (entry.call site args).result = .error (.binding entry.name e) := by
  rw [Entry.call_of_error h]

theorem Entry.call_of_reply {bound : Bound} {v : Value} (h : bind entry.signature args = .ok bound)
    (hreply : (entry.handler ⟨site, entry.name⟩ bound).result = .ok v) :
    (entry.call site args).result =
      .ok ⟨v, (entry.handler ⟨site, entry.name⟩ bound).warnings.head?⟩ := by
  rw [Entry.call_of_ok h hreply]

theorem Entry.call_of_value {bound : Bound} {v : Value} (h : bind entry.signature args = .ok bound)
    (hreply : entry.handler ⟨site, entry.name⟩ bound = .value v) :
    (entry.call site args).result = .ok ⟨v, none⟩ := by
  rw [Entry.call_of_reply h (congrArg Reply.result hreply), hreply]
  rfl

/-- A call sees its site through the reply of the function only. -/
theorem Entry.call_congr_site {site' : CallSite}
    (h : ∀ bound, bind entry.signature args = .ok bound →
      entry.handler ⟨site, entry.name⟩ bound = entry.handler ⟨site', entry.name⟩ bound) :
    entry.call site args = entry.call site' args := by
  cases hbind : bind entry.signature args with
  | error e => simp only [Entry.call, hbind]
  | ok bound => simp only [Entry.call, hbind, h bound hbind]

end

namespace Registry

theorem call_of_lookup_none {r : Registry} {name : String} (h : r.lookup name = none)
    (site : CallSite) (args : List Value) :
    (r.call site name args).result = .error (.unknownFunction name) := by
  simp only [call, h]

theorem call_of_lookup {r : Registry} {name : String} {entry : Entry}
    (h : r.lookup name = some entry) (site : CallSite) (args : List Value) :
    r.call site name args = entry.call site args := by
  simp only [call, h]

theorem exists_call_of_goesBy {builtins : Bool} {disabled : List String} {name : String}
    {b : Builtin} (hname : b.goesBy name = true)
    (h : (initial builtins disabled).lookup name ≠ none) :
    ∃ known ∈ b.name :: b.aliases, ∀ site args,
      (initial builtins disabled).call site name args =
        Entry.call ⟨known, b.signature, b.handler⟩ site args := by
  obtain ⟨entry, hlookup⟩ := Option.ne_none_iff_exists'.mp h
  obtain ⟨c, hc, hentry⟩ := mem_entries_of_lookup_initial hlookup
  rw [← Builtin.eq_of_goesBy hname hc] at hentry
  obtain ⟨known, hknown, rfl⟩ := (b.mem_entries entry).mp hentry
  exact ⟨known, hknown, fun site args => call_of_lookup hlookup site args⟩

theorem exists_call_initial {disabled : List String} {name : String} {b : Builtin}
    (hname : b.goesBy name = true) (h : Text.anyIgnoringCase disabled name = false) :
    ∃ known ∈ b.name :: b.aliases, ∀ site args,
      (initial true disabled).call site name args =
        Entry.call ⟨known, b.signature, b.handler⟩ site args := by
  obtain ⟨entry, _, hlookup⟩ := exists_lookup_initial hname h
  exact exists_call_of_goesBy hname (by simp [hlookup])

/-- Two sites for which every function of the name replies alike are two sites of the same call. -/
theorem call_initial_congr_site {builtins : Bool} {disabled : List String} {name : String}
    {site site' : CallSite} {args : List Value}
    (h : ∀ b : Builtin, b.goesBy name = true → ∀ function bound,
      bind b.signature args = .ok bound →
        b.handler ⟨site, function⟩ bound = b.handler ⟨site', function⟩ bound) :
    (initial builtins disabled).call site name args =
      (initial builtins disabled).call site' name args := by
  cases hlookup : (initial builtins disabled).lookup name with
  | none => simp only [call, hlookup]
  | some entry =>
    obtain ⟨b, hname, hmem⟩ := mem_entries_of_lookup_initial hlookup
    obtain ⟨known, _, rfl⟩ := (b.mem_entries entry).mp hmem
    rw [call_of_lookup hlookup, call_of_lookup hlookup]
    exact Entry.call_congr_site (h b hname known)

end Registry

end ScriptBuiltins
