import ScriptBuiltins.Proofs.Calendar
import ScriptBuiltins.Proofs.Integer.Numeral
import ScriptBuiltins.Proofs.Warnings

set_option autoImplicit false

namespace ScriptBuiltins

/-- What a clock shows that is ahead of UTC by the offset. -/
structure Reading where
  shown : Timestamp
  offset : UtcOffset

namespace Reading

def unix (r : Reading) : Int := r.shown.seconds - r.offset.seconds

def toInstant (r : Reading) : Instant :=
  ⟨r.unix, r.offset, (Int.sub_add_cancel r.shown.seconds r.offset.seconds).symm ▸ r.shown.inYears⟩

def toOffset? (r : Reading) (offset : UtcOffset) : Option Reading :=
  if h : InYears (r.unix + offset.seconds) then some ⟨⟨_, h⟩, offset⟩ else none

def civilTime? (r : Reading) : Option CivilTime := do
  let utc ← r.toOffset? .utc
  return .ofClocks r.shown.seconds utc.shown.seconds

/-- The second is looked up on the UTC clock and on the shifted one before the conversion. The sum
is one of 64-bit integers that stops at their bounds. -/
def ofSeconds? (seconds : Int) (offset : UtcOffset) : Option (Except RangeError Reading) :=
  match Timestamp.ofSeconds seconds with
  | .error error => some (.error error)
  | .ok utc =>
    match Timestamp.ofSeconds (Integer.clamp (seconds + offset.seconds)) with
    | .error error => some (.error error)
    | .ok _ => (toOffset? ⟨utc, .utc⟩ offset).map .ok

end Reading

namespace Handler

def dateAtInSteps? (ctx : CallContext) (format : String) (seconds : Int) (offset : UtcOffset) :
    Option Reply := do
  match ← Reading.ofSeconds? seconds offset with
  | .ok here =>
    let t ← here.civilTime?
    return .value (.scalar (DateFormat.format format t))
  | .error error => return .warn (Message.invalidDate ctx.function error.message) .nothing

/-- The date function, step by step. There is no reply if a conversion finds no reading. -/
def dateInSteps? (ctx : CallContext) (args : Bound) : Option Reply := do
  let seconds := if args.isSupplied 1 then args.signed 1 else ctx.host.now.seconds
  match ← Reading.ofSeconds? seconds .utc with
  | .error error => return .warn (Message.invalidDate ctx.function error.message) .nothing
  | .ok utc =>
    match ctx.host.utcOffset utc.toInstant with
    | some offset => dateAtInSteps? ctx (args.text 0) seconds offset
    | none =>
      let reply ← dateAtInSteps? ctx (args.text 0) seconds .utc
      return { reply with
        notes := .remark "local offset unavailable, formatting in UTC" :: reply.notes }

end Handler

structure CivilTime.Reads (t : CivilTime) (here utc : Int) : Prop where
  date : Calendar.Date.IsOf
    ⟨t.year, t.month.toNat, t.day.toNat, t.dayOfYear.toNat, t.weekday.toNat, t.week.toNat⟩
    (Calendar.newYear 1970 + here / 86400)
  hour_lt : t.hour.toNat < 24
  minute_lt : t.minute.toNat < 60
  second_lt : t.second.toNat < 60
  clock : here % 86400 = 3600 * t.hour.toNat + 60 * t.minute.toNat + t.second.toNat
  unix_eq : t.unix = utc
  utcHour_lt : t.utcHour.toNat < 24
  utcMinute_lt : t.utcMinute.toNat < 60
  utcClock : utc % 86400 / 60 = 60 * t.utcHour.toNat + t.utcMinute.toNat

namespace Reading

theorem toOffset?_eq {r : Reading} {offset : UtcOffset} {second : Int}
    (h : r.unix + offset.seconds = second) (hyears : InYears second) :
    r.toOffset? offset = some ⟨⟨second, hyears⟩, offset⟩ := by
  subst h
  exact dif_pos hyears

theorem unix_utc (t : Timestamp) : unix ⟨t, .utc⟩ = t.seconds := Int.sub_zero t.seconds

end Reading

namespace Moment

def reading (m : Moment) : Reading := ⟨⟨_, m.localInYears⟩, m.offset⟩

theorem unix_reading (m : Moment) : m.reading.unix = m.utc.seconds :=
  Int.add_sub_cancel m.utc.seconds m.offset.seconds

theorem toInstant_reading (m : Moment) : m.reading.toInstant = m.utc.toInstant := by
  simp only [Reading.toInstant, Timestamp.toInstant, unix_reading]

theorem civilTime?_reading (m : Moment) : m.reading.civilTime? = some m.civilTime := by
  have hunix : m.reading.unix + UtcOffset.utc.seconds = m.utc.seconds := by
    rw [unix_reading]
    exact Int.add_zero m.utc.seconds
  rw [Reading.civilTime?, Reading.toOffset?_eq hunix m.utc.inYears]
  rfl

end Moment

theorem clamp_add_offset {seconds : Int} (h : InYears seconds) (offset : UtcOffset) :
    Integer.clamp (seconds + offset.seconds) = seconds + offset.seconds := by
  have := offset.least_le
  have := offset.le_greatest
  simp only [InYears] at h
  simp only [Integer.clamp, Integer.least, Integer.greatest]
  omega

theorem Reading.ofSeconds?_eq (seconds : Int) (offset : UtcOffset) :
    ofSeconds? seconds offset = some ((Moment.ofSeconds seconds offset).map Moment.reading) := by
  by_cases h : InYears seconds
  · have htime : Timestamp.ofSeconds seconds = .ok ⟨seconds, h⟩ := dif_pos h
    rw [Moment.ofSeconds_eq h, ofSeconds?, htime]
    dsimp only
    rw [clamp_add_offset h]
    split_ifs with hlocal
    · have hshifted : Timestamp.ofSeconds (seconds + offset.seconds) = .ok ⟨_, hlocal⟩ :=
        dif_pos hlocal
      have hunix : unix ⟨⟨seconds, h⟩, .utc⟩ + offset.seconds = seconds + offset.seconds := by
        rw [unix_utc]
      rw [hshifted, toOffset?_eq hunix hlocal]
      rfl
    · have hshifted : Timestamp.ofSeconds (seconds + offset.seconds) = .error .timestamp :=
        dif_neg hlocal
      rw [hshifted]
      rfl
  · have htime : Timestamp.ofSeconds seconds = .error .timestamp := dif_neg h
    rw [ofSeconds?, Moment.ofSeconds, htime]
    rfl

namespace Handler

theorem dateAtInSteps?_eq (ctx : CallContext) (format : String) (seconds : Int)
    (offset : UtcOffset) :
    dateAtInSteps? ctx format seconds offset = some (dateAt ctx format seconds offset) := by
  rw [dateAtInSteps?, dateAt, Reading.ofSeconds?_eq]
  cases Moment.ofSeconds seconds offset with
  | error error => rfl
  | ok moment =>
    simp only [Except.map, Option.bind_eq_bind, Option.bind_some, moment.civilTime?_reading]
    rfl

/-- Every conversion finds a reading. -/
theorem dateInSteps?_eq (ctx : CallContext) (args : Bound) :
    dateInSteps? ctx args = some (date ctx args) := by
  rw [dateInSteps?, date]
  generalize (if args.isSupplied 1 then args.signed 1 else ctx.host.now.seconds) = seconds
  dsimp only
  rw [Reading.ofSeconds?_eq]
  by_cases h : InYears seconds
  · have htime : Timestamp.ofSeconds seconds = .ok ⟨seconds, h⟩ := dif_pos h
    have hutc : InYears (seconds + UtcOffset.utc.seconds) := (Int.add_zero seconds).symm ▸ h
    rw [Moment.ofSeconds_eq h, dif_pos hutc, htime]
    simp only [Except.map, Option.bind_eq_bind, Option.bind_some, Moment.toInstant_reading,
      dateAtInSteps?_eq]
    cases ctx.host.utcOffset (Timestamp.toInstant ⟨seconds, h⟩) <;> rfl
  · have htime : Timestamp.ofSeconds seconds = .error .timestamp := dif_neg h
    rw [Moment.ofSeconds, htime]
    rfl

end Handler

namespace CivilTime

theorem reads_ofClocks (here utc : Int) : (ofClocks here utc).Reads here utc := by
  have hdate := Calendar.dateOf_isOf (Calendar.dayOfSecond here)
  have htime := Calendar.timeOfSecond_spec here
  have hutc := Calendar.timeOfSecond_spec utc
  have h8 : ∀ n, n < 256 → (UInt8.ofNat n).toNat = n := fun _ h => UInt8.toNat_ofNat_of_lt' h
  have h16 : ∀ n, n < 65536 → (UInt16.ofNat n).toNat = n := fun _ h => UInt16.toNat_ofNat_of_lt' h
  have hmonth := h8 _ (Nat.lt_of_le_of_lt hdate.month_le (by decide))
  have hday := h8 _ (Nat.lt_of_le_of_lt hdate.day_le_31 (by decide))
  have hdayOfYear := h16 _ (Nat.lt_of_le_of_lt hdate.dayOfYear_le (by decide))
  have hweekday := h8 _ (Nat.lt_of_le_of_lt hdate.weekday_le (by decide))
  have hweek := h8 _ (Nat.lt_of_le_of_lt hdate.week_le (by decide))
  have hhour := h8 _ (Nat.lt_trans htime.1 (by decide))
  have hminute := h8 _ (Nat.lt_trans htime.2.1 (by decide))
  have hsecond := h8 _ (Nat.lt_trans htime.2.2.1 (by decide))
  have hutcHour := h8 _ (Nat.lt_trans hutc.1 (by decide))
  have hutcMinute := h8 _ (Nat.lt_trans hutc.2.1 (by decide))
  constructor
  case date =>
    simp only [ofClocks, hmonth, hday, hdayOfYear, hweekday, hweek, Calendar.newYear_1970]
    exact hdate
  case unix_eq => rfl
  all_goals simp only [ofClocks, hhour, hminute, hsecond, hutcHour, hutcMinute]; omega

theorem reads_iff (t : CivilTime) (here utc : Int) :
    t.Reads here utc ↔ t = ofClocks here utc := by
  constructor
  · intro h
    have hdate := (Calendar.dateOf_eq_iff _ _).mpr h.date
    rw [Calendar.newYear_1970] at hdate
    have htime : Calendar.timeOfSecond here = ⟨t.hour.toNat, t.minute.toNat, t.second.toNat⟩ := by
      have hclock := h.clock
      have hminute := h.minute_lt
      have hsecond := h.second_lt
      rw [Calendar.timeOfSecond, Calendar.timeOfDay, Calendar.TimeOfDay.mk.injEq]
      omega
    have hutc : (Calendar.timeOfSecond t.unix).hour = t.utcHour.toNat ∧
        (Calendar.timeOfSecond t.unix).minute = t.utcMinute.toNat := by
      have hclock := h.utcClock
      have hminute := h.utcMinute_lt
      simp only [h.unix_eq, Calendar.timeOfSecond, Calendar.timeOfDay]
      omega
    simp only [ofClocks, Calendar.dayOfSecond, hdate, htime, ← h.unix_eq, hutc.1, hutc.2,
      UInt8.ofNat_toNat, UInt16.ofNat_toNat]
  · rintro rfl
    exact reads_ofClocks here utc

end CivilTime

theorem inYears_iff (second : Int) :
    InYears second ↔
      -9999 ≤ (Calendar.dateOf (Calendar.dayOfSecond second)).year ∧
        (Calendar.dateOf (Calendar.dayOfSecond second)).year ≤ 9999 := by
  have hfirst := Calendar.le_year_iff (-9999) (Calendar.dayOfSecond second)
  have hend := Calendar.le_year_iff 10000 (Calendar.dayOfSecond second)
  have hfirst' : Calendar.newYear (-9999) = -3652425 := by decide
  have hend' : Calendar.newYear 10000 = 3652059 := by decide
  have hday : Calendar.dayOfSecond second = 719162 + second / 86400 := rfl
  rw [InYears]
  omega

section

variable {site : CallSite} {args : List Value} {bound : Bound} {seconds : Int}

theorem Host.offsetSeconds_eq (host : Host) (time : Timestamp) :
    host.offsetSeconds time = ((host.utcOffset time).getD .utc).seconds := by
  rw [offsetSeconds]
  cases host.utcOffset time <;> rfl

theorem Host.noDate_iff {host : Host} (h : InYears seconds) :
    host.NoDate seconds ↔ ¬ InYears (seconds + host.offsetSeconds ⟨seconds, h⟩) := by
  simp [NoDate, h]

/-- A remark apart, the reply is that for the offset of the host, or for none. -/
theorem Handler.date_of_inYears (function : String)
    (h : bind Builtin.date.signature args = .ok bound) (hyears : InYears (site.seconds args)) :
    let reply := dateAt ⟨site, function⟩ (bound.text 0) (site.seconds args)
      ((site.host.utcOffset (Timestamp.toInstant ⟨_, hyears⟩)).getD .utc)
    (date ⟨site, function⟩ bound).result = reply.result ∧
      (date ⟨site, function⟩ bound).warnings = reply.warnings := by
  have htime : Timestamp.ofSeconds (site.seconds args) = .ok ⟨_, hyears⟩ := dif_pos hyears
  rw [date]
  simp only [seconds_eq h, htime]
  cases site.host.utcOffset (Timestamp.toInstant ⟨_, hyears⟩) <;> exact ⟨rfl, rfl⟩

theorem Handler.date_of_noDate (function : String)
    (h : bind Builtin.date.signature args = .ok bound)
    (hnone : site.host.NoDate (site.seconds args)) :
    let reply := date ⟨site, function⟩ bound
    reply.result = .ok .nothing ∧
      reply.warnings = [Message.invalidDate function RangeError.timestamp.message] := by
  intro reply
  by_cases hyears : InYears (site.seconds args)
  · obtain ⟨hresult, hwarnings⟩ := date_of_inYears function h hyears
    rw [Host.noDate_iff hyears, Host.offsetSeconds_eq] at hnone
    rw [dateAt, Moment.ofSeconds_eq hyears, dif_neg hnone] at hresult hwarnings
    exact ⟨hresult, hwarnings⟩
  · have htime : Timestamp.ofSeconds (site.seconds args) = .error .timestamp := dif_neg hyears
    simp only [reply, date, seconds_eq h, htime]
    exact ⟨rfl, rfl⟩

theorem Handler.date_of_not_noDate (function : String)
    (h : bind Builtin.date.signature args = .ok bound)
    (hdate : ¬ site.host.NoDate (site.seconds args)) :
    let reply := date ⟨site, function⟩ bound
    ∃ (hyears : InYears (site.seconds args)) (t : CivilTime),
      t.Reads (site.seconds args + site.host.offsetSeconds ⟨_, hyears⟩) (site.seconds args) ∧
      reply.result = .ok (.scalar (DateFormat.format (bound.text 0) t)) ∧ reply.warnings = [] := by
  intro reply
  have hyears : InYears (site.seconds args) := by
    by_contra hyears
    exact hdate (.inl hyears)
  obtain ⟨hresult, hwarnings⟩ := date_of_inYears function h hyears
  rw [Host.noDate_iff hyears, Decidable.not_not, Host.offsetSeconds_eq] at hdate
  rw [dateAt, Moment.ofSeconds_eq hyears, dif_pos hdate] at hresult hwarnings
  refine ⟨hyears, _, ?_, hresult, hwarnings⟩
  rw [Host.offsetSeconds_eq]
  exact CivilTime.reads_ofClocks _ _

end

theorem call_date {disabled : List String} {name : String}
    (hname : Builtin.date.goesBy name = true)
    (henabled : Text.anyIgnoringCase disabled name = false) (site : CallSite)
    {args : List Value} {bound : Bound} (hbound : bind Builtin.date.signature args = .ok bound) :
    let result := ((Registry.initial true disabled).call site name args).result
    let seconds := site.seconds args
    (∃ reply v, Handler.dateInSteps? ⟨site, "date"⟩ bound = some reply ∧ reply.result = .ok v ∧
      result = .ok ⟨v, reply.warnings.head?⟩) ∧
    (result = .ok ⟨.nothing, some (Message.invalidDate "date" RangeError.timestamp.message)⟩ ↔
      site.host.NoDate seconds) ∧
    (¬ site.host.NoDate seconds →
      ∃ (h : InYears seconds) (format : Value) (more : List Value) (t : CivilTime),
        args = format :: more ∧
        t.Reads (seconds + site.host.offsetSeconds ⟨seconds, h⟩) seconds ∧
        result = .ok ⟨.scalar (DateFormat.format format.text t), none⟩) := by
  intro result seconds
  obtain ⟨format, more, hargs⟩ : ∃ format more, args = format :: more := by
    cases args with
    | nil => cases ((bind_eq_ok hbound).2.1 0 _ rfl).1
    | cons format more => exact ⟨format, more, rfl⟩
  have hformat : args[0]? = some format := hargs ▸ rfl
  obtain ⟨known, hknown, hcall⟩ := Registry.exists_call_initial hname henabled
  have hdate : known = "date" := by simpa [Builtin.name, Builtin.aliases] using hknown
  subst hdate
  have hresult : ∀ v, (Handler.date ⟨site, "date"⟩ bound).result = .ok v →
      result = .ok ⟨v, (Handler.date ⟨site, "date"⟩ bound).warnings.head?⟩ := by
    intro v hv
    rw [show result = _ from congrArg CallRecord.result (hcall site args)]
    exact Entry.call_of_reply hbound hv
  have hsteps := Handler.dateInSteps?_eq ⟨site, "date"⟩ bound
  by_cases hnone : site.host.NoDate seconds
  · obtain ⟨hv, hwarnings⟩ := Handler.date_of_noDate "date" hbound hnone
    have hr := hresult _ hv
    refine ⟨⟨_, _, hsteps, hv, hr⟩, iff_of_true ?_ hnone, fun h => absurd hnone h⟩
    rw [hr, hwarnings, List.head?_cons]
  · obtain ⟨hyears, t, hreads, hv, hwarnings⟩ := Handler.date_of_not_noDate "date" hbound hnone
    have hr := hresult _ hv
    refine ⟨⟨_, _, hsteps, hv, hr⟩, iff_of_false ?_ hnone, fun _ => ?_⟩
    · rw [hr]
      simp
    · rw [hwarnings, Bound.nonemptyText_eq hbound (i := 0) rfl hformat] at hr
      exact ⟨hyears, format, more, t, hargs, hreads, hr⟩

/-- The last second of the years is out of range where the local clock is ahead of UTC. -/
theorem call_date_last_second :
    let site : CallSite :=
      ⟨Client.empty.toHost ⟨.epoch, fun _ => some ⟨3600, by decide, by decide⟩⟩, none⟩
    let args : List Value := [.scalar "Y", .scalar "253402300799"]
    bind Builtin.date.signature args = .ok ⟨[.text "Y", .signed 253402300799], 2, []⟩ ∧
    InYears 253402300799 ∧
    ((Registry.initial true []).call site "date" args).result =
      .ok ⟨.nothing, some "$date: could not construct date/time: timestamp was not in range"⟩ := by
  intro site args
  have hinteger : Integer.ofText "253402300799" = 253402300799 :=
    Integer.ofText_toString 253402300799
  have hbound : bind Builtin.date.signature args =
      .ok ⟨[.text "Y", .signed 253402300799], 2, []⟩ := by
    rw [← hinteger]
    rfl
  have hyears : InYears 253402300799 := by decide
  have hnone : site.host.NoDate (site.seconds args) := by
    rw [show site.seconds args = 253402300799 from hinteger]
    exact .inr ⟨hyears, show ¬ InYears (253402300799 + 3600) by decide⟩
  have hname : Builtin.date.goesBy "date" = true := by decide
  have hresult := (call_date hname List.any_nil site hbound).2.1.mpr hnone
  exact ⟨hbound, hyears, hresult⟩

end ScriptBuiltins
