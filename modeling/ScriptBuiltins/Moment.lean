import ScriptBuiltins.Calendar

set_option autoImplicit false

/-! The calendar is used for the years -9999 to 9999; a moment lies in these years both on the UTC
clock and on the shifted one. -/
namespace ScriptBuiltins

inductive RangeError where
  | timestamp
  | offset
deriving DecidableEq, Repr

def RangeError.message : RangeError → String
  | timestamp => "timestamp was not in range"
  | offset => "seconds was not in range"

/-- Seconds count from 1970-01-01 00:00:00. -/
def InYears (seconds : Int) : Prop := -377705116800 ≤ seconds ∧ seconds ≤ 253402300799

instance (seconds : Int) : Decidable (InYears seconds) := inferInstanceAs (Decidable (_ ∧ _))

structure Timestamp where
  seconds : Int
  inYears : InYears seconds
deriving DecidableEq, Repr

def Timestamp.ofSeconds (seconds : Int) : Except RangeError Timestamp :=
  if h : InYears seconds then .ok ⟨seconds, h⟩ else .error .timestamp

def Timestamp.epoch : Timestamp := ⟨0, by decide⟩

/-- In seconds: less than 26 hours, either way. -/
structure UtcOffset where
  seconds : Int
  least_le : -93599 ≤ seconds
  le_greatest : seconds ≤ 93599
deriving DecidableEq, Repr

namespace UtcOffset

def utc : UtcOffset := ⟨0, by decide, by decide⟩

def ofSeconds (seconds : Int) : Except RangeError UtcOffset :=
  if h : -93599 ≤ seconds ∧ seconds ≤ 93599 then .ok ⟨seconds, h.1, h.2⟩
  else .error .offset

end UtcOffset

/-- A point in time that a clock shows within the years at some offset. The UTC clock may be
outside of them then, by less than 26 hours. -/
structure Instant where
  seconds : Int
  shown : ∃ offset : UtcOffset, InYears (seconds + offset.seconds)
deriving DecidableEq, Repr

def Timestamp.toInstant (t : Timestamp) : Instant :=
  ⟨t.seconds, .utc, (Int.add_zero t.seconds).symm ▸ t.inYears⟩

instance : Coe Timestamp Instant := ⟨Timestamp.toInstant⟩

structure Moment where
  utc : Timestamp
  offset : UtcOffset
  localInYears : InYears (utc.seconds + offset.seconds)
deriving DecidableEq, Repr

namespace Moment

def ofSeconds (seconds : Int) (offset : UtcOffset) : Except RangeError Moment := do
  let utc ← Timestamp.ofSeconds seconds
  if h : InYears (utc.seconds + offset.seconds) then return ⟨utc, offset, h⟩
  else throw .timestamp

def localSeconds (m : Moment) : Int := m.utc.seconds + m.offset.seconds

end Moment

/-- The hour and minute of the UTC clock stand beside those of the local clock, so that the offset
can be told from them. -/
structure CivilTime where
  year : Int
  month : UInt8
  day : UInt8
  hour : UInt8
  minute : UInt8
  second : UInt8
  dayOfYear : UInt16
  weekday : UInt8
  week : UInt8
  unix : Int
  utcHour : UInt8
  utcMinute : UInt8
deriving DecidableEq, Repr

open Calendar in
def CivilTime.ofClocks (here utc : Int) : CivilTime :=
  let date := dateOf (dayOfSecond here)
  let time := timeOfSecond here
  let utcTime := timeOfSecond utc
  { year := date.year
    month := UInt8.ofNat date.month
    day := UInt8.ofNat date.day
    hour := UInt8.ofNat time.hour
    minute := UInt8.ofNat time.minute
    second := UInt8.ofNat time.second
    dayOfYear := UInt16.ofNat date.dayOfYear
    weekday := UInt8.ofNat date.weekday
    week := UInt8.ofNat date.week
    unix := utc
    utcHour := UInt8.ofNat utcTime.hour
    utcMinute := UInt8.ofNat utcTime.minute }

def Moment.civilTime (m : Moment) : CivilTime := .ofClocks m.localSeconds m.utc.seconds

end ScriptBuiltins
