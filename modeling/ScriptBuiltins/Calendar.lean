set_option autoImplicit false

/-! Dates of the Gregorian calendar, extended without end in both directions; the year before 1 is
0. Days are numbered from 0001-01-01, a Monday, which is day 0. -/
namespace ScriptBuiltins.Calendar

def isLeap (year : Int) : Bool :=
  year % 4 == 0 && (year % 100 != 0 || year % 400 == 0)

def yearLength (year : Int) : Nat := if isLeap year then 366 else 365

def monthLengths (year : Int) : List Nat :=
  [31, if isLeap year then 29 else 28, 31, 30, 31, 30, 31, 31, 30, 31, 30, 31]

structure YearDay where
  year : Int
  before : Nat
deriving DecidableEq, Repr

/-- The calendar repeats every 400 years, that is every 146097 days. In a repeat the first three
centuries have 36524 days and the last one a day more; in a century every four years have 1461
days; in four years the last one has a day more than the others. -/
def yearDay (day : Int) : YearDay :=
  let inRepeat := (day % 146097).toNat
  let century := min (inRepeat / 36524) 3
  let inCentury := inRepeat - century * 36524
  let inFour := inCentury % 1461
  let year := min (inFour / 365) 3
  { year := day / 146097 * 400 + (century * 100 + inCentury / 1461 * 4 + year + 1 : Nat)
    before := inFour - year * 365 }

def monthDay : List Nat → Nat → Nat × Nat
  | [], before => (1, before + 1)
  | length :: lengths, before =>
    if before < length then (1, before + 1)
    else
      let (month, day) := monthDay lengths (before - length)
      (month + 1, day)

/-- 1 for Monday to 7 for Sunday. -/
def weekday (day : Int) : Nat := (day % 7).toNat + 1

/-- A week runs from Monday to Sunday and belongs to the year of its Thursday, where it is
counted from 1. -/
def week (day : Int) : Nat := (yearDay (day - day % 7 + 3)).before / 7 + 1

structure Date where
  year : Int
  month : Nat
  day : Nat
  dayOfYear : Nat
  weekday : Nat
  week : Nat
deriving DecidableEq, Repr

def dateOf (day : Int) : Date :=
  let yd := yearDay day
  let md := monthDay (monthLengths yd.year) yd.before
  { year := yd.year
    month := md.1
    day := md.2
    dayOfYear := yd.before + 1
    weekday := weekday day
    week := week day }

/-- The day 1970-01-01. -/
def epoch : Int := 719162

structure TimeOfDay where
  hour : Nat
  minute : Nat
  second : Nat
deriving DecidableEq, Repr

def timeOfDay (seconds : Nat) : TimeOfDay :=
  ⟨seconds / 3600, seconds / 60 % 60, seconds % 60⟩

def dayOfSecond (second : Int) : Int := epoch + second / 86400

def timeOfSecond (second : Int) : TimeOfDay := timeOfDay (second % 86400).toNat

end ScriptBuiltins.Calendar
