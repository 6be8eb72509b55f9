import ScriptBuiltins.Moment

set_option autoImplicit false

namespace ScriptBuiltins.DateFormat

/-- What is not a day of the week counts as the nearest one. -/
def weekdayName (weekday : UInt8) : List Char :=
  match weekday.toNat with
  | 0 | 1 => "Monday".toList
  | 2 => "Tuesday".toList
  | 3 => "Wednesday".toList
  | 4 => "Thursday".toList
  | 5 => "Friday".toList
  | 6 => "Saturday".toList
  | _ => "Sunday".toList

def monthName (month : UInt8) : List Char :=
  match month.toNat with
  | 0 | 1 => "January".toList
  | 2 => "February".toList
  | 3 => "March".toList
  | 4 => "April".toList
  | 5 => "May".toList
  | 6 => "June".toList
  | 7 => "July".toList
  | 8 => "August".toList
  | 9 => "September".toList
  | 10 => "October".toList
  | 11 => "November".toList
  | _ => "December".toList

def short (name : List Char) : List Char := name.take 3

def digits (n : Nat) : List Char := Nat.toDigits 10 n

/-- At least `width` characters, with zeros in front; a minus sign takes one of them. -/
def zeroPadded (width : Nat) (n : Int) : List Char :=
  if n < 0 then '-' :: (digits n.natAbs).leftpad (width - 1) '0'
  else (digits n.natAbs).leftpad width '0'

/-- At least `width` digits, filled up in front; a minus sign comes before them. -/
def column (width : Nat) (fill : Char) (n : Int) : List Char :=
  (if n < 0 then ['-'] else []) ++ (digits n.natAbs).leftpad width fill

def two (n : UInt8) : List Char := (digits n.toNat).leftpad 2 '0'

def hour12 (hour : UInt8) : UInt8 := (hour + 11) % 12 + 1

def meridiem (hour : UInt8) : List Char :=
  if hour < 12 then ['A', 'M'] else ['P', 'M']

def raise (n : Int) : Int :=
  if n < -1200 then raise (n + 2400) else n
termination_by (-1200 - n).toNat

def lower (n : Int) : Int :=
  if n > 1200 then lower (n - 2400) else n
termination_by (n - 1200).toNat

/-- What the local clock reads more than the UTC clock, both read as a number of four digits, and
brought to within half a day. -/
def offsetNumber (t : CivilTime) : Int :=
  let here : Int := t.hour.toNat * 100 + t.minute.toNat
  let there : Int := t.utcHour.toNat * 100 + t.utcMinute.toNat
  lower (raise (here - there))

def offsetText (t : CivilTime) : List Char :=
  let n := offsetNumber t
  (if n < 0 then '-' else '+') :: (digits n.natAbs).leftpad 4 '0'

/-- The century and the two digits after it are rounded apart: one toward zero, one down. -/
def century (year : Int) : Int := year.tdiv 100

def yearOfCentury (year : Int) : List Char := zeroPadded 2 (year % 100)

def signed (n : Int) : List Char :=
  (if n < 0 then ['-'] else []) ++ digits n.natAbs

def expand (t : CivilTime) : Char → List Char
  | 'a' => short (weekdayName t.weekday)
  | 'A' => weekdayName t.weekday
  | 'b' | 'h' => short (monthName t.month)
  | 'B' => monthName t.month
  | 'c' =>
    short (weekdayName t.weekday) ++ ' ' :: short (monthName t.month) ++ ' ' ::
      digits t.day.toNat ++ ' ' :: two t.hour ++ ':' :: two t.minute ++ ':' :: two t.second ++
      ' ' :: signed t.year
  | 'C' => column 2 ' ' (century t.year)
  | 'd' => column 2 '0' t.day.toNat
  | 'D' => two t.month ++ '/' :: two t.day ++ '/' :: yearOfCentury t.year
  | 'e' => column 2 ' ' t.day.toNat
  | 'F' => zeroPadded 4 t.year ++ '-' :: two t.month ++ '-' :: two t.day
  | 'H' => column 2 '0' t.hour.toNat
  | 'I' => column 2 '0' (hour12 t.hour).toNat
  | 'j' => column 3 '0' t.dayOfYear.toNat
  | 'k' => column 2 ' ' t.hour.toNat
  | 'l' => column 2 ' ' (hour12 t.hour).toNat
  | 'm' => two t.month
  | 'M' => two t.minute
  | 'n' => ['\n']
  | 'p' => meridiem t.hour
  | 'P' => (meridiem t.hour).map Char.toLower
  | 'r' =>
    two (hour12 t.hour) ++ ':' :: two t.minute ++ ':' :: two t.second ++ ' ' :: meridiem t.hour
  | 'R' => two t.hour ++ ':' :: two t.minute
  | 's' => signed t.unix
  | 'S' => column 2 '0' t.second.toNat
  | 't' => ['\t']
  | 'T' => two t.hour ++ ':' :: two t.minute ++ ':' :: two t.second
  | 'u' => column 1 ' ' t.weekday.toNat
  | 'V' | 'W' => column 2 '0' t.week.toNat
  | 'w' => digits (t.weekday.toNat % 7)
  | 'y' => yearOfCentury t.year
  | 'Y' => zeroPadded 4 t.year
  | 'z' => offsetText t
  | c => [c]

def format (s : String) (t : CivilTime) : String :=
  String.ofList (s.toList.flatMap (expand t))

end ScriptBuiltins.DateFormat
