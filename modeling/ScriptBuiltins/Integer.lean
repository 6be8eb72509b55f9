import ScriptBuiltins.Text.Blank

set_option autoImplicit false

namespace ScriptBuiltins.Integer

def least : Int := -(1 <<< 63)

def greatest : Int := 1 <<< 63 - 1

def clamp (n : Int) : Int := max least (min greatest n)

/-- One more digit behind `n`, away from zero. Each of the two steps stops at the bounds. -/
def appendDigit (negative : Bool) (n : Int) (digit : Char) : Int :=
  let d : Int := (digit.toNat - '0'.toNat : Nat)
  clamp (clamp (n * 10) + if negative then -d else d)

def ofDigits (negative : Bool) (digits : List Char) : Int :=
  digits.foldl (appendDigit negative) 0

def splitSign : List Char → Bool × List Char
  | '-' :: rest => (true, rest)
  | '+' :: rest => (false, rest)
  | cs => (false, cs)

/-- Blanks around the text count for nothing, and so does what follows the digits. A text without
digits is zero. -/
def ofText (s : String) : Int :=
  let (negative, rest) := splitSign (Text.trim s.toList)
  ofDigits negative (rest.takeWhile Char.isDigit)

end ScriptBuiltins.Integer
