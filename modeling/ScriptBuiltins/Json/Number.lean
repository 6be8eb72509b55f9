import ScriptBuiltins.Decimal
import ScriptBuiltins.Json

set_option autoImplicit false

/-! An integer that fits 64 bits is read exactly. Any other number is read as a double in two steps:
the digits that fit a 64-bit word, then a power of ten; a number too large for a double is refused,
and one too small is zero. -/
namespace ScriptBuiltins.Number

structure Lexeme where
  negative : Bool
  whole : List Char
  fraction : List Char
  exponent : Option (Bool × List Char)

def digits (cs : List Char) : List Char × List Char :=
  (cs.takeWhile Char.isDigit, cs.dropWhile Char.isDigit)

def exponent? : List Char → Option (Option (Bool × List Char))
  | [] => some none
  | mark :: rest =>
    if mark ≠ 'e' ∧ mark ≠ 'E' then none
    else
      let (negative, rest) : Bool × List Char :=
        match rest with
        | '-' :: rest => (true, rest)
        | '+' :: rest => (false, rest)
        | rest => (false, rest)
      match digits rest with
      | ([], _) => none
      | (ds, []) => some (some (negative, ds))
      | _ => none

/-- The whole part and the fraction may not be empty, and the whole part has no zero in front. -/
def Lexeme.ofChars? (cs : List Char) : Option Lexeme := do
  let (negative, cs) : Bool × List Char :=
    match cs with
    | '-' :: rest => (true, rest)
    | cs => (false, cs)
  let (whole, rest) := digits cs
  if whole.isEmpty || (whole.length > 1 && whole.head? == some '0') then none
  else
    match rest with
    | '.' :: rest =>
      let (fraction, rest) := digits rest
      if fraction.isEmpty then none
      else return ⟨negative, whole, fraction, ← exponent? rest⟩
    | rest => return ⟨negative, whole, [], ← exponent? rest⟩

def greatestWord : Nat := UInt64.size - 1

/-- Appends digits to a number as long as it fits 64 bits; also the number of digits left over. -/
def appendDigits (n : Nat) : List Char → Nat × Nat
  | [] => (n, 0)
  | c :: cs =>
    let m := 10 * n + (c.toNat - '0'.toNat)
    if m ≤ greatestWord then appendDigits m cs else (n, cs.length + 1)

def greatestPower : Nat := 308

def divideByGreatest : Nat → Float → Float
  | 0, x => x
  | steps + 1, x =>
    if x == 0 then x else divideByGreatest steps (x / Float.ofScientific 1 false greatestPower)

/-- A negative exponent is worked off in steps of 308. -/
def scale? (significand : Nat) (exponent : Int) : Option Float :=
  let x := (UInt64.ofNat significand).toFloat
  if 0 ≤ exponent then
    if significand = 0 then some x
    else if exponent > greatestPower then none
    else
      let y := x * Float.ofScientific 1 false exponent.toNat
      if y.isInf then none else some y
  else
    let n := (-exponent).toNat
    let steps := (n - 1) / greatestPower
    some (divideByGreatest steps x / Float.ofScientific 1 false (n - steps * greatestPower))

def greatestExponent : Nat := 1 <<< 31 - 1

def Lexeme.double? (l : Lexeme) : Option Float :=
  let (n, wholeLeft) := appendDigits 0 l.whole
  let (n, fractionLeft) := appendDigits n l.fraction
  let shift : Int := wholeLeft - (l.fraction.length - fractionLeft : Nat)
  match l.exponent with
  | none => scale? n shift
  | some (negative, ds) =>
    let e := Nat.ofDigitChars 10 ds 0
    if e > greatestExponent then
      if n = 0 || negative then some 0 else none
    else scale? n (if negative then shift - e else shift + e)

/-- The negative zero is no integer. -/
def Lexeme.integer? (l : Lexeme) : Option Int :=
  let n := Nat.ofDigitChars 10 l.whole 0
  if l.fraction.isEmpty && l.exponent.isNone then
    if l.negative then
      if 0 < n ∧ n ≤ 1 <<< 63 then some (-n) else none
    else if n ≤ greatestWord then some n
    else none
  else none

def ofChars? (cs : List Char) : Option Number := do
  let l ← Lexeme.ofChars? cs
  match l.integer? with
  | some n => return .integer n
  | none =>
    let x ← l.double?
    return .double (if l.negative then -x else x)

/-- Decimals with a first digit worth `10 ^ -5` to `10 ^ 15` are written out, with a digit behind
the point; all others have one digit before the point and an exponent with its sign. -/
def decimalText (d : Decimal) : String :=
  let ds := Nat.toDigits 10 d.coefficient
  let first : Int := d.exponent + ds.length - 1
  String.ofList <|
    if -5 ≤ first ∧ first ≤ 15 then
      if 0 ≤ d.exponent then ds ++ List.replicate d.exponent.toNat '0' ++ ['.', '0']
      else if 0 ≤ first then ds.take (first.toNat + 1) ++ '.' :: ds.drop (first.toNat + 1)
      else '0' :: '.' :: List.replicate (-first - 1).toNat '0' ++ ds
    else
      let rest := ds.drop 1
      ds.take 1 ++ (if rest.isEmpty then [] else '.' :: rest) ++
        'e' :: (if first < 0 then '-' else '+') :: Nat.toDigits 10 first.natAbs

def doubleText (x : Float) : String :=
  let bits := x.toBits.toNat
  let b := Binary.ofBits bits
  (if 1 <<< 63 ≤ bits then "-" else "") ++
    if b.mantissa = 0 then "0.0" else decimalText b.shortest

def text : Number → String
  | integer n => toString n
  | double x => doubleText x

end ScriptBuiltins.Number
