set_option autoImplicit false

/-! The shortest decimal of a binary number: of the decimals that are nearer to a double than to any
other double, the one with the fewest digits, and of those the nearest. -/
namespace ScriptBuiltins

structure Decimal where
  coefficient : Nat
  exponent : Int
deriving DecidableEq, Repr

/-- The size of a finite double: `mantissa * 2 ^ exponent`. -/
structure Binary where
  mantissa : Nat
  exponent : Int
  /-- The double below lies only half as far away as the double above. -/
  closeBelow : Bool
deriving DecidableEq, Repr

def Binary.ofBits (bits : Nat) : Binary :=
  let fraction : Nat := bits % 1 <<< 52
  let exponent : Nat := bits >>> 52 % 1 <<< 11
  if exponent = 0 then ⟨fraction, -1074, false⟩
  else ⟨1 <<< 52 + fraction, (exponent : Int) - 1075, fraction == 0 && exponent > 1⟩

/-- Multiples of a quarter of the unit of a binary number, in multiples of `10 ^ k`: the number
that `n` quarters are is `n * scale / unit`. -/
structure Grid where
  scale : Nat
  unit : Nat

def Binary.grid (b : Binary) (k : Int) : Grid :=
  let e := b.exponent - 2
  ⟨1 <<< e.toNat * Nat.pow 10 (-k).toNat, 1 <<< (-e).toNat * Nat.pow 10 k.toNat⟩

/-- Halfway between two doubles counts for the one with the even mantissa. -/
def Binary.isNearest (b : Binary) (g : Grid) (n : Nat) : Bool :=
  let low := (4 * b.mantissa - if b.closeBelow then 1 else 2) * g.scale
  let high := (4 * b.mantissa + 2) * g.scale
  let point := n * g.unit
  if b.mantissa % 2 = 0 then low ≤ point && point ≤ high else low < point && point < high

def Binary.onGrid? (b : Binary) (g : Grid) : Option Nat :=
  let exact := 4 * b.mantissa * g.scale
  let below := exact / g.unit
  match b.isNearest g below && 0 < below, b.isNearest g (below + 1) with
  | true, true =>
    let left := exact - below * g.unit
    let right := (below + 1) * g.unit - exact
    if left < right || (left == right && below % 2 == 0) then some below else some (below + 1)
  | true, false => some below
  | false, true => some (below + 1)
  | false, false => none

def Binary.search (b : Binary) : Nat → Int → Decimal
  | 0, k => ⟨4 * b.mantissa * (b.grid k).scale / (b.grid k).unit, k⟩
  | steps + 1, k =>
    match b.onGrid? (b.grid k) with
    | some n => ⟨n, k⟩
    | none => b.search steps (k - 1)

/-- The first grid is coarser than the number; seventeen digits always suffice. -/
def Binary.shortest (b : Binary) : Decimal :=
  let bits : Int := b.exponent + b.mantissa.log2 + 1
  b.search 20 (bits * 30103 / 100000 + 1)

end ScriptBuiltins
