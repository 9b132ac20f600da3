import BuildBoard.Number.Binary64

/-!
# Shortest decimals

The shortest decimal of a binary64 number is, among the decimals that read back as that number,
one with the fewest digits, and of those the nearest to it.

The search goes grid by grid: with `k` digits only the two neighbours of the number on the grid of
`k`-digit decimals can be the nearest, and if any decimal of that grid reads back, one of those two
does. Seventeen digits always suffice.
-/

namespace BuildBoard

/-- The number `digits * 10 ^ power`. -/
structure Decimal where
  digits : Nat
  power : Int
deriving DecidableEq, Inhabited

namespace Decimal

/-- The same number without trailing zeros in `digits`. -/
def stripped : Nat → Decimal → Decimal
  | 0, d => d
  | fuel + 1, d =>
    if d.digits ≠ 0 && d.digits % 10 == 0 then stripped fuel ⟨d.digits / 10, d.power + 1⟩ else d

end Decimal

namespace Binary64

/-! ## The interval that reads back -/

/-- The bounds of the reals that round to `mantissa * 2 ^ exponent`, in quarters of the last
place. The gap below a power of two is half as wide. -/
def bounds (x : Binary64) : Nat × Nat :=
  let narrow := x.mantissa = Nat.pow 2 52 ∧ minExponent < x.exponent
  (if narrow then 4 * x.mantissa - 1 else 4 * x.mantissa - 2, 4 * x.mantissa + 2)

/-- Whether the decimal `n * 10 ^ power` reads back as the magnitude of `x`. The bounds
themselves do when the mantissa is even. -/
def readsBack (x : Binary64) (n : Nat) (power : Int) : Bool :=
  let (low, high) := x.bounds
  -- compare n * 10 ^ power with bound * 2 ^ (exponent - 2)
  let ten := n * Nat.pow 10 power.toNat * Nat.pow 2 (2 - x.exponent).toNat
  let two := Nat.pow 10 (-power).toNat * Nat.pow 2 (x.exponent - 2).toNat
  if x.mantissa % 2 == 0 then low * two ≤ ten && ten ≤ high * two
  else low * two < ten && ten < high * two

/-! ## The search -/

/-- The exponent of the first significant decimal digit of the magnitude of a non-zero number. -/
def leadingPower (x : Binary64) : Int :=
  if x.den ≤ x.num then ((Nat.toDigits 10 (x.num / x.den)).length : Int) - 1
  else -((Nat.toDigits 10 ((x.den - 1) / x.num)).length : Int)

/-- The better of the two neighbours of `x` on the grid of multiples of `10 ^ power`, if one reads
back; `even` settles a tie in favour of the even digit, otherwise it goes away from zero. -/
def onGrid (x : Binary64) (even : Bool) (power : Int) : Option Nat :=
  let num := x.num * Nat.pow 10 (-power).toNat
  let den := x.den * Nat.pow 10 power.toNat
  let below := num / den
  let above := below + 1
  let low := x.readsBack below power && below != 0
  let high := x.readsBack above power
  let twice := 2 * (num % den)
  let down := twice < den || (twice == den && even && below % 2 == 0)
  match low, high with
  | true, true => some (if down then below else above)
  | true, false => some below
  | false, true => some above
  | false, false => none

/-- The first hit among the grids of `k`, `k + 1`, … digits. -/
def searchGrids (x : Binary64) (even : Bool) (lead : Int) : Nat → Nat → Decimal
  | 0, k =>
    let power := lead - ((k : Int) - 1)
    ⟨(x.num * Nat.pow 10 (-power).toNat) / (x.den * Nat.pow 10 power.toNat), power⟩
  | left + 1, k =>
    let power := lead - ((k : Int) - 1)
    match x.onGrid even power with
    | some n => ⟨n, power⟩
    | none => searchGrids x even lead left (k + 1)

/-- The shortest decimal of the magnitude of `x`. -/
def shortest (x : Binary64) (even : Bool) : Decimal :=
  if x.mantissa = 0 then ⟨0, 0⟩
  else Decimal.stripped 17 (x.searchGrids even x.leadingPower 17 1)

end Binary64

end BuildBoard
