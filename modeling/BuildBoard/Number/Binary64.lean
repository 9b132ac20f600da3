/-!
# Binary floating point, exactly

A binary64 number is a 53-bit mantissa and a power of two. Every operation here is exact
arithmetic on naturals followed by one rounding, so that the figures derived from counters (shares
of a bar, percentages, hourly rates) are values one can calculate with, not machine words.

Powers are written `Nat.pow`, which does not depend on the instances in scope.

Only finite numbers are represented. The exponent has no upper bound: nothing overflows, and
`Binary64.inRange` says whether a value is small enough to be a binary64 number proper.
-/

namespace BuildBoard

/-! ## Rounded quotients -/

/-- The integer nearest to `num / den`; a tie goes to the even neighbour. -/
def nearestEven (num den : Nat) : Nat :=
  let q := num / den
  let r := num % den
  if 2 * r < den || (2 * r == den && q % 2 == 0) then q else q + 1

example : nearestEven 5 2 = 2 ∧ nearestEven 7 2 = 4 ∧ nearestEven 8 3 = 3 := by decide

/-! ## Numbers -/

/-- The number `± mantissa * 2 ^ exponent`.

Values built by this module have `mantissa < 2 ^ 53` and `exponent ≥ -1074`, and are normal
(`2 ^ 52 ≤ mantissa`) unless the exponent is the least one; so equal numbers have equal fields. -/
structure Binary64 where
  negative : Bool
  mantissa : Nat
  exponent : Int
deriving DecidableEq, Inhabited

namespace Binary64

/-- The least exponent, that of the subnormal numbers. -/
def minExponent : Int := -1074

/-- The greatest exponent of a number that a binary64 word can hold. -/
def maxExponent : Int := 971

def zero (negative : Bool) : Binary64 := ⟨negative, 0, minExponent⟩

/-- The quotient `num / den` with `2 ^ e` divided out, still as a quotient of naturals. -/
def scaled (num den : Nat) (e : Int) : Nat × Nat :=
  if 0 ≤ e then (num, den * Nat.pow 2 e.toNat) else (num * Nat.pow 2 (-e).toNat, den)

/-- The exponent at which `num / den` has a 53-bit integer part, if `minExponent` permits. -/
def exponentOf (num den : Nat) : Int :=
  let e : Int := (num.log2 : Int) - den.log2 - 52
  let (n, d) := scaled num den e
  max minExponent (if n < d * Nat.pow 2 52 then e - 1 else e)

/-- The number nearest to `± num / den`, a tie going to the even mantissa; `den` is positive. -/
def ofRatio (negative : Bool) (num den : Nat) : Binary64 :=
  if num = 0 then zero negative
  else
    let e := exponentOf num den
    let (n, d) := scaled num den e
    let m := nearestEven n d
    if m = Nat.pow 2 53 then ⟨negative, Nat.pow 2 52, e + 1⟩
    else if m = 0 then zero negative
    else ⟨negative, m, e⟩

def ofNat (n : Nat) : Binary64 := ofRatio false n 1

def ofInt (n : Int) : Binary64 := ofRatio (decide (n < 0)) n.natAbs 1

/-- Whether the number is below the overflow threshold of a binary64 word. -/
def inRange (x : Binary64) : Bool := decide (x.exponent ≤ maxExponent)

def isZero (x : Binary64) : Bool := x.mantissa == 0

/-! ## The exact value as a quotient -/

/-- The magnitude's numerator over the denominator `x.den`. -/
def num (x : Binary64) : Nat := x.mantissa * Nat.pow 2 x.exponent.toNat

def den (x : Binary64) : Nat := Nat.pow 2 (-x.exponent).toNat

/-- The numerator with the sign on it. -/
def signedNum (x : Binary64) : Int := if x.negative then -(x.num : Int) else x.num

/-! ## Arithmetic, each with one rounding -/

def neg (x : Binary64) : Binary64 := { x with negative := !x.negative }

def mul (x y : Binary64) : Binary64 :=
  ofRatio (x.negative != y.negative) (x.num * y.num) (x.den * y.den)

/-- The quotient; `y` is not zero. -/
def div (x y : Binary64) : Binary64 :=
  ofRatio (x.negative != y.negative) (x.num * y.den) (x.den * y.num)

/-! ## To integers -/

def floor (x : Binary64) : Int := x.signedNum / x.den

def ceil (x : Binary64) : Int := -(-x.signedNum / x.den)

/-- The integer part: what stands before the point. -/
def trunc (x : Binary64) : Int := Int.tdiv x.signedNum x.den

/-- The nearest integer; a half goes away from zero. -/
def round (x : Binary64) : Int :=
  let m : Nat := (2 * x.num + x.den) / (2 * x.den)
  if x.negative then -(m : Int) else m

/-- Whether the number lies strictly between zero and one. -/
def isFraction (x : Binary64) : Bool := !x.negative && decide (0 < x.num) && decide (x.num < x.den)

end Binary64

/-! ## Machine integers -/

def int64Max : Int := 9223372036854775807

def int64Min : Int := -9223372036854775808

/-- The signed 64-bit integer nearest to `n`. -/
def saturate (n : Int) : Int := max int64Min (min int64Max n)

/-- The signed 64-bit integer with the last 64 bits of `n`. Sums and differences of counters and of
times are kept in words of this size; what does not fit one wraps around where nothing checks it. -/
def word (n : Int) : Int := Int.bmod n (Nat.pow 2 64)

example : word (int64Max + 1) = int64Min ∧ word (-5) = -5 := by decide

end BuildBoard
