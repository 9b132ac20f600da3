import BuildBoard.Document.Basic
import BuildBoard.Number.LeadingInt

/-!
# Numbers of documents

A numeral is an optional minus sign, digits without a leading zero, an optional fraction and an
optional exponent. Without fraction and exponent it is an integer if 64 bits hold it. All others
are binary numbers: as many leading digits as fit are taken into a 64-bit significand, which is
then scaled by a power of ten with one rounding for the significand and one for each scaling.
-/

namespace BuildBoard.Numeral

/-! ## The parts of a numeral -/

structure Parts where
  negative : Bool
  whole : List Char
  /-- The digits after the point, if there is a point. -/
  fraction : Option (List Char)
  exponent : Option Int

def isNumeralChar (c : Char) : Bool :=
  c.isDigit || c == '+' || c == '-' || c == '.' || c == 'e' || c == 'E'

/-- The exponent's digits after its mark, with an optional sign, up to the end of the text. -/
def exponent? (cs : List Char) : Option Int :=
  let (negative, digits) := match cs with
    | '-' :: cs => (true, cs)
    | '+' :: cs => (false, cs)
    | cs => (false, cs)
  if digits.isEmpty || !digits.all Char.isDigit then none
  else some (if negative then -(digitsValue digits : Int) else digitsValue digits)

/-- The parts of a numeral that fills the text. -/
def parts? (cs : List Char) : Option Parts := do
  let (negative, cs) := match cs with
    | '-' :: cs => (true, cs)
    | cs => (false, cs)
  let whole := cs.takeWhile Char.isDigit
  let cs := cs.dropWhile Char.isDigit
  guard (!whole.isEmpty && (whole.head? != some '0' || whole.length == 1))
  let (fraction, cs) := match cs with
    | '.' :: cs => (some (cs.takeWhile Char.isDigit), cs.dropWhile Char.isDigit)
    | cs => (none, cs)
  guard (fraction != some [])
  match cs with
  | [] => some ⟨negative, whole, fraction, none⟩
  | c :: cs =>
    guard (c == 'e' || c == 'E')
    let e ← exponent? cs
    some ⟨negative, whole, fraction, some e⟩

/-! ## Binary value -/

/-- The significand after taking in digits until one does not fit in 64 bits, and the digits from
that one on. -/
def absorb : Nat → List Char → Nat × List Char
  | n, [] => (n, [])
  | n, c :: cs =>
    let m := 10 * n + (c.toNat - '0'.toNat)
    if m < Nat.pow 2 64 then absorb m cs else (n, c :: cs)

def powerOfTen (k : Nat) : Binary64 := Binary64.ofNat (Nat.pow 10 k)

/-- The greatest power of ten that a binary number holds. -/
def maxPower : Nat := 308

/-- Division by `10 ^ k`, in steps of at most `maxPower`. -/
def scaleDown (x : Binary64) (k : Nat) : Binary64 :=
  if k ≤ maxPower then x.div (powerOfTen k)
  else if x.isZero then x
  else scaleDown (x.div (powerOfTen maxPower)) (k - maxPower)
termination_by k
decreasing_by simp only [maxPower] at *; omega

/-- `x * 10 ^ power`, unless it is out of range. -/
def scale? (x : Binary64) (power : Int) : Option Binary64 :=
  if power < 0 then some (scaleDown x power.natAbs)
  else if power.toNat ≤ maxPower then
    let y := x.mul (powerOfTen power.toNat)
    if y.inRange then some y else none
  else if x.isZero then some x else none

def double? (p : Parts) : Option Binary64 :=
  let (n, left) := absorb 0 p.whole
  let fraction := p.fraction.getD []
  let (n, unread) := absorb n fraction
  let power : Int := (left.length : Int) - (fraction.length - unread.length) + p.exponent.getD 0
  (scale? (Binary64.ofNat n) power).map fun x => if p.negative then x.neg else x

/-! ## The value -/

/-- The number of a numeral, if it is in range. -/
def value? (p : Parts) : Option Document :=
  let n := digitsValue p.whole
  if p.fraction.isNone && p.exponent.isNone && !p.negative && n < Nat.pow 2 64 then some (.int n)
  else if p.fraction.isNone && p.exponent.isNone && p.negative && 0 < n && n ≤ Nat.pow 2 63 then
    some (.int (-n))
  else (double? p).map .double

def read? (cs : List Char) : Option Document := (parts? cs).bind value?

end BuildBoard.Numeral
