import BuildBoard.Number.Binary64
import BuildBoard.Text.Blank

/-!
# Leading integers

Counters arrive as text such as `12`, ` 12 packages` or `n/a`. Their value is the integer that
the text begins with: after white space, one optional sign and a run of decimal digits.
-/

namespace BuildBoard

/-- The number a run of decimal digits denotes. -/
def digitsValue (digits : List Char) : Nat :=
  digits.foldl (fun n c => 10 * n + (c.toNat - '0'.toNat)) 0

example : digitsValue ['0', '4', '2'] = 42 := by decide

/-- The digits that the text begins with, if there are any and a signed 64-bit integer holds the
number. -/
def leadingMagnitude? (cs : List Char) : Option Nat :=
  let digits := cs.takeWhile Char.isDigit
  if digits.isEmpty then none
  else if digitsValue digits < Nat.pow 2 63 then some (digitsValue digits)
  else none

/-- The digits are read up to the first other character. -/
theorem leadingMagnitude?_append {digits rest : List Char} (hdigits : ∀ c ∈ digits, c.isDigit)
    (hrest : ∀ c ∈ rest.head?, ¬ c.isDigit) :
    leadingMagnitude? (digits ++ rest) =
      if digits = [] then none
      else if digitsValue digits < Nat.pow 2 63 then some (digitsValue digits)
      else none := by
  have hstop : rest.takeWhile Char.isDigit = [] := by
    cases rest with
    | nil => rfl
    | cons c rest => exact List.takeWhile_cons_of_neg (hrest c rfl)
  have hrun : (digits ++ rest).takeWhile Char.isDigit = digits := by
    rw [List.takeWhile_append_of_pos hdigits, hstop, List.append_nil]
  simp only [leadingMagnitude?, hrun, List.isEmpty_iff]

/-- The integer that the text begins with. -/
def leadingInt? (s : String) : Option Int :=
  match s.toList.dropWhile isBlank with
  | '-' :: cs => (leadingMagnitude? cs).map fun n => -(n : Int)
  | '+' :: cs => (leadingMagnitude? cs).map fun n => (n : Int)
  | cs => (leadingMagnitude? cs).map fun n => (n : Int)

/-! ## The sign before the digits -/

namespace LeadingInt

/-- What may stand before the digits. -/
inductive Sign where
  | absent
  | plus
  | minus

def Sign.chars : Sign → List Char
  | .absent => []
  | .plus => ['+']
  | .minus => ['-']

def Sign.factor : Sign → Int
  | .absent | .plus => 1
  | .minus => -1

/-- The characters are a sign and a rest, which begins with no other sign where there is none. -/
structure Signed (cs : List Char) (sign : Sign) (rest : List Char) : Prop where
  text : cs = sign.chars ++ rest
  unsigned : sign = .absent → ∀ c ∈ rest.head?, c ≠ '-' ∧ c ≠ '+'

theorem exists_signed (cs : List Char) : ∃ sign rest, Signed cs sign rest := by
  cases cs with
  | nil => exact ⟨.absent, [], rfl, nofun⟩
  | cons c cs =>
    by_cases hminus : c = '-'
    · exact ⟨.minus, cs, by rw [hminus]; rfl, nofun⟩
    by_cases hplus : c = '+'
    · exact ⟨.plus, cs, by rw [hplus]; rfl, nofun⟩
    refine ⟨.absent, c :: cs, rfl, fun _ d hd => ?_⟩
    obtain rfl : c = d := Option.some.inj hd
    exact ⟨hminus, hplus⟩

theorem ne_sign_of_isDigit {c : Char} (h : c.isDigit) : c ≠ '-' ∧ c ≠ '+' := by
  constructor
  · rintro rfl
    exact absurd h (by decide)
  · rintro rfl
    exact absurd h (by decide)

/-- The number of the digits that follow the sign, with that sign. -/
theorem leadingInt?_of_signed {s : String} {sign : Sign} {rest : List Char}
    (h : Signed (s.toList.dropWhile isBlank) sign rest) :
    leadingInt? s = (leadingMagnitude? rest).map fun n : Nat => sign.factor * (n : Int) := by
  unfold leadingInt?
  rw [h.text]
  cases sign with
  | absent =>
    split
    · next heq => exact absurd rfl (h.unsigned rfl '-' (congrArg List.head? heq)).1
    · next heq => exact absurd rfl (h.unsigned rfl '+' (congrArg List.head? heq)).2
    · cases hread : leadingMagnitude? rest <;> simp [Sign.chars, Sign.factor, hread]
  | plus => cases hread : leadingMagnitude? rest <;> simp [Sign.chars, Sign.factor, hread]
  | minus => cases hread : leadingMagnitude? rest <;> simp [Sign.chars, Sign.factor, hread]

end LeadingInt

end BuildBoard
