import BuildBoard.Number.Binary64

/-!
# Checked arithmetic

Counters and times are signed 64-bit words, and so are the sums and differences of them. The program
checks these: it breaks off at the first one that fits no word.

Whatever calculates comes in two forms. The plain one goes on with the last 64 bits of a result
(`word`) and always gives a value. The checked one beside it is what runs; as long as it does not
break off, it gives what the plain one gives.
-/

namespace BuildBoard

/-- The number is a signed 64-bit word. -/
def FitsWord (n : Int) : Prop := int64Min ≤ n ∧ n ≤ int64Max

instance (n : Int) : Decidable (FitsWord n) := inferInstanceAs (Decidable (_ ∧ _))

theorem word_eq_self_iff (n : Int) : word n = n ↔ FitsWord n := by
  have hpow : ((Nat.pow 2 64 : Nat) : Int) = 18446744073709551616 := by decide
  unfold word Int.bmod FitsWord int64Min int64Max
  rw [hpow]
  dsimp only
  split <;> omega

theorem word_word (n : Int) : word (word n) = word n := Int.bmod_bmod

inductive Operation where
  | add | subtract
deriving DecidableEq

/-- A result before it is put into a word. -/
structure Figure where
  operation : Operation
  value : Int
deriving DecidableEq

namespace Figure

def sum (m n : Int) : Figure := ⟨.add, m + n⟩

def difference (m n : Int) : Figure := ⟨.subtract, m - n⟩

def Fits (f : Figure) : Prop := FitsWord f.value

instance (f : Figure) : Decidable f.Fits := inferInstanceAs (Decidable (FitsWord _))

/-- What the program says when it breaks off at the figure. -/
def message (f : Figure) : String :=
  match f.operation with
  | .add => "attempt to add with overflow"
  | .subtract => "attempt to subtract with overflow"

end Figure

/-- What a checked calculation gives, or the figure that it breaks off at. -/
abbrev Checked := Except Figure

/-- The figure as a word. -/
def Figure.checked (f : Figure) : Checked Int := if f.Fits then .ok f.value else .error f

example : (Figure.difference 0 int64Max).checked = .ok (-int64Max) ∧
    (Figure.difference int64Min 1).checked = .error ⟨.subtract, int64Min - 1⟩ := ⟨rfl, rfl⟩

end BuildBoard
