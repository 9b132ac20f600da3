import BuildBoard.Number.Shortest

/-!
# Writing numbers

Integers are written in plain decimal digits. Binary numbers are written with their shortest
digits, arranged by a `NumberStyle`: plain text never shows an exponent, document text shows one
outside a fixed range.
-/

namespace BuildBoard

/-! ## Integers -/

/-- The decimal digits of a natural number. -/
def decimalDigits (n : Nat) : List Char := Nat.toDigits 10 n

/-- The decimal digits, after a minus sign when negative. -/
def decimalText (n : Int) : String :=
  String.ofList (if n < 0 then '-' :: decimalDigits n.natAbs else decimalDigits n.natAbs)

/-- The digits, filled with zeros on the left to at least `width`. -/
def paddedDigits (width n : Nat) : List Char :=
  let digits := decimalDigits n
  List.replicate (width - digits.length) '0' ++ digits

example : paddedDigits 2 7 = ['0', '7'] ∧ paddedDigits 2 123 = ['1', '2', '3'] := by decide

/-! ## Binary numbers -/

/-- How a shortest decimal is laid out. -/
structure NumberStyle where
  /-- The powers of ten of the first digit between which no exponent is shown; `none`: never. -/
  positional : Option (Int × Int)
  /-- What follows a whole number written without exponent. -/
  afterWhole : List Char
  /-- Of two shortest decimals equally near, take the one with the even last digit, or the
  greater one. -/
  tieToEven : Bool

/-- Text fields: `1`, `0.0000001`, `100000000000000000000`. -/
def plainStyle : NumberStyle := ⟨none, [], false⟩

/-- Document numbers: `1.0`, `1e-7`, `1e+20`. -/
def documentStyle : NumberStyle := ⟨some (-5, 15), ['.', '0'], true⟩

namespace NumberStyle

/-- The digits with a point put in where `power` says. -/
def positionalText (style : NumberStyle) (digits : List Char) (power : Int) : List Char :=
  let point := digits.length + power
  if 0 ≤ power then digits ++ List.replicate power.toNat '0' ++ style.afterWhole
  else if 0 < point then digits.take point.toNat ++ '.' :: digits.drop point.toNat
  else '0' :: '.' :: List.replicate (-point).toNat '0' ++ digits

/-- One digit before the point, and the power of ten of that digit with its sign. -/
def exponentText (digits : List Char) (lead : Int) : List Char :=
  let fraction := match digits.drop 1 with
    | [] => []
    | rest => '.' :: rest
  digits.take 1 ++ fraction ++
    'e' :: (if lead < 0 then '-' else '+') :: decimalDigits lead.natAbs

def text (style : NumberStyle) (x : Binary64) : String :=
  let d := x.shortest style.tieToEven
  let digits := decimalDigits d.digits
  let lead := d.power + digits.length - 1
  let body := match style.positional with
    | none => style.positionalText digits d.power
    | some (low, high) =>
      if low ≤ lead && lead ≤ high then style.positionalText digits d.power
      else exponentText digits lead
  String.ofList (if x.negative then '-' :: body else body)

end NumberStyle

/-! ## Characters -/

/-- A character that a number is written with. -/
def IsNumberChar (c : Char) : Prop := c.isDigit ∨ c ∈ ['-', '+', '.', 'e']

instance (c : Char) : Decidable (IsNumberChar c) := inferInstanceAs (Decidable (_ ∨ _))

/-- Only characters of numbers. -/
def IsNumberText (cs : List Char) : Prop := ∀ c ∈ cs, IsNumberChar c

namespace IsNumberText

variable {cs ds : List Char}

theorem nil : IsNumberText [] := nofun

theorem cons {c : Char} (hc : IsNumberChar c) (h : IsNumberText cs) : IsNumberText (c :: cs) :=
  List.forall_mem_cons.mpr ⟨hc, h⟩

theorem append (hcs : IsNumberText cs) (hds : IsNumberText ds) : IsNumberText (cs ++ ds) :=
  List.forall_mem_append.mpr ⟨hcs, hds⟩

theorem take (h : IsNumberText cs) (n : Nat) : IsNumberText (cs.take n) :=
  fun c hc => h c (List.mem_of_mem_take hc)

theorem drop (h : IsNumberText cs) (n : Nat) : IsNumberText (cs.drop n) :=
  fun c hc => h c (List.mem_of_mem_drop hc)

theorem zeros (n : Nat) : IsNumberText (List.replicate n '0') := by
  intro c hc
  rw [List.eq_of_mem_replicate hc]
  decide

theorem decimalDigits (n : Nat) : IsNumberText (decimalDigits n) :=
  fun _ hc => .inl (Nat.isDigit_of_mem_toDigits (by decide) (by decide) hc)

end IsNumberText

theorem isNumberText_decimalText (n : Int) : IsNumberText (decimalText n).toList := by
  rw [decimalText, String.toList_ofList]
  split
  · exact .cons (by decide) (.decimalDigits _)
  · exact .decimalDigits _

namespace NumberStyle

theorem isNumberText_positionalText {style : NumberStyle} (hafter : IsNumberText style.afterWhole)
    {digits : List Char} (hdigits : IsNumberText digits) (power : Int) :
    IsNumberText (style.positionalText digits power) := by
  unfold positionalText
  dsimp only
  split
  · exact (hdigits.append (.zeros _)).append hafter
  · split
    · exact (hdigits.take _).append (.cons (by decide) (hdigits.drop _))
    · exact .append (.cons (by decide) (.cons (by decide) (.zeros _))) hdigits

theorem isNumberText_exponentText {digits : List Char} (hdigits : IsNumberText digits)
    (lead : Int) : IsNumberText (exponentText digits lead) := by
  have hfraction : IsNumberText (match digits.drop 1 with | [] => [] | rest => '.' :: rest) := by
    split
    · exact .nil
    · exact .cons (by decide) (hdigits.drop 1)
  have hsign : IsNumberChar (if lead < 0 then '-' else '+') := by split <;> decide
  exact ((hdigits.take 1).append hfraction).append
    (.cons (by decide) (.cons hsign (.decimalDigits _)))

theorem isNumberText_text {style : NumberStyle} (hafter : IsNumberText style.afterWhole)
    (x : Binary64) : IsNumberText (style.text x).toList := by
  have hdigits := IsNumberText.decimalDigits (x.shortest style.tieToEven).digits
  have hsigned {body : List Char} (hbody : IsNumberText body) :
      IsNumberText (if x.negative then '-' :: body else body) := by
    split
    · exact .cons (by decide) hbody
    · exact hbody
  rw [text, String.toList_ofList]
  refine hsigned ?_
  split
  · exact isNumberText_positionalText hafter hdigits _
  · split
    · exact isNumberText_positionalText hafter hdigits _
    · exact isNumberText_exponentText hdigits _

end NumberStyle

end BuildBoard
