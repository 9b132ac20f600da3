import BuildBoard.Document.Reader
import Mathlib.Data.List.Basic

/-!
# Literals read back

A literal may write a character in more than one way. Whatever way each character of a text is
written, the literal is read as that text, as long as each is read as its character with anything
behind it: the reader never looks at what comes after the character it takes.

Results:
1. `decode_flatMap`: a literal is read as the characters that its pieces write.
2. `writes_escapeChar`, `mem_escapeChar`: the pieces that literals are written with.
3. `parse?_literal`: a document that is one literal.
-/

namespace BuildBoard.Literal

/-! ## Definitions -/

/-- A reader that comes to the piece takes it for the character and goes on behind it. -/
def Writes (piece : List Char) (c : Char) : Prop :=
  ∀ rest, next? (piece ++ rest) = some (c, rest)

/-- The characters that have an escape of a backslash and one character. -/
def shortEscaped : List Char := ['"', '\\', '\x08', '\x0c', '\n', '\x0d', '\t']

/-! ## Pieces -/

/-- No character begins where a literal ends. -/
theorem head?_of_next? {cs : List Char} {next : Char × List Char} (h : next? cs = some next) :
    cs.head? ≠ some '"' := by
  rintro hquote
  obtain ⟨rest, rfl⟩ := List.head?_eq_some_iff.mp hquote
  cases h

theorem decode_of_next? {cs rest : List Char} {c : Char} (h : next? cs = some (c, rest)) :
    decode cs = (decode rest).map fun (s, behind) => (c :: s, behind) := by
  rw [decode, if_neg (head?_of_next? h)]
  split
  · next hnone => exact absurd (h.symm.trans hnone) (Option.some_ne_none _)
  · next hsome =>
    obtain ⟨rfl, rfl⟩ := Prod.mk.inj (Option.some.inj (h.symm.trans hsome))
    rfl

theorem decode_flatMap {write : Char → List Char} (hwrite : ∀ c, Writes (write c) c)
    (cs rest : List Char) : decode (cs.flatMap write ++ '"' :: rest) = some (cs, rest) := by
  induction cs with
  | nil =>
    rw [List.flatMap_nil, List.nil_append, decode]
    rfl
  | cons c cs ih =>
    rw [List.flatMap_cons, List.append_assoc, decode_of_next? (hwrite c _), ih]
    rfl

/-! ## The pieces that are written -/

theorem hexValue?_lowerHex {n : Nat} (h : n < 16) : hexValue? (lowerHex n) = some n := by
  have hall : ∀ n < 16, hexValue? (lowerHex n) = some n := by decide
  exact hall n h

theorem takeUnicode?_of_lt {u : Nat} (h : u < 256) (rest : List Char) :
    takeUnicode? ('0' :: '0' :: lowerHex (u / 16) :: lowerHex (u % 16) :: rest) =
      some (Char.ofNat u, rest) := by
  have hunit : unit? '0' '0' (lowerHex (u / 16)) (lowerHex (u % 16)) = some u := by
    have hzero : hexValue? '0' = some 0 := rfl
    have hdigits : ((0 * 16 + 0) * 16 + u / 16) * 16 + u % 16 = u := by omega
    simp only [unit?, hzero, hexValue?_lowerHex (show u / 16 < 16 by omega),
      hexValue?_lowerHex (show u % 16 < 16 by omega), Option.bind_eq_bind, Option.bind_some, hdigits]
  -- a unit this small is no surrogate
  have hlow : isLow u = false := by simp [isLow]; omega
  have hhigh : isHigh u = false := by simp [isHigh]; omega
  simp [takeUnicode?, takeUnit?, hunit, hlow, hhigh]

theorem writes_self {c : Char} (hquote : c ≠ '"') (hslash : c ≠ '\\') (hcontrol : 0x20 ≤ c.toNat) :
    Writes [c] c := by
  intro rest
  show next? (c :: rest) = _
  unfold next?
  dsimp only
  rw [if_neg hslash, if_neg (by simp [hquote, Nat.not_lt.mpr hcontrol])]

/-- A character has a short escape, or one by its number, or none. -/
theorem escapeChar_cases (c : Char) :
    c ∈ shortEscaped ∨
      (c.toNat < 0x20 ∧ escapeChar c =
        ['\\', 'u', '0', '0', lowerHex (c.toNat / 16), lowerHex (c.toNat % 16)]) ∨
      (c ∉ shortEscaped ∧ 0x20 ≤ c.toNat ∧ escapeChar c = [c]) := by
  by_cases hshort : c ∈ shortEscaped
  · exact .inl hshort
  refine .inr ?_
  have hescape : escapeChar c =
      if c.toNat < 0x20 then
        ['\\', 'u', '0', '0', lowerHex (c.toNat / 16), lowerHex (c.toNat % 16)]
      else [c] := by
    simp only [shortEscaped, List.mem_cons, List.not_mem_nil, or_false, not_or] at hshort
    obtain ⟨hquote, hslash, hback, hfeed, hline, hreturn, htab⟩ := hshort
    rw [escapeChar, if_neg hquote, if_neg hslash, if_neg hback, if_neg hfeed, if_neg hline,
      if_neg hreturn, if_neg htab]
  by_cases hcontrol : c.toNat < 0x20
  · exact .inl ⟨hcontrol, hescape.trans (if_pos hcontrol)⟩
  · exact .inr ⟨hshort, Nat.not_lt.mp hcontrol, hescape.trans (if_neg hcontrol)⟩

theorem writes_escapeChar (c : Char) : Writes (escapeChar c) c := by
  rcases escapeChar_cases c with hshort | ⟨hcontrol, hescape⟩ | ⟨hshort, hplain, hescape⟩
  · have hall : ∀ c ∈ shortEscaped, Writes (escapeChar c) c := by
      simp only [shortEscaped, List.forall_mem_cons]
      exact ⟨fun _ => rfl, fun _ => rfl, fun _ => rfl, fun _ => rfl, fun _ => rfl, fun _ => rfl,
        fun _ => rfl, List.forall_mem_nil _⟩
    exact hall c hshort
  · intro rest
    rw [hescape]
    show takeUnicode? ('0' :: '0' :: _ :: _ :: rest) = _
    rw [takeUnicode?_of_lt (by omega), Char.ofNat_toNat]
  · rw [hescape]
    have hne : ∀ d ∈ shortEscaped, c ≠ d := fun d hd heq => hshort (heq ▸ hd)
    exact writes_self (hne _ (by decide)) (hne _ (by decide)) hplain

/-- No control character is written, and no `<` but for itself. -/
theorem mem_escapeChar {c d : Char} (h : d ∈ escapeChar c) :
    0x20 ≤ d.toNat ∧ (d = c ∨ d ≠ '<') := by
  rcases escapeChar_cases c with hshort | ⟨hcontrol, hescape⟩ | ⟨-, hplain, hescape⟩
  · have hall : ∀ c ∈ shortEscaped, ∀ d ∈ escapeChar c, 0x20 ≤ d.toNat ∧ d ≠ '<' := by
      simp only [← List.forall_iff_forall_mem]
      decide
    exact (hall c hshort d h).imp_right .inr
  · have hall : ∀ u < 32, ∀ d ∈ ['\\', 'u', '0', '0', lowerHex (u / 16), lowerHex (u % 16)],
        0x20 ≤ d.toNat ∧ d ≠ '<' := by
      simp only [← List.forall_iff_forall_mem]
      decide
    exact (hall c.toNat hcontrol d (hescape ▸ h)).imp_right .inr
  · obtain rfl := List.mem_singleton.mp (hescape ▸ h)
    exact ⟨hplain, .inl rfl⟩

end Literal

namespace Document

theorem parse?_literal {body s : List Char} (h : Literal.decode body = some (s, [])) :
    parse? (String.ofList ('"' :: body)) = some (.text (String.ofList s)) := by
  have hscan : Token.scan ('"' :: body) = some [.text (String.ofList s)] := by
    rw [Token.scan]
    split
    · next hnone => exact absurd (h.symm.trans hnone) (Option.some_ne_none _)
    · next s' rest hsome =>
      obtain ⟨rfl, rfl⟩ := Prod.mk.inj (Option.some.inj (h.symm.trans hsome))
      rw [Token.scan]
      rfl
  rw [parse?, parseWithin, String.toList_ofList, hscan]
  rfl

end BuildBoard.Document
