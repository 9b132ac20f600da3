import BuildBoard.Text.Html
import Mathlib.Data.List.Basic

/-!
# Text without markup

A text is inert if it holds none of the characters that open or close a tag or an attribute value.
Escaped text is inert, whatever it was.

Results:
1. `inert_append`: pieces put together are inert where each piece is.
2. `inert_escape`: escaped text is inert.
-/

namespace BuildBoard.Html

/-! ## Definitions -/

/-- The characters with which a tag or an attribute value begins or ends. -/
def markupChars : List Char := ['<', '>', '"', '\'']

/-- No character of the text is one of markup. -/
def Inert (s : String) : Prop := ∀ c ∈ s.toList, c ∉ markupChars

instance (s : String) : Decidable (Inert s) :=
  List.decidableBAll (· ∉ markupChars) s.toList

/-! ## Pieces -/

theorem inert_append (s t : String) : Inert (s ++ t) ↔ Inert s ∧ Inert t := by
  simp only [Inert, String.toList_append, List.forall_mem_append]

/-! ## Escaped text -/

theorem notMem_markupChars_of_escapeChar {c d : Char} (h : d ∈ escapeChar c) : d ∉ markupChars := by
  by_cases hmarkup : c ∈ '&' :: markupChars
  · -- an entity is made of other characters
    have hentities : ('&' :: markupChars).all fun c => (escapeChar c).all (· ∉ markupChars) := by
      decide
    simp only [List.all_eq_true, decide_eq_true_eq] at hentities
    exact hentities c hmarkup d h
  · simp only [markupChars, List.mem_cons, List.not_mem_nil, or_false, not_or] at hmarkup
    obtain ⟨hamp, hlt, hgt, hquot, hapos⟩ := hmarkup
    rw [escapeChar, if_neg hamp, if_neg hlt, if_neg hgt, if_neg hquot, if_neg hapos,
      List.mem_singleton] at h
    subst h
    simp only [markupChars, List.mem_cons, List.not_mem_nil, or_false, not_or]
    exact ⟨hlt, hgt, hquot, hapos⟩

theorem inert_escape (s : String) : Inert (escape s) := by
  intro d hd
  rw [escape, String.toList_ofList, escapeChars, List.mem_flatMap] at hd
  obtain ⟨c, -, hc⟩ := hd
  exact notMem_markupChars_of_escapeChar hc

end BuildBoard.Html
