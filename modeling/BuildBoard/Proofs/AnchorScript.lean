import BuildBoard.Frame
import BuildBoard.Proofs.Document.Literal
import BuildBoard.Proofs.Text.Entities

/-!
# The script of an anchor

The anchor of a page comes from outside and goes into a script, where entities mean nothing. It is
written as a literal, and then each `<` in the literal is replaced by an escape. The replacement does
not break another escape, since none is written with a `<`. So the literal is still read as the
anchor, and there is nothing in it that could end the script.

Results:
1. `anchorLiteral_eq`: the literal, character by character.
2. `writes_scriptPiece`: each character of the target is read back from its piece.
3. `mem_scriptPiece`: no piece has a `<` or a control character.
4. `anchor_script`: all of it for the whole fragment.
-/

namespace BuildBoard

open Literal

/-! ## Definitions -/

/-- What is written for a character inside a script: the escapes of literals, and one for `<`. -/
def scriptPiece (c : Char) : List Char :=
  (escapeChar c).flatMap fun c => if c = '<' then "\\u003c".toList else [c]

/-- Where the script jumps to: the anchor behind one `#`. -/
def anchorTarget (anchor : String) : String :=
  String.ofList ('#' :: anchor.toList.dropWhile (· == '#'))

/-! ## The literal -/

theorem scriptPiece_of_lt : scriptPiece '<' = "\\u003c".toList := by decide

theorem scriptPiece_of_ne {c : Char} (h : c ≠ '<') : scriptPiece c = escapeChar c := by
  have hne : ∀ d ∈ escapeChar c, d ≠ '<' := fun d hd =>
    (mem_escapeChar hd).2.elim (fun heq => heq ▸ h) id
  have hself : ∀ d ∈ escapeChar c, (if d = '<' then "\\u003c".toList else [d]) = [d] :=
    fun d hd => if_neg (hne d hd)
  rw [scriptPiece, List.flatMap_congr hself, List.flatMap_singleton']

theorem anchorLiteral_eq (anchor : String) :
    anchorLiteral anchor = '"' :: ((anchorTarget anchor).toList.flatMap scriptPiece ++ ['"']) := by
  have htarget : (anchorTarget anchor).toList = '#' :: anchor.toList.dropWhile (· == '#') :=
    String.toList_ofList
  unfold anchorLiteral encode
  rw [htarget, List.flatMap_cons, List.flatMap_append, List.flatMap_assoc]
  rfl

theorem writes_scriptPiece (c : Char) : Writes (scriptPiece c) c := by
  by_cases h : c = '<'
  · subst h
    rw [scriptPiece_of_lt]
    exact fun rest => rfl
  · rw [scriptPiece_of_ne h]
    exact writes_escapeChar c

theorem mem_scriptPiece {c d : Char} (h : d ∈ scriptPiece c) : d ≠ '<' ∧ 0x20 ≤ d.toNat := by
  by_cases hlt : c = '<'
  · subst hlt
    have hescape : ∀ d ∈ "\\u003c".toList, d ≠ '<' ∧ 0x20 ≤ d.toNat :=
      List.forall_iff_forall_mem.mp (by decide)
    exact hescape d (scriptPiece_of_lt ▸ h)
  · rw [scriptPiece_of_ne hlt] at h
    obtain ⟨hcontrol, hself⟩ := mem_escapeChar h
    exact ⟨hself.elim (fun heq => heq ▸ hlt) id, hcontrol⟩

theorem mem_anchorLiteral {anchor : String} {c : Char} (h : c ∈ anchorLiteral anchor) :
    c ≠ '<' ∧ 0x20 ≤ c.toNat := by
  rw [anchorLiteral_eq, List.mem_cons, List.mem_append, List.mem_singleton] at h
  rcases h with rfl | h | rfl
  · decide
  · obtain ⟨d, -, hd⟩ := List.mem_flatMap.mp h
    exact mem_scriptPiece hd
  · decide

theorem parse?_anchorLiteral (anchor : String) :
    Document.parse? (String.ofList (anchorLiteral anchor)) = some (.text (anchorTarget anchor)) := by
  rw [anchorLiteral_eq, Document.parse?_literal (decode_flatMap writes_scriptPiece _ []),
    String.ofList_toList]

/-! ## The fragment -/

/-- Between its two tags the fragment has no `<`. -/
theorem exists_scrollScript (anchor : String) :
    ∃ inside, '<' ∉ inside ∧
      (scrollScript anchor).toList = '<' :: (inside ++ "</script>".toList) := by
  refine ⟨"script>window.location.hash = ".toList ++ anchorLiteral anchor ++ [';'], ?_, ?_⟩
  · have hfront : '<' ∉ "script>window.location.hash = ".toList := by decide
    simp only [List.mem_append, not_or]
    exact ⟨⟨hfront, fun h => (mem_anchorLiteral h).1 rfl⟩, by decide⟩
  · unfold scrollScript
    simp

theorem lt_of_scrollScript {anchor : String} {rest : List Char}
    (h : '<' :: rest <:+ (scrollScript anchor).toList) :
    '<' :: rest = (scrollScript anchor).toList ∨ '<' :: rest = "</script>".toList := by
  obtain ⟨inside, hinside, hlist⟩ := exists_scrollScript anchor
  rw [hlist] at h ⊢
  rcases List.suffix_cons_iff.mp h with hwhole | hbehind
  · exact .inl hwhole
  · have hclosing : '<' :: rest <:+ '<' :: "/script>".toList :=
      Html.suffix_of_suffix_append hinside hbehind
    rcases List.suffix_cons_iff.mp hclosing with htag | hlater
    · exact .inr htag
    · exact absurd (hlater.subset List.mem_cons_self) (by decide)

/-- The script jumps to the anchor, whatever the anchor is. What stands in the script is one literal
without `<` and control characters, which is read as `#` and the anchor without any `#` before it. So
the fragment has no tags but the two of the script. -/
theorem anchor_script (anchor : String) :
    ∃ literal : String,
      scrollScript anchor = "<script>window.location.hash = " ++ literal ++ ";</script>" ∧
      (∀ c ∈ literal.toList, c ≠ '<' ∧ 0x20 ≤ c.toNat) ∧
      Document.parse? literal = some (.text (anchorTarget anchor)) ∧
      ∀ rest, '<' :: rest <:+ (scrollScript anchor).toList →
        '<' :: rest = (scrollScript anchor).toList ∨ '<' :: rest = "</script>".toList := by
  refine ⟨String.ofList (anchorLiteral anchor), rfl, fun c hc => ?_, parse?_anchorLiteral anchor,
    fun rest hrest => lt_of_scrollScript hrest⟩
  rw [String.toList_ofList] at hc
  exact mem_anchorLiteral hc

/-- An anchor that would end the script, with a backslash before a `<`, a line break and a quote. -/
theorem script_of_hostile_anchor :
    let anchor := "##</script>\\<\n\""
    scrollScript anchor =
        "<script>window.location.hash = \"#\\u003c/script>\\\\\\u003c\\n\\\"\";</script>" ∧
      ∃ literal : String,
        scrollScript anchor = "<script>window.location.hash = " ++ literal ++ ";</script>" ∧
        (∀ c ∈ literal.toList, c ≠ '<' ∧ 0x20 ≤ c.toNat) ∧
        Document.parse? literal = some (.text "#</script>\\<\n\"") ∧
        ∀ rest, '<' :: rest <:+ (scrollScript anchor).toList →
          '<' :: rest = (scrollScript anchor).toList ∨ '<' :: rest = "</script>".toList := by
  intro anchor
  obtain ⟨literal, hscript, hchars, hread, htags⟩ := anchor_script anchor
  have htarget : anchorTarget anchor = "#</script>\\<\n\"" := by decide +kernel
  exact ⟨by decide +kernel, literal, hscript, hchars, htarget ▸ hread, htags⟩

end BuildBoard
