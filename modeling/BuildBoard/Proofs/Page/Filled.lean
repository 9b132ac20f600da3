import BuildBoard.Frame
import BuildBoard.Proofs.Text.Template

/-!
# Filled pages

A page is the template with its eight slots filled, and nothing else is done to it: whatever the
data of a build are, braces in them are shown as braces.

Results:
1. `pageTemplate_woven`: the template is text without any opening pair of braces between eight
   slots, two of them for the title.
2. `filled_in_one_pass`: how templates are filled, and what pages are for that reason.
-/

namespace BuildBoard

open Template
open Html (escape)

/-! ## Definitions -/

/-- The slots of the page template in their order. -/
def pageSlots : List String :=
  ["REFRESH", "TITLE", "COLUMN_WIDTH", "TITLE", "OVERLAY", "CONTENT", "UPDATED", "SCRIPT"]

def isPageSlot (name : List Char) : Bool := pageSlots.any (·.toList = name)

/-- The slots as they stand in the template. -/
def pagePlaceholders : List (List Char) := pageSlots.map fun name => placeholder name.toList

namespace Frame

/-- What is put into the slots of the page template, in their order. -/
def inserts (style : PageStyle) (updated : String) (frame : Frame) : List String :=
  [frame.refreshTag style, escape frame.title, decimalText style.columnWidth, escape frame.title,
    frame.overlayText, frame.content, updated, frame.script]

end Frame

/-- The literal texts of a page template. -/
def pageTexts (cs : List Char) : List (List Char) :=
  (split isPageSlot cs).filterMap fun
    | .literal text => some text
    | .slot _ => none

/-! ## The page template -/

theorem toList_append_of {s t : String} {cs ds : List Char} (hs : s.toList = cs)
    (ht : t.toList = ds) : (s ++ t).toList = cs ++ ds := by
  rw [String.toList_append, hs, ht]

theorem woven_of_toList {s : String} {cs : List Char} (hs : s.toList = cs)
    (hcs : (pageTexts cs).length = 9 ∧ (∀ text ∈ pageTexts cs, Plain '{' text) ∧
      cs = woven (pageTexts cs) pagePlaceholders) :
    ∃ texts : List (List Char), texts.length = 9 ∧ (∀ text ∈ texts, Plain '{' text) ∧
      s.toList = woven texts pagePlaceholders :=
  ⟨pageTexts cs, hcs.1, hcs.2.1, hs.trans hcs.2.2⟩

theorem pageTemplate_woven :
    ∃ texts : List (List Char), texts.length = 9 ∧ (∀ text ∈ texts, Plain '{' text) ∧
      pageTemplate.toList = woven texts pagePlaceholders := by
  apply woven_of_toList
  case hs =>
    -- The characters come from the literals of the template, one by one.
    unfold pageTemplate
    repeat' first | with_reducible apply toList_append_of | (rw [String.toList_ofList])
  case hcs => decide +kernel

/-! ## Values of slots -/

variable {style : PageStyle} {updated : String} {frame : Frame}

theorem isPageSlot_iff {name : List Char} :
    isPageSlot name = true ↔ ∃ slot ∈ pageSlots, slot.toList = name := by
  simp only [isPageSlot, List.any_eq_true, decide_eq_true_eq]

theorem isSome_slotValue (name : List Char) :
    (frame.slotValue style updated name).isSome = isPageSlot name := by
  rw [Bool.eq_iff_iff, isPageSlot_iff]
  simp only [Frame.slotValue, pageSlots, List.exists_mem_cons_iff, List.not_mem_nil, false_and,
    exists_false, or_false, @eq_comm _ name]
  split_ifs <;> simp only [*, Option.isSome_some, Option.isSome_none, true_or, or_true, or_self,
    Bool.false_eq_true]

theorem map_slotValue :
    pageSlots.map (fun name => ((frame.slotValue style updated name.toList).getD "").toList) =
      (frame.inserts style updated).map String.toList := by
  simp only [pageSlots, Frame.inserts, Frame.slotValue, List.map_cons, List.map_nil,
    String.toList_inj, String.reduceEq, if_true, if_false, Option.getD_some]

theorem page_woven {texts : List (List Char)} (hlength : texts.length = 9)
    (htexts : ∀ text ∈ texts, Plain '{' text)
    (htemplate : pageTemplate.toList = woven texts pagePlaceholders) :
    (frame.page style updated).toList =
      woven texts ((frame.inserts style updated).map String.toList) := by
  have hnames : ∀ name ∈ pageSlots.map String.toList, Plain '}' name ∧ isPageSlot name = true := by
    decide +kernel
  have hfill := @fill_woven isPageSlot (frame.slotValue style updated) texts
    (pageSlots.map String.toList) hlength htexts hnames
  rw [List.map_map, List.map_map] at hfill
  rw [Frame.page, fill, String.toList_ofList, htemplate, funext isSome_slotValue]
  exact hfill.trans (congrArg (woven texts) map_slotValue)

/-! ## Main result -/

/-- What a template is cut into is decided by the template and by the names that have values. The
pieces are the template, with a slot only for a name that has a value; the outcome is the literal
pieces and the values as they are, and the same as what a single pass writes. So a page consists of
the nine texts between the slots of its template and of what is inserted there. -/
theorem filled_in_one_pass :
    (∀ (template : String) (known : List Char → Bool),
      (split known template.toList).flatMap Piece.source = template.toList ∧
      ∀ value : List Char → Option String, (∀ name, (value name).isSome = known name) →
        (∀ name, .slot name ∈ split known template.toList →
          ∃ text, value name = some text ∧ (Piece.slot name).fill value = text.toList) ∧
        (fill template value).toList = (split known template.toList).flatMap (Piece.fill value) ∧
        (fill template value).toList = scan value template.toList) ∧
    (∀ (template : String) (value : List Char → Option String),
      (∀ name, value name = none) → fill template value = template) ∧
    ∃ texts : List (List Char), texts.length = 9 ∧ (∀ text ∈ texts, Plain '{' text) ∧
      pageTemplate.toList = woven texts pagePlaceholders ∧
      ∀ (style : PageStyle) (updated : String) (frame : Frame),
        (frame.page style updated).toList =
          woven texts ((frame.inserts style updated).map String.toList) := by
  refine ⟨fun template known => ⟨source_split known _, fun value hvalue => ⟨?_, ?_, ?_⟩⟩,
    fun template value hnone => fill_of_none template hnone, ?_⟩
  · intro name hslot
    have hsome := known_of_slot_mem hslot
    rw [← hvalue name] at hsome
    obtain ⟨text, htext⟩ := Option.isSome_iff_exists.1 hsome
    exact ⟨text, htext, by simp [Piece.fill, htext]⟩
  · rw [fill, String.toList_ofList, funext hvalue]
  · rw [fill_eq_scan, String.toList_ofList]
  · obtain ⟨texts, hlength, htexts, htemplate⟩ := pageTemplate_woven
    exact ⟨texts, hlength, htexts, htemplate,
      fun style updated frame => page_woven hlength htexts htemplate⟩

/-- A value with braces, braces that are never closed, and a name without a value up to the end of
a slot. -/
theorem filled_with_braces :
    (fill "\x7b\x7bX\x7d\x7d \x7b\x7bU \x7b\x7bY\x7d\x7d \x7b\x7b" fun name =>
        if name = ['X'] then some "\x7b\x7bY\x7d\x7d" else if name = ['Y'] then some "y"
        else none).toList = "\x7b\x7bY\x7d\x7d \x7b\x7bU y \x7b\x7b".toList ∧
      fill "\x7b\x7bX\x7d\x7d \x7b\x7b" (fun _ => none) = "\x7b\x7bX\x7d\x7d \x7b\x7b" := by
  refine ⟨?_, filled_in_one_pass.2.1 _ _ fun _ => rfl⟩
  have hvalues : ∀ name : List Char,
      (if name = ['X'] then some "\x7b\x7bY\x7d\x7d" else if name = ['Y'] then some "y"
        else none : Option String).isSome = (name = ['X'] || name = ['Y'] : Bool) := by
    intro name
    split_ifs <;> simp_all
  exact ((filled_in_one_pass.1 _ _).2 _ hvalues).2.1.trans (by decide +kernel)

end BuildBoard
