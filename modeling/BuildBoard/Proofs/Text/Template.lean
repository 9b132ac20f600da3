import BuildBoard.Text.Template
import Mathlib.Data.List.Infix

/-!
# Cutting and filling

A template is cut into pieces before anything is put into it. The same text comes out of a single
pass that writes what it finds while it reads on, so what is put in cannot be taken for a part of
the template.

Results:
1. `splitAtPair_append`, `splitAtPair_eq_none_iff`: it is the first pair that is found.
2. `source_split`: the pieces are the template, with nothing lost and nothing doubled.
3. `scan_eq`: the single pass fills the pieces.
4. `fill_of_none`: without values, the template stays as it is.
5. `fill_woven`: what becomes of a template of which all slots are known.
-/

namespace BuildBoard.Template

/-! ## Definitions -/

/-- What stands in a template for a slot. -/
def placeholder (name : List Char) : List Char := '{' :: '{' :: (name ++ ['}', '}'])

/-- The part of the template that a piece is cut from. -/
def Piece.source : Piece → List Char
  | .literal text => text
  | .slot name => placeholder name

/-- Fills a template in one pass. After a slot with a value, the pass goes on behind the slot;
after braces that are literal, it goes on right behind these. -/
def scan (value : List Char → Option String) (cs : List Char) : List Char :=
  match h : splitAtPair '{' cs with
  | none => cs
  | some (before, after) =>
    have := length_of_splitAtPair h
    match h' : splitAtPair '}' after with
    | none => before ++ ['{', '{'] ++ scan value after
    | some (name, rest) =>
      have := length_of_splitAtPair h'
      match value name with
      | some text => before ++ text.toList ++ scan value rest
      | none => before ++ ['{', '{'] ++ scan value after
termination_by cs.length

/-- No pair of `c`s begins in the text, not even one that ends behind it. -/
def Plain (c : Char) (cs : List Char) : Prop := ¬ [c, c] <:+: cs ++ [c]

instance (c : Char) (cs : List Char) : Decidable (Plain c cs) := instDecidableNot

/-- The first texts, with the other ones between them. -/
def woven : List (List Char) → List (List Char) → List Char
  | text :: texts, insert :: inserts => text ++ (insert ++ woven texts inserts)
  | texts, _ => texts.flatten

variable {c : Char} {cs before after name rest : List Char} {known : List Char → Bool}
  {value : List Char → Option String}

/-! ## The first pair -/

theorem plain_cons {a : Char} :
    Plain c (a :: cs) ↔ ¬ [c, c] <+: a :: (cs ++ [c]) ∧ Plain c cs := by
  rw [Plain, Plain, List.cons_append, List.infix_cons_iff, not_or]

theorem splitAtPair_append (h : Plain c before) :
    splitAtPair c (before ++ c :: c :: after) = some (before, after) := by
  induction before with
  | nil => simp [splitAtPair]
  | cons a before ih =>
    obtain ⟨hfirst, hrest⟩ := plain_cons.1 h
    cases before with
    | nil =>
      have ha : a ≠ c := fun ha => hfirst (by simp [ha])
      simp [splitAtPair, ha]
    | cons b before =>
      have hab : ¬ (a = c ∧ b = c) := fun ⟨ha, hb⟩ => hfirst (by simp [ha, hb])
      have hnext := ih hrest
      simp only [List.cons_append] at hnext
      simp [splitAtPair, hab, hnext]

theorem splitAtPair_eq_none_iff : splitAtPair c cs = none ↔ ¬ [c, c] <:+: cs := by
  fun_induction splitAtPair c cs with
  | case1 a b rest heq =>
    simp only [Bool.and_eq_true, decide_eq_true_eq] at heq
    simp [heq.1, heq.2, List.infix_cons_iff]
  | case2 a b rest hne ih =>
    simp only [Bool.and_eq_true, decide_eq_true_eq] at hne
    rw [Option.map_eq_none_iff, ih, @List.infix_cons_iff _ _ a (b :: rest), not_or]
    refine (and_iff_right fun hbegin => hne ?_).symm
    simp only [List.cons_prefix_cons] at hbegin
    exact ⟨hbegin.1.symm, hbegin.2.1.symm⟩
  | case3 cs hshort =>
    refine iff_of_true rfl fun h => ?_
    have hlength := h.length_le
    rcases cs with - | ⟨a, - | ⟨b, rest⟩⟩
    · simp at hlength
    · simp at hlength
    · exact hshort a b rest rfl

theorem splitAtPair_of_plain (h : Plain c cs) : splitAtPair c cs = none :=
  splitAtPair_eq_none_iff.2 fun hin => h (hin.trans (List.prefix_append _ _).isInfix)

/-! ## The pieces -/

theorem split_of_none (h : splitAtPair '{' cs = none) : split known cs = [.literal cs] := by
  rw [split]
  split <;> simp_all

theorem split_of_unclosed (h : splitAtPair '{' cs = some (before, after))
    (hclose : splitAtPair '}' after = none) :
    split known cs = .literal before :: .literal ['{', '{'] :: split known after := by
  rw [split]
  split
  · simp_all
  · obtain ⟨rfl, rfl⟩ := Prod.mk.inj (Option.some.inj (h.symm.trans ‹_›))
    split <;> simp_all

theorem split_of_closed (h : splitAtPair '{' cs = some (before, after))
    (hclose : splitAtPair '}' after = some (name, rest)) :
    split known cs =
      if known name then .literal before :: .slot name :: split known rest
      else .literal before :: .literal ['{', '{'] :: split known after := by
  rw [split]
  split
  · simp_all
  · obtain ⟨rfl, rfl⟩ := Prod.mk.inj (Option.some.inj (h.symm.trans ‹_›))
    split
    · simp_all
    · obtain ⟨rfl, rfl⟩ := Prod.mk.inj (Option.some.inj (hclose.symm.trans ‹_›))
      rfl

theorem source_split (known : List Char → Bool) (cs : List Char) :
    (split known cs).flatMap Piece.source = cs := by
  fun_induction split known cs with
  | case1 cs => simp [Piece.source]
  | case2 cs before after h _ _ ih =>
    simp [Piece.source, ih, append_of_splitAtPair h]
  | case3 cs before after h _ name rest hclose _ _ ih =>
    rw [append_of_splitAtPair h, append_of_splitAtPair hclose]
    simp [Piece.source, placeholder, ih]
  | case4 cs before after h _ name rest hclose _ _ ih =>
    simp [Piece.source, ih, append_of_splitAtPair h]

/-- Only names that are known have slots. -/
theorem known_of_slot_mem (h : Piece.slot name ∈ split known cs) : known name = true := by
  fun_induction split known cs <;> simp_all
  rcases h with rfl | h <;> simp_all

/-! ## Filling -/

theorem scan_eq (value : List Char → Option String) (cs : List Char) :
    scan value cs = (split (fun name => (value name).isSome) cs).flatMap (Piece.fill value) := by
  fun_induction scan value cs with
  | case1 cs h => simp [split_of_none h, Piece.fill]
  | case2 cs before after h _ hclose ih =>
    simp [split_of_unclosed h hclose, Piece.fill, ih]
  | case3 cs before after h _ name rest hclose _ text hvalue ih =>
    simp [split_of_closed h hclose, hvalue, Piece.fill, ih]
  | case4 cs before after h _ name rest hclose _ hvalue ih =>
    simp [split_of_closed h hclose, hvalue, Piece.fill, ih]

theorem fill_eq_scan (template : String) (value : List Char → Option String) :
    fill template value = String.ofList (scan value template.toList) := by
  rw [fill, scan_eq]

theorem fill_of_none (template : String) (h : ∀ name, value name = none) :
    fill template value = template := by
  have hpiece : ∀ piece ∈ split (fun name => (value name).isSome) template.toList,
      piece.fill value = piece.source := by
    intro piece hpiece
    cases piece with
    | literal text => rfl
    | slot name => simp [h] at hpiece; exact absurd (known_of_slot_mem hpiece) (by simp)
  rw [fill, List.flatMap_congr hpiece, source_split, String.ofList_toList]

/-! ## Templates of which all slots are known -/

theorem split_plain (h : Plain '{' cs) : split known cs = [.literal cs] :=
  split_of_none (splitAtPair_of_plain h)

theorem split_placeholder (hbefore : Plain '{' before) (hname : Plain '}' name)
    (hknown : known name = true) :
    split known (before ++ (placeholder name ++ rest)) =
      .literal before :: .slot name :: split known rest := by
  have hopen : splitAtPair '{' (before ++ (placeholder name ++ rest)) =
      some (before, name ++ '}' :: '}' :: rest) := by
    simpa [placeholder] using splitAtPair_append hbefore
  rw [split_of_closed hopen (splitAtPair_append hname), if_pos hknown]

theorem fill_woven {texts names : List (List Char)} (hlength : texts.length = names.length + 1)
    (htexts : ∀ text ∈ texts, Plain '{' text)
    (hnames : ∀ name ∈ names, Plain '}' name ∧ known name = true) :
    (split known (woven texts (names.map placeholder))).flatMap (Piece.fill value) =
      woven texts (names.map fun name => ((value name).getD "").toList) := by
  induction names generalizing texts with
  | nil =>
    obtain ⟨text, rfl⟩ := List.length_eq_one_iff.1 hlength
    simp [woven, split_plain (htexts text List.mem_cons_self), Piece.fill]
  | cons name names ih =>
    obtain ⟨text, texts, rfl⟩ := List.exists_cons_of_length_eq_add_one hlength
    simp only [List.forall_mem_cons] at htexts hnames
    have hrest := ih (by simpa using hlength) htexts.2 hnames.2
    rw [List.map_cons, woven, split_placeholder htexts.1 hnames.1.1 hnames.1.2]
    simp [woven, Piece.fill, hrest]

end BuildBoard.Template
