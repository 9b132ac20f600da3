import BuildBoard.Duration
import BuildBoard.Proofs.Text.Inert
import BuildBoard.Rate.Hourly
import Mathlib.Data.List.Infix

/-!
# Text with markup

Pages are put together from literals and from inert text. An inert text brings no tag with it, and
takes none away: the tags of what is put together are those of the literals.

Results:
1. `inert_decimalText`, `inert_durationText`, `inert_rateText`: numbers, durations and rates are
   inert.
2. `MadeOf.tagged`: what is made of literals with known tags has no others.
-/

namespace BuildBoard.Html

/-! ## Definitions -/

/-- The elements that pages are made of. -/
def tagNames : List String :=
  ["a", "span", "div", "dl", "dt", "dd", "h2", "h3", "table", "thead", "tbody", "tr", "th", "td",
    "svg", "rect"]

/-- These characters, coming after `<`, make it the begin of a tag: they name an element that is
opened or closed. -/
def OpensTag (cs : List Char) : Prop :=
  ∃ tag ∈ tagNames, ∃ stop ∈ [" ", ">"],
    tag.toList ++ stop.toList <+: cs ∨ '/' :: tag.toList ++ stop.toList <+: cs

instance (cs : List Char) : Decidable (OpensTag cs) := List.decidableBEx _ tagNames

/-- Every `<` is the begin of a tag. -/
def Tagged (s : String) : Prop := ∀ rest, '<' :: rest <:+ s.toList → OpensTag rest

/-- The text is put together from these literals and from inert text. -/
inductive MadeOf (literals : List String) : String → Prop
  | literal {s : String} : s ∈ literals → MadeOf literals s
  | inert {s : String} : Inert s → MadeOf literals s
  | append {s t : String} : MadeOf literals s → MadeOf literals t → MadeOf literals (s ++ t)

/-! ## Inert texts -/

theorem inert_of_isNumberText {s : String} (h : IsNumberText s.toList) : Inert s := by
  have hnumber : markupChars.all fun c => ¬ IsNumberChar c := by decide
  simp only [List.all_eq_true, decide_eq_true_eq] at hnumber
  exact fun c hc hmarkup => hnumber c hmarkup (h c hc)

theorem inert_decimalText (n : Int) : Inert (decimalText n) :=
  inert_of_isNumberText (isNumberText_decimalText n)

theorem inert_durationText (seconds : Int) : Inert (Duration.text seconds) := by
  have hpadded : ∀ n, ∀ c ∈ paddedDigits 2 n, c ∉ markupChars := by
    intro n
    have hdigits : IsNumberText (paddedDigits 2 n) := (IsNumberText.zeros _).append (.decimalDigits n)
    have hinert := inert_of_isNumberText (s := String.ofList (paddedDigits 2 n))
    rw [Inert, String.toList_ofList] at hinert
    exact hinert hdigits
  rw [Duration.text, Inert, String.toList_ofList]
  simp only [List.forall_mem_append, List.forall_mem_cons]
  exact ⟨⟨hpadded _, by decide, hpadded _⟩, by decide, hpadded _⟩

theorem inert_text? (seconds : Option Int) : Inert (Duration.text? seconds) := by
  cases seconds with
  | none => exact (by decide : Inert "")
  | some seconds => exact inert_durationText seconds

theorem inert_between (start stop : Option Int) : Inert (Duration.between start stop) := by
  unfold Duration.between
  split
  · decide
  · split
    · decide
    · exact inert_durationText _

theorem inert_ofDocument? (value : Option Document) : Inert (Duration.ofDocument? value) := by
  unfold Duration.ofDocument?
  split
  · split
    · exact inert_durationText _
    · decide
  · exact inert_escape _
  · decide

theorem inert_rateText (rate : Option Int) : Inert (Rate.text rate) := by
  cases rate with
  | none => exact (by decide : Inert "--")
  | some rate => exact inert_decimalText rate

/-! ## Tags -/

theorem OpensTag.append {cs : List Char} (h : OpensTag cs) (ds : List Char) :
    OpensTag (cs ++ ds) := by
  obtain ⟨tag, htag, stop, hstop, hopen | hclose⟩ := h
  · exact ⟨tag, htag, stop, hstop, .inl (hopen.trans (List.prefix_append _ _))⟩
  · exact ⟨tag, htag, stop, hstop, .inr (hclose.trans (List.prefix_append _ _))⟩

/-- A place in a text that is put together lies in one of its two parts. -/
theorem suffix_append_cases {s t : String} {c : Char} {rest : List Char}
    (h : c :: rest <:+ (s ++ t).toList) :
    (∃ rest', rest = rest' ++ t.toList ∧ c :: rest' <:+ s.toList) ∨ c :: rest <:+ t.toList := by
  obtain ⟨before, heq⟩ := h
  rw [String.toList_append, List.append_eq_append_iff] at heq
  rcases heq with ⟨middle, hs, heq⟩ | ⟨middle, -, ht⟩
  · cases middle with
    | nil => exact .inr ⟨[], heq⟩
    | cons first middle =>
      obtain ⟨rfl, rfl⟩ := List.cons.inj heq
      exact .inl ⟨middle, rfl, before, hs.symm⟩
  · exact .inr ⟨middle, ht.symm⟩

theorem Tagged.append {s t : String} (hs : Tagged s) (ht : Tagged t) : Tagged (s ++ t) := by
  intro rest hrest
  rcases suffix_append_cases hrest with ⟨rest', rfl, hplace⟩ | hplace
  · exact (hs rest' hplace).append t.toList
  · exact ht rest hplace

theorem tagged_of_inert {s : String} (h : Inert s) : Tagged s := fun _ hrest =>
  absurd (by decide) (h '<' (hrest.subset List.mem_cons_self))

/-- It is enough to look at each place of a text once. -/
theorem tagged_ofList {cs : List Char}
    (h : ∀ place ∈ cs.tails, place.head? = some '<' → OpensTag place.tail) :
    Tagged (String.ofList cs) := by
  intro rest hrest
  rw [String.toList_ofList] at hrest
  exact h ('<' :: rest) ((List.mem_tails _ _).mpr hrest) rfl

/-! ## Texts that are put together -/

namespace MadeOf

variable {literals : List String} {s : String}

theorem join {pieces : List String} (h : ∀ piece ∈ pieces, MadeOf literals piece) :
    MadeOf literals (String.join pieces) := by
  induction pieces with
  | nil => exact .inert (by decide)
  | cons piece pieces ih =>
    obtain ⟨hpiece, hpieces⟩ := List.forall_mem_cons.mp h
    rw [String.join_cons]
    exact hpiece.append (ih hpieces)

theorem mono {more : List String} (hsubset : literals ⊆ more) (h : MadeOf literals s) :
    MadeOf more s := by
  induction h with
  | literal hmem => exact .literal (hsubset hmem)
  | inert hinert => exact .inert hinert
  | append _ _ ihs iht => exact ihs.append iht

/-- There are no tags but those of the literals. -/
theorem tagged (hliterals : ∀ literal ∈ literals, Tagged literal) (h : MadeOf literals s) :
    Tagged s := by
  induction h with
  | literal hmem => exact hliterals _ hmem
  | inert hinert => exact tagged_of_inert hinert
  | append _ _ ihs iht => exact ihs.append iht

end MadeOf

end BuildBoard.Html
