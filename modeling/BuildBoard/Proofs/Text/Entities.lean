import BuildBoard.Proofs.Text.Inert
import Mathlib.Data.List.Infix

/-!
# Entities

Escaping can be told in two ways: one character after the other is replaced by its entity in the
whole text, or each character of the text is looked at once. They agree since no entity holds a
character that is replaced after its own; the `&` with which all of them begin has its turn first.

Nothing is lost by escaping. An entity is known by its `&`, and there is no other `&` in escaped text.

Results:
1. `replaceInTurn_eq_flatMap`: replacing in turn is one pass, if replacements stay as they are.
2. `amp_of_escapeChars`: a `&` of escaped text is the begin of an entity.
3. `unescapeChars_escapeChars`: what was escaped can be read back.
4. `escape_in_one_pass`: all of it for a text.
-/

namespace BuildBoard.Html

/-! ## Definitions -/

/-- The characters that are escaped, each with its entity, in the order of their turns. -/
def entities : List (Char × String) :=
  [('&', "&amp;"), ('<', "&lt;"), ('>', "&gt;"), ('"', "&quot;"), ('\'', "&#39;")]

/-- The text with each occurrence of one character replaced. -/
def replaceChar (c : Char) (replacement : String) (cs : List Char) : List Char :=
  cs.flatMap fun x => if x = c then replacement.toList else [x]

/-- The text with the characters of a table replaced, one after the other. -/
def replaceInTurn (table : List (Char × String)) (cs : List Char) : List Char :=
  table.foldl (fun cs entry => replaceChar entry.1 entry.2 cs) cs

/-- The text in the place of a character: its replacement, or the character if it has none. -/
def replacementOf (table : List (Char × String)) (c : Char) : List Char :=
  ((table.lookup c).map String.toList).getD [c]

/-- The text with the characters escaped, one after the other. -/
def escapeInTurn (s : String) : String := String.ofList (replaceInTurn entities s.toList)

/-- From left to right, an entity is read as its character and any other character as itself. -/
def unescapeChars : List Char → List Char
  | '&' :: 'a' :: 'm' :: 'p' :: ';' :: rest => '&' :: unescapeChars rest
  | '&' :: 'l' :: 't' :: ';' :: rest => '<' :: unescapeChars rest
  | '&' :: 'g' :: 't' :: ';' :: rest => '>' :: unescapeChars rest
  | '&' :: 'q' :: 'u' :: 'o' :: 't' :: ';' :: rest => '"' :: unescapeChars rest
  | '&' :: '#' :: '3' :: '9' :: ';' :: rest => '\'' :: unescapeChars rest
  | c :: rest => c :: unescapeChars rest
  | [] => []

def unescape (s : String) : String := String.ofList (unescapeChars s.toList)

/-! ## One pass -/

theorem replacementOf_cons (c : Char) (replacement : String) (table : List (Char × String))
    (x : Char) :
    replacementOf ((c, replacement) :: table) x =
      if x = c then replacement.toList else replacementOf table x := by
  unfold replacementOf
  rw [List.lookup_cons]
  split
  · next h => rw [if_pos (beq_iff_eq.mp h)]; rfl
  · next h => rw [if_neg (beq_eq_false_iff_ne.mp h)]

theorem replacementOf_of_notMem {table : List (Char × String)} {x : Char}
    (h : ∀ entry ∈ table, entry.1 ≠ x) : replacementOf table x = [x] := by
  have hnone : table.lookup x = none := List.lookup_eq_none_iff.mpr fun entry hentry =>
    bne_iff_ne.mpr (h entry hentry).symm
  rw [replacementOf, hnone]
  rfl

/-- Where no replacement holds a character that has its turn later, turn after turn is one pass. -/
theorem replaceInTurn_eq_flatMap {table : List (Char × String)}
    (h : table.Pairwise fun entry later => later.1 ∉ entry.2.toList) (cs : List Char) :
    replaceInTurn table cs = cs.flatMap (replacementOf table) := by
  induction table generalizing cs with
  | nil => exact (List.flatMap_singleton' cs).symm
  | cons entry table ih =>
    obtain ⟨c, replacement⟩ := entry
    obtain ⟨hlater, htable⟩ := List.pairwise_cons.mp h
    have hkept : replacement.toList.flatMap (replacementOf table) = replacement.toList := by
      rw [List.flatMap_congr fun x hx =>
        replacementOf_of_notMem fun later hmem heq => hlater later hmem (heq ▸ hx)]
      exact List.flatMap_singleton' _
    show replaceInTurn table (replaceChar c replacement cs) = _
    rw [ih htable, replaceChar, List.flatMap_assoc]
    refine List.flatMap_congr fun x _ => ?_
    rw [replacementOf_cons]
    split
    · exact hkept
    · rw [List.flatMap_singleton]

theorem replacementOf_entities : replacementOf entities = escapeChar := by
  funext c
  simp only [entities, replacementOf_cons, escapeChar]
  rfl

/-! ## Entities in escaped text -/

/-- A character is escaped by its entity, or stands for itself. -/
theorem escapeChar_cases (c : Char) :
    (∃ entity, (c, entity) ∈ entities ∧ escapeChar c = entity.toList) ∨
      c ≠ '&' ∧ escapeChar c = [c] := by
  by_cases hmem : c ∈ entities.map Prod.fst
  · obtain ⟨⟨key, entity⟩, hentry, rfl⟩ := List.mem_map.mp hmem
    have hentities : ∀ entry ∈ entities, escapeChar entry.1 = entry.2.toList := by decide
    exact .inl ⟨entity, hentry, hentities _ hentry⟩
  · have hnone : ∀ entry ∈ entities, entry.1 ≠ c := fun entry hentry heq =>
      hmem (heq ▸ List.mem_map_of_mem hentry)
    refine .inr ⟨(hnone ('&', "&amp;") List.mem_cons_self).symm, ?_⟩
    rw [← replacementOf_entities, replacementOf_of_notMem hnone]

/-- An entity begins with `&` and has no other. -/
theorem exists_name_of_entity {entry : Char × String} (h : entry ∈ entities) :
    ∃ name, entry.2.toList = '&' :: name ∧ '&' ∉ name := by
  have hall : ∀ entry ∈ entities, entry.2.toList.head? = some '&' ∧ '&' ∉ entry.2.toList.tail := by
    decide
  obtain ⟨hhead, htail⟩ := hall entry h
  exact ⟨entry.2.toList.tail, List.eq_cons_of_mem_head? hhead, htail⟩

/-- A character that a text does not have is found behind it. -/
theorem suffix_of_suffix_append {c : Char} {before after rest : List Char} (h : c ∉ before)
    (hplace : c :: rest <:+ before ++ after) : c :: rest <:+ after := by
  induction before with
  | nil => exact hplace
  | cons x before ih =>
    obtain ⟨hx, hbefore⟩ := not_or.mp (mt List.mem_cons.mpr h)
    rcases List.suffix_cons_iff.mp hplace with heq | hlater
    · exact absurd (List.cons.inj heq).1 hx
    · exact ih hbefore hlater

theorem amp_of_escapeChars {cs rest : List Char} (h : '&' :: rest <:+ escapeChars cs) :
    ∃ entry ∈ entities, entry.2.toList <+: '&' :: rest := by
  induction cs with
  | nil => exact absurd (List.suffix_nil.mp h) (List.cons_ne_nil _ _)
  | cons c cs ih =>
    rw [escapeChars, List.flatMap_cons] at h
    rcases escapeChar_cases c with ⟨entity, hentity, heq⟩ | ⟨hamp, heq⟩
    · obtain ⟨name, hname, hnotMem⟩ := exists_name_of_entity hentity
      rw [heq, hname, List.cons_append] at h
      rcases List.suffix_cons_iff.mp h with hhere | hlater
      · refine ⟨_, hentity, ?_⟩
        rw [hhere, hname, ← List.cons_append]
        exact List.prefix_append _ _
      · exact ih (suffix_of_suffix_append hnotMem hlater)
    · rw [heq] at h
      exact ih (suffix_of_suffix_append (mt List.mem_singleton.mp (Ne.symm hamp)) h)

/-! ## Reading back -/

theorem unescapeChars_cons {c : Char} (h : c ≠ '&') (rest : List Char) :
    unescapeChars (c :: rest) = c :: unescapeChars rest := by
  conv_lhs => unfold unescapeChars
  split <;> simp_all

theorem unescapeChars_entity {entry : Char × String} (h : entry ∈ entities) (rest : List Char) :
    unescapeChars (entry.2.toList ++ rest) = entry.1 :: unescapeChars rest := by
  simp only [entities, List.mem_cons, List.not_mem_nil, or_false] at h
  rcases h with rfl | rfl | rfl | rfl | rfl <;> rfl

theorem unescapeChars_escapeChars (cs : List Char) : unescapeChars (escapeChars cs) = cs := by
  induction cs with
  | nil => rfl
  | cons c cs ih =>
    rw [escapeChars, List.flatMap_cons, ← escapeChars]
    rcases escapeChar_cases c with ⟨entity, hentity, heq⟩ | ⟨hamp, heq⟩
    · rw [heq, unescapeChars_entity hentity, ih]
    · rw [heq, List.singleton_append, unescapeChars_cons hamp, ih]

theorem unescape_escape (s : String) : unescape (escape s) = s := by
  rw [unescape, escape, String.toList_ofList, unescapeChars_escapeChars, String.ofList_toList]

theorem escape_append (s t : String) : escape (s ++ t) = escape s ++ escape t := by
  rw [escape, String.toList_append, escapeChars_append, String.ofList_append]
  rfl

/-- Escaping the characters in turn is one pass over the text, in which each of the five gives its
entity and any other character itself. So it goes piece by piece, leaves no markup, writes `&` only
as the begin of an entity, and is undone by one pass that reads the entities back; no two texts are
escaped alike. -/
theorem escape_in_one_pass (s : String) :
    escapeInTurn s = escape s ∧
    (escape s).toList = s.toList.flatMap (replacementOf entities) ∧
    (∀ t, escape (s ++ t) = escape s ++ escape t) ∧
    Inert (escape s) ∧
    (∀ rest, '&' :: rest <:+ (escape s).toList →
      ∃ entry ∈ entities, entry.2.toList <+: '&' :: rest) ∧
    unescape (escape s) = s ∧
    ∀ t, escape t = escape s → t = s := by
  have hturns : entities.Pairwise fun entry later => later.1 ∉ entry.2.toList := by decide
  have hpass : (escape s).toList = s.toList.flatMap (replacementOf entities) := by
    rw [escape, String.toList_ofList, replacementOf_entities]
    rfl
  refine ⟨?_, hpass, escape_append s, inert_escape s, fun rest hrest => ?_, unescape_escape s,
    fun t ht => ?_⟩
  · rw [escapeInTurn, replaceInTurn_eq_flatMap hturns, ← hpass, String.ofList_toList]
  · rw [escape, String.toList_ofList] at hrest
    exact amp_of_escapeChars hrest
  · rw [← unescape_escape t, ht, unescape_escape]

/-- A text that holds an entity already, and a tag. -/
theorem escaped_entity_reads_back :
    let s := "<b title='&lt;'>"
    escapeInTurn s = "&lt;b title=&#39;&amp;lt;&#39;&gt;" ∧ unescape (escape s) = s ∧
      (∀ rest, '&' :: rest <:+ (escape s).toList →
        ∃ entry ∈ entities, entry.2.toList <+: '&' :: rest) ∧
      ∀ t, escape t = escape s → t = s := by
  intro s
  obtain ⟨hturns, -, -, -, hamp, hback, hinj⟩ := escape_in_one_pass s
  exact ⟨hturns.trans (by decide +kernel), hback, hamp, hinj⟩

end BuildBoard.Html
