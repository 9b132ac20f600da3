/-!
# Templates

A template is text with named slots, written as the name between two pairs of braces. It is cut
into literal pieces and slots once, before anything is put in: what a slot is filled with is never
looked at again. Braces around a name that has no slot are literal text.
-/

namespace BuildBoard.Template

inductive Piece where
  | literal (text : List Char)
  | slot (name : List Char)
deriving DecidableEq

/-- The text before the first pair of `c`s and the text after it, if there is a pair. -/
def splitAtPair (c : Char) : List Char → Option (List Char × List Char)
  | a :: b :: rest =>
    if a = c && b = c then some ([], rest)
    else (splitAtPair c (b :: rest)).map fun (before, after) => (a :: before, after)
  | _ => none

theorem append_of_splitAtPair {c : Char} {cs before after : List Char}
    (h : splitAtPair c cs = some (before, after)) : cs = before ++ c :: c :: after := by
  fun_induction splitAtPair c cs generalizing before after with
  | case1 a b rest heq =>
    cases h
    simp only [Bool.and_eq_true, decide_eq_true_eq] at heq
    simp [heq.1, heq.2]
  | case2 a b rest _ ih =>
    obtain ⟨⟨p, q⟩, hs, he⟩ := Option.map_eq_some_iff.1 h
    cases he
    simp [ih hs]
  | case3 => cases h

theorem length_of_splitAtPair {c : Char} {cs before after : List Char}
    (h : splitAtPair c cs = some (before, after)) : after.length + 2 ≤ cs.length := by
  rw [append_of_splitAtPair h]
  simp only [List.length_append, List.length_cons]
  omega

/-- The pieces of a template with slots for the names that `known` tells. -/
def split (known : List Char → Bool) (cs : List Char) : List Piece :=
  match h : splitAtPair '{' cs with
  | none => [.literal cs]
  | some (before, after) =>
    have := length_of_splitAtPair h
    match h' : splitAtPair '}' after with
    | none => .literal before :: .literal ['{', '{'] :: split known after
    | some (name, rest) =>
      have := length_of_splitAtPair h'
      if known name then .literal before :: .slot name :: split known rest
      else .literal before :: .literal ['{', '{'] :: split known after
termination_by cs.length

/-- The text of a piece. -/
def Piece.fill (value : List Char → Option String) : Piece → List Char
  | .literal text => text
  | .slot name => ((value name).getD "").toList

/-- The template with the slots filled that have a value. -/
def fill (template : String) (value : List Char → Option String) : String :=
  String.ofList
    ((split (fun name => (value name).isSome) template.toList).flatMap (Piece.fill value))

end BuildBoard.Template
