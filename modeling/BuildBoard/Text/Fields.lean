/-!
# Separated fields

A text is cut at every separator, so that `n` separators give `n + 1` fields, and joining the
fields gives the text back.
-/

namespace BuildBoard.Fields

/-- The fields between the separators. -/
def split (sep : Char) : List Char → List (List Char)
  | [] => [[]]
  | c :: cs =>
    if c = sep then [] :: split sep cs
    else match split sep cs with
      | [] => [[c]]
      | field :: fields => (c :: field) :: fields

/-- The fields with a separator between each two. -/
def join (sep : Char) : List (List Char) → List Char
  | [] => []
  | [field] => field
  | field :: fields => field ++ sep :: join sep fields

theorem split_ne_nil (sep : Char) (cs : List Char) : split sep cs ≠ [] := by
  cases cs with
  | nil => simp [split]
  | cons c cs =>
    unfold split
    split
    · simp
    · split <;> simp

theorem join_split (sep : Char) (cs : List Char) : join sep (split sep cs) = cs := by
  induction cs with
  | nil => rfl
  | cons c cs ih =>
    unfold split
    split
    · next hsep =>
      cases hs : split sep cs with
      | nil => exact absurd hs (split_ne_nil sep cs)
      | cons f fs => simp [join, ← hs, ih, hsep]
    · cases hs : split sep cs with
      | nil => exact absurd hs (split_ne_nil sep cs)
      | cons f fs =>
        rw [hs] at ih
        cases fs with
        | nil => simpa [join] using ih
        | cons g gs => simpa [join] using ih

/-- The first field reaches up to the first separator. -/
theorem split_eq_cons (sep : Char) (cs : List Char) :
    ∃ fields, split sep cs = cs.takeWhile (· != sep) :: fields := by
  induction cs with
  | nil => exact ⟨[], rfl⟩
  | cons c cs ih =>
    obtain ⟨fields, ih⟩ := ih
    unfold split
    split
    · next h => exact ⟨split sep cs, by simp [h]⟩
    · next h =>
      have hcons : (c :: cs).takeWhile (· != sep) = c :: cs.takeWhile (· != sep) :=
        List.takeWhile_cons_of_pos (bne_iff_ne.mpr h)
      refine ⟨fields, ?_⟩
      rw [ih, hcons]

/-- What stands before the first separator belongs to the first field. -/
theorem split_append {sep : Char} {front rest first : List Char} {fields : List (List Char)}
    (h : sep ∉ front) (hrest : split sep rest = first :: fields) :
    split sep (front ++ rest) = (front ++ first) :: fields := by
  induction front with
  | nil => exact hrest
  | cons c front ih =>
    obtain ⟨hc, hfront⟩ := not_or.mp (mt List.mem_cons.mpr h)
    rw [List.cons_append, split, if_neg (Ne.symm hc), ih hfront]
    rfl

theorem split_append_sep {sep : Char} {front : List Char} (h : sep ∉ front) (rest : List Char) :
    split sep (front ++ sep :: rest) = front :: split sep rest := by
  rw [split_append h (show split sep (sep :: rest) = [] :: split sep rest from if_pos rfl),
    List.append_nil]

theorem split_of_notMem {sep : Char} {cs : List Char} (h : sep ∉ cs) : split sep cs = [cs] := by
  have hsplit := split_append h (show split sep [] = [[]] from rfl)
  rwa [List.append_nil] at hsplit

/-- There is one field more than there are separators. -/
theorem length_split (sep : Char) (cs : List Char) :
    (split sep cs).length = cs.count sep + 1 := by
  induction cs with
  | nil => rfl
  | cons c cs ih =>
    by_cases h : c = sep
    · rw [split, if_pos h, List.length_cons, ih, h, List.count_cons_self]
    · obtain ⟨fields, hfields⟩ := split_eq_cons sep cs
      rw [hfields] at ih
      rw [split, if_neg h, hfields, List.count_cons_of_ne h, ← ih]
      rfl

theorem join_cons_cons (sep : Char) (field next : List Char) (fields : List (List Char)) :
    join sep (field :: next :: fields) = field ++ sep :: join sep (next :: fields) := rfl

theorem mem_of_mem_join {sep c : Char} {fields : List (List Char)} (h : c ∈ join sep fields) :
    c = sep ∨ ∃ field ∈ fields, c ∈ field := by
  induction fields with
  | nil => cases h
  | cons field fields ih =>
    cases fields with
    | nil => exact .inr ⟨field, List.mem_cons_self, h⟩
    | cons next fields =>
      rw [join_cons_cons, List.mem_append, List.mem_cons] at h
      rcases h with hfield | hsep | hlater
      · exact .inr ⟨field, List.mem_cons_self, hfield⟩
      · exact .inl hsep
      · refine (ih hlater).imp_right fun ⟨later, hmem, hc⟩ => ?_
        exact ⟨later, List.mem_cons_of_mem _ hmem, hc⟩

/-- Fields without separators are found again in their join. -/
theorem split_join {sep : Char} {fields : List (List Char)} (hne : fields ≠ [])
    (h : ∀ field ∈ fields, sep ∉ field) : split sep (join sep fields) = fields := by
  induction fields with
  | nil => exact absurd rfl hne
  | cons field fields ih =>
    obtain ⟨hfield, hfields⟩ := List.forall_mem_cons.mp h
    cases fields with
    | nil => exact split_of_notMem hfield
    | cons next fields =>
      rw [join_cons_cons, split_append_sep hfield, ih (List.cons_ne_nil _ _) hfields]

theorem takeWhile_append_sep {sep : Char} {field : List Char} (h : sep ∉ field)
    (rest : List Char) : (field ++ sep :: rest).takeWhile (· != sep) = field := by
  have hall : ∀ c ∈ field, (c != sep) = true := fun c hc => bne_iff_ne.mpr fun heq => h (heq ▸ hc)
  rw [List.takeWhile_append_of_pos hall, List.takeWhile_cons_of_neg (by simp), List.append_nil]

theorem sep_notMem_takeWhile (sep : Char) (cs : List Char) : sep ∉ cs.takeWhile (· != sep) := by
  intro h
  have hall : (cs.takeWhile (· != sep)).all (· != sep) = true := List.all_takeWhile
  exact bne_iff_ne.mp (List.all_eq_true.mp hall sep h) rfl

/-- A text begins with a field and a separator where that is its first field. -/
theorem field_sep_prefix_iff {sep : Char} {field first rest : List Char} (hfield : sep ∉ field)
    (hfirst : sep ∉ first) : field ++ [sep] <+: first ++ sep :: rest ↔ field = first := by
  constructor
  · rintro ⟨tail, h⟩
    rw [List.append_assoc, List.singleton_append] at h
    rw [← takeWhile_append_sep hfield tail, h, takeWhile_append_sep hfirst]
  · rintro rfl
    exact ⟨rest, by rw [List.append_assoc, List.singleton_append]⟩

end BuildBoard.Fields
