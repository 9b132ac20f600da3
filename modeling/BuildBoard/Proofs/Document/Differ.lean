import BuildBoard.Document.Lenient

/-!
# Documents that differ at one place

A place of a document is given by the steps that lead to it from the outside, each to a field of an
object or to an element of an array. Two documents differ at a place if they are built alike around
it and hold one value there in the one and another value in the other.

What is read of such documents: an object or a record has the same fields in both, but for the one
that the first step leads to, and that field differs further inside.

Results:
1. `AlikeBut.congr`, `AlikeBut.congr_any`: what is read alike of fields that are the same but for one.
2. `alikeBut_lookup`: the fields of objects that differ inside one of them are so.
3. `DifferAt.record`: and those of records.
4. `DifferAt.rows`: the elements of arrays that differ inside one of them.
-/

namespace BuildBoard.Document

/-! ## Places -/

/-- A step into a document. -/
inductive Step where
  | field (name : String)
  | element (i : Nat)

/-- The documents are the same but for this place, where the one has `v` and the other `v'`. -/
inductive DifferAt (v v' : Document) : List Step → Document → Document → Prop where
  | here : DifferAt v v' [] v v'
  | field {name : String} {place : List Step} {d d' : Document}
      (before after : List (String × Document)) :
      DifferAt v v' place d d' →
      DifferAt v v' (.field name :: place) (.object (before ++ (name, d) :: after))
        (.object (before ++ (name, d') :: after))
  | element {place : List Step} {d d' : Document} (before after : List Document) :
      DifferAt v v' place d d' →
      DifferAt v v' (.element before.length :: place) (.array (before ++ d :: after))
        (.array (before ++ d' :: after))

/-- The step leads to the field `name` of a record with these fields: by its name in an object, by
its position in an array. -/
inductive LeadsTo (names : List String) (name : String) : Step → Prop where
  | named (h : name ∈ names) : LeadsTo names name (.field name)
  | positional {i : Nat} (h : names[i]? = some name) : LeadsTo names name (.element i)

/-! ## Fields that are the same but for one -/

/-- The fields are the same apart from the one of this name, which both have and whose values are
related, unless it is the same too. -/
structure AlikeBut (R : Document → Document → Prop) (name : String)
    (field field' : String → Option Document) : Prop where
  elsewhere : ∀ other, other ≠ name → field other = field' other
  there : field name = field' name ∨
    ∃ d d', field name = some d ∧ field' name = some d' ∧ R d d'

namespace AlikeBut

variable {R : Document → Document → Prop} {name : String}
  {field field' : String → Option Document}

/-- What is read of the field in the same way from related values is the same. -/
theorem congr {α : Type u} (h : AlikeBut R name field field') {f : Option Document → α}
    (hf : ∀ d d', R d d' → f (some d) = f (some d')) :
    f (field name) = f (field' name) := by
  rcases h.there with heq | ⟨d, d', hd, hd', hR⟩
  · rw [heq]
  · rw [hd, hd']
    exact hf d d' hR

/-- The same of a field of any name. -/
theorem congr_any {α : Type u} (h : AlikeBut R name field field') {f : Option Document → α}
    (hf : ∀ d d', R d d' → f (some d) = f (some d')) (other : String) :
    f (field other) = f (field' other) := by
  by_cases hother : other = name
  · subst hother
    exact h.congr hf
  · rw [h.elsewhere other hother]

end AlikeBut

variable {R : Document → Document → Prop} {name : String} {d d' : Document}

/-- Fields written alike but for the value of one. -/
theorem alikeBut_lookup (name : String) (before after : List (String × Document)) (h : R d d') :
    AlikeBut R name (fun other => (before ++ (name, d) :: after).lookup other)
      (fun other => (before ++ (name, d') :: after).lookup other) := by
  induction before with
  | nil =>
    constructor
    · intro other hother
      simp only [List.nil_append, List.lookup_cons, beq_eq_false_iff_ne.mpr hother]
    · exact .inr ⟨d, d', List.lookup_cons_self, List.lookup_cons_self, h⟩
  | cons f before ih =>
    obtain ⟨k, w⟩ := f
    constructor
    · intro other hother
      simp only [List.cons_append, List.lookup_cons]
      rw [ih.elsewhere other hother]
    · simp only [List.cons_append, List.lookup_cons]
      cases name == k with
      | true => exact .inl rfl
      | false => exact ih.there

/-! ## What is read of documents that differ -/

namespace DifferAt

variable {v v' : Document} {step : Step} {place : List Step}

/-- Records that differ inside a field: none is a record, or they are so with fields that are the
same but for this one. -/
theorem record {names : List String} (hstep : LeadsTo names name step)
    (h : DifferAt v v' (step :: place) d d') {α : Type u}
    {read : (String → Option Document) → α}
    (hread : ∀ field field', AlikeBut (DifferAt v v' place) name field field' →
      read field = read field') :
    (d.record? names).map read = (d'.record? names).map read := by
  cases h with
  | field before after hinner =>
    cases hstep with
    | named => exact congrArg some (hread _ _ (alikeBut_lookup name before after hinner))
  | element before after hinner =>
    cases hstep with
    | positional hname =>
      -- the elements pair off with the names, this one with its own
      obtain ⟨hlt, hget⟩ := List.getElem?_eq_some_iff.mp hname
      obtain ⟨earlier, later, rfl, hlength⟩ : ∃ earlier later,
          names = earlier ++ name :: later ∧ earlier.length = before.length := by
        refine ⟨names.take before.length, names.drop (before.length + 1), ?_, ?_⟩
        · rw [← hget, List.getElem_cons_drop, List.take_append_drop]
        · rw [List.length_take]
          omega
      simp only [record?, List.length_append, List.length_cons, List.zip_append hlength,
        List.zip_cons_cons]
      split
      · exact congrArg some (hread _ _ (alikeBut_lookup name _ _ hinner))
      · rfl

/-- The elements of arrays that differ in one are read alike if that one is. -/
theorem rows {i : Nat} {α : Type u} {decode : Document → Option α}
    (h : DifferAt v v' (.element i :: place) d d')
    (hdecode : ∀ e e', DifferAt v v' place e e' → decode e = decode e') :
    Document.rows decode d = Document.rows decode d' := by
  cases h with
  | element before after hinner =>
    simp only [Document.rows, List.filterMap_append, List.filterMap_cons, hdecode _ _ hinner]

end DifferAt

end BuildBoard.Document
