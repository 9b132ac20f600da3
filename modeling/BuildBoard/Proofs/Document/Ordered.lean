import BuildBoard.Document.Reader
import Mathlib.Data.String.Basic
import Mathlib.Tactic.Common

/-!
# Objects in the order of their names

An object keeps each name once, and its fields in the order of their names. Every document that is
read from a text is of this form, through all its levels.

Results:
1. `namesAscend_insertField`, `mem_insertField`: setting a field keeps the order of the names, and
   brings in that field alone.
2. `ordered_step`: the reader only ever holds ordered documents.
3. `ordered_parseWithin`: what it returns is ordered.
-/

namespace BuildBoard

namespace Document

/-! ## Definitions -/

/-- The fields are in the order of their names, each name once. -/
def NamesAscend (fields : List (String × Document)) : Prop :=
  (fields.map Prod.fst).Pairwise (· < ·)

instance (fields : List (String × Document)) : Decidable (NamesAscend fields) :=
  inferInstanceAs (Decidable ((fields.map Prod.fst).Pairwise (· < ·)))

/-- The names ascend in every object of the document. -/
inductive Ordered : Document → Prop
  | null : Ordered .null
  | bool (b : Bool) : Ordered (.bool b)
  | int (n : Int) : Ordered (.int n)
  | double (x : Binary64) : Ordered (.double x)
  | text (s : String) : Ordered (.text s)
  | array {items : List Document} : (∀ d ∈ items, Ordered d) → Ordered (.array items)
  | object {fields : List (String × Document)} :
      NamesAscend fields → (∀ f ∈ fields, Ordered f.2) → Ordered (.object fields)

/-- The documents in a container that is being read are ordered. -/
def Open.Ordered : Open → Prop
  | .array items => ∀ d ∈ items, d.Ordered
  | .object fields _ => NamesAscend fields ∧ ∀ f ∈ fields, f.2.Ordered

/-- The documents that the reader holds are ordered. -/
def Reading.Ordered : Reading → Prop
  | .value stack | .firstItem stack | .firstName stack | .colon stack | .next stack =>
    ∀ o ∈ stack, o.Ordered
  | .fieldName fields stack =>
    (NamesAscend fields ∧ ∀ f ∈ fields, f.2.Ordered) ∧ ∀ o ∈ stack, o.Ordered
  | .finished d => d.Ordered

/-! ## Setting a field -/

theorem mem_insertField {name : String} {value : Document} {fields : List (String × Document)}
    {f : String × Document} (h : f ∈ insertField name value fields) :
    f = (name, value) ∨ f ∈ fields := by
  induction fields with
  | nil => exact .inl (List.mem_singleton.mp h)
  | cons first rest ih =>
    obtain ⟨k, v⟩ := first
    unfold insertField at h
    split at h
    · exact List.mem_cons.mp h
    · split at h
      · rcases List.mem_cons.mp h with h | h
        · exact .inl h
        · exact .inr (List.mem_cons_of_mem _ h)
      · rcases List.mem_cons.mp h with h | h
        · exact .inr (h ▸ List.mem_cons_self)
        · exact (ih h).imp_right (List.mem_cons_of_mem _)

theorem namesAscend_insertField {fields : List (String × Document)} (name : String)
    (value : Document) (h : NamesAscend fields) :
    NamesAscend (insertField name value fields) := by
  induction fields with
  | nil => exact List.pairwise_singleton _ _
  | cons first rest ih =>
    obtain ⟨k, v⟩ := first
    obtain ⟨hfirst, hrest⟩ := List.pairwise_cons.mp h
    unfold insertField
    split
    · next hlt =>
      -- the new name comes before the first one, so before all
      refine List.pairwise_cons.mpr ⟨fun other hother => ?_, h⟩
      rcases List.mem_cons.mp hother with rfl | hother
      · exact hlt
      · exact hlt.trans (hfirst other hother)
    · next hnlt =>
      split
      · next heq =>
        subst heq
        exact List.pairwise_cons.mpr ⟨hfirst, hrest⟩
      · next hne =>
        have hlt : k < name := lt_of_le_of_ne (not_lt.mp hnlt) (Ne.symm hne)
        refine List.pairwise_cons.mpr ⟨fun other hother => ?_, ih hrest⟩
        obtain ⟨f, hf, rfl⟩ := List.mem_map.mp hother
        rcases mem_insertField hf with rfl | hf
        · exact hlt
        · exact hfirst _ (List.mem_map_of_mem hf)

end Document

/-! ## Tokens -/

/-- The value that a token brings along is ordered. -/
def Token.Ordered : Token → Prop
  | .atom d => d.Ordered
  | _ => True

theorem Numeral.ordered_read? {cs : List Char} {d : Document} (h : read? cs = some d) :
    d.Ordered := by
  obtain ⟨p, -, h⟩ := Option.bind_eq_some_iff.mp h
  unfold value? at h
  dsimp only at h
  split at h
  · exact Option.some.inj h ▸ .int _
  · split at h
    · exact Option.some.inj h ▸ .int _
    · obtain ⟨x, -, rfl⟩ := Option.map_eq_some_iff.mp h
      exact .double x

namespace Token

theorem ordered_cons {t : Token} {rest : Option (List Token)} {tokens : List Token}
    (h : rest.map (t :: ·) = some tokens) (ht : t.Ordered)
    (hrest : ∀ {ts}, rest = some ts → ∀ t ∈ ts, t.Ordered) : ∀ t ∈ tokens, t.Ordered := by
  obtain ⟨ts, hts, rfl⟩ := Option.map_eq_some_iff.mp h
  exact List.forall_mem_cons.mpr ⟨ht, hrest hts⟩

theorem ordered_scan {cs : List Char} {tokens : List Token} (h : scan cs = some tokens) :
    ∀ t ∈ tokens, t.Ordered := by
  fun_induction scan cs generalizing tokens
  case case1 => exact Option.some.inj h ▸ nofun
  -- punctuation
  case case2 ih | case3 ih | case4 ih | case5 ih | case6 ih | case7 ih =>
    exact ordered_cons h trivial ih
  case case8 ih => exact ordered_cons h Document.Ordered.null ih
  case case9 ih => exact ordered_cons h (Document.Ordered.bool true) ih
  case case10 ih => exact ordered_cons h (Document.Ordered.bool false) ih
  -- a quoted text, a blank and a numeral
  case case12 ih => exact ordered_cons h trivial ih
  case case13 ih => exact ih h
  case case15 hread _ ih => exact ordered_cons h (Numeral.ordered_read? hread) ih
  case case11 | case14 | case16 => cases h

end Token

namespace Document

/-! ## Reading -/

namespace Reading

/-- A completed value is put where it belongs. -/
theorem ordered_complete {d : Document} {stack : List Open} (hd : d.Ordered)
    (hstack : ∀ o ∈ stack, o.Ordered) : (complete d stack).Ordered := by
  cases stack with
  | nil => exact hd
  | cons top rest =>
    obtain ⟨htop, hrest⟩ := List.forall_mem_cons.mp hstack
    cases top with
    | array items => exact List.forall_mem_cons.mpr ⟨List.forall_mem_cons.mpr ⟨hd, htop⟩, hrest⟩
    | object fields name =>
      refine List.forall_mem_cons.mpr ⟨⟨namesAscend_insertField name d htop.1, fun f hf => ?_⟩, hrest⟩
      rcases mem_insertField hf with rfl | hf
      · exact hd
      · exact htop.2 f hf

theorem ordered_begin {limit : Nat} {stack : List Open} {t : Token} {s : Reading}
    (hstack : ∀ o ∈ stack, o.Ordered) (ht : t.Ordered) (h : begin limit stack t = some s) :
    s.Ordered := by
  unfold begin at h
  split at h
  case h_1 => exact Option.some.inj h ▸ ordered_complete ht hstack
  case h_2 s => exact Option.some.inj h ▸ ordered_complete (.text s) hstack
  case h_5 => cases h
  all_goals
    -- a container is opened, if the limit admits it
    split at h
    · exact Option.some.inj h ▸ hstack
    · cases h

theorem ordered_step {limit : Nat} {s s' : Reading} {t : Token} (hs : s.Ordered) (ht : t.Ordered)
    (h : step limit s t = some s') : s'.Ordered := by
  have hnil : ∀ d ∈ ([] : List Document), d.Ordered := nofun
  have hopened : (Open.array []).Ordered := hnil
  unfold step at h
  split at h
  case h_1 => exact ordered_begin hs ht h
  case h_2 => exact Option.some.inj h ▸ ordered_complete (.array hnil) hs
  case h_3 => exact ordered_begin (List.forall_mem_cons.mpr ⟨hopened, hs⟩) ht h
  case h_4 => exact Option.some.inj h ▸ ordered_complete (.object .nil nofun) hs
  case h_5 => exact Option.some.inj h ▸ List.forall_mem_cons.mpr ⟨⟨.nil, nofun⟩, hs⟩
  case h_6 => exact Option.some.inj h ▸ List.forall_mem_cons.mpr hs
  case h_7 => exact Option.some.inj h ▸ hs
  case h_8 => exact Option.some.inj h ▸ hs
  case h_9 =>
    obtain ⟨hitems, hstack⟩ := List.forall_mem_cons.mp hs
    have harray := Document.Ordered.array fun d hd => hitems d (List.mem_reverse.mp hd)
    exact Option.some.inj h ▸ ordered_complete harray hstack
  case h_10 =>
    exact Option.some.inj h ▸ List.forall_mem_cons.mp hs
  case h_11 =>
    obtain ⟨⟨hnames, hfields⟩, hstack⟩ := List.forall_mem_cons.mp hs
    exact Option.some.inj h ▸ ordered_complete (.object hnames hfields) hstack
  case h_12 => cases h

theorem ordered_foldlM {limit : Nat} {tokens : List Token} {s s' : Reading} (hs : s.Ordered)
    (htokens : ∀ t ∈ tokens, t.Ordered) (h : tokens.foldlM (step limit) s = some s') :
    s'.Ordered := by
  induction tokens generalizing s with
  | nil => exact Option.some.inj h ▸ hs
  | cons t tokens ih =>
    obtain ⟨ht, htokens⟩ := List.forall_mem_cons.mp htokens
    obtain ⟨next, hnext, hrest⟩ := Option.bind_eq_some_iff.mp h
    exact ih (ordered_step hs ht hnext) htokens hrest

end Reading

/-- What is read is ordered, however deep it may be nested. -/
theorem ordered_parseWithin {limit : Nat} {s : String} {d : Document}
    (h : parseWithin limit s = some d) : d.Ordered := by
  obtain ⟨tokens, htokens, hd⟩ := Option.bind_eq_some_iff.mp h
  unfold ofTokens? at hd
  split at hd
  · next hfold =>
    obtain rfl := Option.some.inj hd
    exact Reading.ordered_foldlM (s := .value []) nofun (Token.ordered_scan htokens) hfold
  · cases hd

end Document

end BuildBoard
