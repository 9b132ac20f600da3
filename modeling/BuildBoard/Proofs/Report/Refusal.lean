import BuildBoard.Proofs.Document.Ordered
import BuildBoard.Report
import Mathlib.Order.Bounds.Basic

/-!
# When a document is refused

A document is refused when it is of no kind, when it lists packages under an unknown category, and
when a build document contradicts itself. It is accepted in every other case, whatever its other
fields hold.

Results:
1. `kindOf?_eq_some_iff`: the kind of a document is that of its first given name.
2. `unknownCategory?_eq_some_iff`: the category that is complained of is the least unknown one.
3. `decode_error_iff`: a build document is unreadable only for the two contradictions.
4. `ofDocument_outcome`: all outcomes, and the fields that they depend on.
-/

namespace BuildBoard

/-! ## Definitions -/

/-- The values that say nothing: null, the empty text, false and zero. -/
inductive Document.Blank : Document → Prop
  | null : Blank .null
  | text : Blank (.text "")
  | bool : Blank (.bool false)
  | int : Blank (.int 0)
  | double (negative : Bool) (exponent : Int) : Blank (.double ⟨negative, 0, exponent⟩)

namespace Report

/-- A field is there and says something. -/
def Given (fields : List (String × Document)) (name : String) : Prop :=
  ∃ d, fields.lookup name = some d ∧ ¬ d.Blank

/-- The first of the three naming fields that is given stands for this kind. -/
def Names (fields : List (String × Document)) : PageKind → Prop
  | .build => Given fields "buildname"
  | .jail => ¬ Given fields "buildname" ∧ Given fields "builds"
  | .index => ¬ Given fields "buildname" ∧ ¬ Given fields "builds" ∧ Given fields "masternames"

/-- The keys of the package lists that name no category and are not the one to pass over. -/
def unknownKeys (fields : List (String × Document)) : Set String :=
  {key | ∃ lists, fields.lookup "ports" = some (.object lists) ∧ key ∈ lists.map Prod.fst ∧
    key ≠ "tobuild" ∧ ∀ c : Category, c.name ≠ key}

/-- The jail is named twice, or the skip counts are given as something that is no object. -/
def Contradicts (fields : List (String × Document)) : Prop :=
  (fields.lookup "jail").isSome ∧ (fields.lookup "jailname").isSome ∨
    ∃ d, fields.lookup "skipped" = some d ∧ d ≠ .null ∧ ∀ counts, d ≠ .object counts

/-- The fields that decide on a document. -/
def decisiveFields : List String :=
  ["buildname", "builds", "masternames", "ports", "jail", "jailname", "skipped"]

/-! ## The kind -/

theorem isSet_eq_false_iff (d : Document) : Document.isSet (some d) = false ↔ d.Blank := by
  constructor
  · intro h
    cases d with
    | null => exact .null
    | bool b =>
      obtain rfl : b = false := h
      exact .bool
    | int n =>
      obtain rfl : n = 0 := by simpa [Document.isSet] using h
      exact .int
    | double x =>
      obtain ⟨negative, mantissa, exponent⟩ := x
      obtain rfl : mantissa = 0 := by simpa [Document.isSet, Binary64.isZero] using h
      exact .double negative exponent
    | text s =>
      obtain rfl : s = "" := by simpa [Document.isSet] using h
      exact .text
    | array items => cases h
    | object fields => cases h
  · intro h
    cases h <;> rfl

variable {fields : List (String × Document)}

theorem isSet_lookup_iff (name : String) :
    Document.isSet (fields.lookup name) ↔ Given fields name := by
  unfold Given
  cases fields.lookup name with
  | none => exact iff_of_false (by decide) (by rintro ⟨_, h, -⟩; cases h)
  | some d =>
    simp only [Option.some.injEq, exists_eq_left']
    rw [← isSet_eq_false_iff, Bool.not_eq_false]

theorem kindOf?_eq_some_iff (kind : PageKind) :
    kindOf? fields = some kind ↔ Names fields kind := by
  unfold kindOf?
  cases kind <;> simp only [Names, ← isSet_lookup_iff]
  all_goals
    cases Document.isSet (fields.lookup "buildname") <;>
      cases Document.isSet (fields.lookup "builds") <;>
        cases Document.isSet (fields.lookup "masternames") <;> decide

theorem kindOf?_eq_none_iff :
    kindOf? fields = none ↔
      ¬ (Given fields "buildname" ∨ Given fields "builds" ∨ Given fields "masternames") := by
  unfold kindOf?
  simp only [← isSet_lookup_iff]
  cases Document.isSet (fields.lookup "buildname") <;>
    cases Document.isSet (fields.lookup "builds") <;>
      cases Document.isSet (fields.lookup "masternames") <;> decide

/-! ## Categories -/

theorem ofName?_eq_none_iff (key : String) :
    Category.ofName? key = none ↔ ∀ c : Category, c.name ≠ key := by
  simp only [Category.ofName?, List.find?_eq_none, beq_iff_eq]
  exact ⟨fun h c => h c c.mem_all, fun h c _ => h c⟩

theorem isKnownKey_eq_false_iff (key : String) :
    Packages.isKnownKey key = false ↔ key ≠ "tobuild" ∧ ∀ c : Category, c.name ≠ key := by
  rw [Packages.isKnownKey, Bool.or_eq_false_iff, beq_eq_false_iff_ne, ← ofName?_eq_none_iff,
    Option.isSome_eq_false_iff, Option.isNone_iff_eq_none]
  rfl

/-- In an ascending list the first element with a property is the least one. -/
theorem find?_eq_some_iff_isLeast {α : Type} [LinearOrder α] {l : List α}
    (hl : l.Pairwise (· < ·)) (p : α → Bool) (a : α) :
    l.find? p = some a ↔ IsLeast {x | x ∈ l ∧ p x} a := by
  have hleast : ∀ b, l.find? p = some b → IsLeast {x | x ∈ l ∧ p x} b := by
    intro b hb
    refine ⟨⟨List.mem_of_find?_eq_some hb, List.find?_some hb⟩, ?_⟩
    rintro x ⟨hx, hpx⟩
    obtain ⟨-, before, after, rfl, hbefore⟩ := List.find?_eq_some_iff_append.mp hb
    rcases List.mem_append.mp hx with hx | hx
    · -- nothing before the first one has the property
      have hnot := hbefore x hx
      rw [hpx] at hnot
      cases hnot
    · rcases List.mem_cons.mp hx with rfl | hx
      · exact le_rfl
      · exact ((List.pairwise_cons.mp (List.pairwise_append.mp hl).2.1).1 x hx).le
  constructor
  · exact hleast a
  · intro ha
    obtain ⟨b, hb⟩ := Option.isSome_iff_exists.mp (List.find?_isSome.mpr ⟨a, ha.1⟩)
    rw [hb, (hleast b hb).unique ha]

theorem unknownCategory?_eq_some_iff
    (h : ∀ lists, fields.lookup "ports" = some (.object lists) → Document.NamesAscend lists)
    (key : String) : unknownCategory? fields = some key ↔ IsLeast (unknownKeys fields) key := by
  unfold unknownCategory?
  split
  · next lists hlists =>
    have hkeys : unknownKeys fields =
        {key | key ∈ lists.map Prod.fst ∧ !Packages.isKnownKey key} := by
      ext key
      simp [unknownKeys, hlists, isKnownKey_eq_false_iff]
    rw [hkeys]
    exact find?_eq_some_iff_isLeast (h lists hlists) _ key
  · next hnone =>
    refine iff_of_false nofun ?_
    rintro ⟨⟨lists, hlists, -⟩, -⟩
    exact hnone lists hlists

theorem unknownCategory?_eq_none_iff : unknownCategory? fields = none ↔ unknownKeys fields = ∅ := by
  rw [Set.eq_empty_iff_forall_notMem]
  unfold unknownCategory?
  split
  · next lists hlists =>
    simp [unknownKeys, hlists, isKnownKey_eq_false_iff]
  · next hnone =>
    refine iff_of_true rfl ?_
    rintro key ⟨lists, hlists, -⟩
    exact hnone lists hlists

/-! ## Contradictions -/

theorem counts?_eq_none_iff (field : Option Document) :
    Document.counts? field = none ↔
      ∃ d, field = some d ∧ d ≠ .null ∧ ∀ counts, d ≠ .object counts := by
  unfold Document.counts?
  split
  · exact iff_of_false nofun (by rintro ⟨_, h, -⟩; cases h)
  · exact iff_of_false nofun (by rintro ⟨_, ⟨⟩, hnull, -⟩; exact hnull rfl)
  · exact iff_of_false nofun (by rintro ⟨_, ⟨⟩, -, hobject⟩; exact hobject _ rfl)
  · next d hnull hobject =>
    refine iff_of_true rfl ⟨d, rfl, ?_, ?_⟩
    · rintro rfl
      exact hnull rfl
    · rintro counts rfl
      exact hobject counts rfl

theorem decode_error_iff :
    (∃ cause, BuildReport.decode fields = .error cause) ↔ Contradicts fields := by
  unfold BuildReport.decode Contradicts
  rw [← counts?_eq_none_iff]
  split
  · next h => exact iff_of_true ⟨_, rfl⟩ (.inl (by simpa using h))
  · next h =>
    rw [or_iff_right (by simpa using h)]
    cases Document.counts? (fields.lookup "skipped") with
    | some skipped => exact iff_of_false nofun nofun
    | none => exact iff_of_true ⟨_, rfl⟩ rfl

/-! ## Outcomes -/

/-- What a document with these fields comes to, by the steps of decoding it. -/
inductive Decoded (fields : List (String × Document)) : Except ReportError Report → Prop
  | noKind : kindOf? fields = none → Decoded fields (.error .unknownDataType)
  | category {name : String} :
      kindOf? fields = some .build → unknownCategory? fields = some name →
      Decoded fields (.error (.unknownCategory name))
  | malformed {cause : Malformation} :
      kindOf? fields = some .build → unknownCategory? fields = none →
      BuildReport.decode fields = .error cause → Decoded fields (.error (.malformed cause))
  | build {r : BuildReport} :
      kindOf? fields = some .build → unknownCategory? fields = none →
      BuildReport.decode fields = .ok r → Decoded fields (.ok (.build r))
  | history (r : HistoryReport) :
      kindOf? fields = some .jail → Decoded fields (.ok (.history r))
  | overview (r : OverviewReport) :
      kindOf? fields = some .index → Decoded fields (.ok (.overview r))

theorem decoded_ofDocument (fields : List (String × Document)) :
    Decoded fields (ofDocument (.object fields)) := by
  unfold ofDocument
  dsimp only
  split
  · next hkind => exact .noKind hkind
  · next hkind =>
    split
    · next hname => exact .category hkind hname
    · next hname =>
      cases hdecode : BuildReport.decode fields with
      | error cause => exact .malformed hkind hname hdecode
      | ok r => exact .build hkind hname hdecode
  · next hkind => exact .history _ hkind
  · next hkind => exact .overview _ hkind

theorem unknownDataType_iff :
    ofDocument (.object fields) = .error .unknownDataType ↔ kindOf? fields = none := by
  have h := decoded_ofDocument fields
  generalize ofDocument (.object fields) = outcome at h
  cases h <;> simp_all

theorem unknownCategory_iff (key : String) :
    ofDocument (.object fields) = .error (.unknownCategory key) ↔
      kindOf? fields = some .build ∧ unknownCategory? fields = some key := by
  have h := decoded_ofDocument fields
  generalize ofDocument (.object fields) = outcome at h
  cases h <;> simp_all

theorem malformed_iff :
    (∃ cause, ofDocument (.object fields) = .error (.malformed cause)) ↔
      kindOf? fields = some .build ∧ unknownCategory? fields = none ∧ Contradicts fields := by
  have h := decoded_ofDocument fields
  rw [← decode_error_iff]
  generalize ofDocument (.object fields) = outcome at h
  cases h <;> simp_all

theorem ok_iff (kind : PageKind) :
    (∃ r, ofDocument (.object fields) = .ok r ∧ r.kind = kind) ↔
      kindOf? fields = some kind ∧
        (kind = .build → unknownCategory? fields = none ∧ ¬ Contradicts fields) := by
  have h := decoded_ofDocument fields
  rw [← decode_error_iff]
  generalize ofDocument (.object fields) = outcome at h
  cases h <;> cases kind <;> simp_all [Report.kind]

/-- Nothing but the decisive fields has a say in whether a document is accepted, in the kind of
its report and in the error. -/
theorem map_kind_ofDocument_congr {fields fields' : List (String × Document)}
    (h : ∀ name ∈ decisiveFields, fields.lookup name = fields'.lookup name) :
    (ofDocument (.object fields)).map kind = (ofDocument (.object fields')).map kind := by
  simp only [decisiveFields, List.forall_mem_cons] at h
  obtain ⟨hbuild, hbuilds, hmasters, hports, hjail, hjailname, hskipped, -⟩ := h
  have hkindOf : kindOf? fields = kindOf? fields' := by
    rw [kindOf?, hbuild, hbuilds, hmasters, kindOf?]
  have hunknown : unknownCategory? fields = unknownCategory? fields' := by
    rw [unknownCategory?, hports, unknownCategory?]
  have hdecode : (BuildReport.decode fields).map (fun _ => PageKind.build) =
      (BuildReport.decode fields').map fun _ => PageKind.build := by
    unfold BuildReport.decode
    rw [hjail, hjailname, hskipped]
    split
    · rfl
    · split <;> rfl
  have hd := decoded_ofDocument fields
  have hd' := decoded_ofDocument fields'
  generalize ofDocument (.object fields) = outcome at hd
  generalize ofDocument (.object fields') = outcome' at hd'
  cases hd <;> cases hd' <;> simp_all [Except.map, Report.kind]

/-- A document's own fields are ordered as it is. -/
theorem namesAscend_of_lookup (h : (Document.object fields).Ordered) {name : String}
    {lists : List (String × Document)} (hlists : fields.lookup name = some (.object lists)) :
    Document.NamesAscend lists := by
  obtain ⟨before, after, rfl, -⟩ := List.lookup_eq_some_iff.mp hlists
  cases h with
  | object _ hfields =>
    cases hfields (name, .object lists) (List.mem_append_right _ List.mem_cons_self) with
    | object hnames _ => exact hnames

end Report

open Report

/-- Every outcome of decoding a document, and what it depends on. -/
theorem ofDocument_outcome {v : Document} (hv : v.Ordered) :
    (ofDocument v = .error .unknownDataType ↔
      ¬ ∃ fields, v = .object fields ∧
        (Given fields "buildname" ∨ Given fields "builds" ∨ Given fields "masternames")) ∧
    (∀ key, ofDocument v = .error (.unknownCategory key) ↔
      ∃ fields, v = .object fields ∧ Given fields "buildname" ∧
        IsLeast (unknownKeys fields) key) ∧
    ((∃ cause, ofDocument v = .error (.malformed cause)) ↔
      ∃ fields, v = .object fields ∧ Given fields "buildname" ∧ unknownKeys fields = ∅ ∧
        Contradicts fields) ∧
    (∀ kind, (∃ r, ofDocument v = .ok r ∧ r.kind = kind) ↔
      ∃ fields, v = .object fields ∧ Names fields kind ∧
        (kind = .build → unknownKeys fields = ∅ ∧ ¬ Contradicts fields)) ∧
    ∀ fields fields', v = .object fields →
      (∀ name ∈ decisiveFields, fields.lookup name = fields'.lookup name) →
      (ofDocument v).map kind = (ofDocument (.object fields')).map kind := by
  cases v with
  | object fields =>
    have hports : ∀ lists, fields.lookup "ports" = some (.object lists) →
        Document.NamesAscend lists := fun _ => namesAscend_of_lookup hv
    simp only [Document.object.injEq, exists_eq_left']
    refine ⟨unknownDataType_iff.trans kindOf?_eq_none_iff, fun key => ?_, ?_, fun kind => ?_, ?_⟩
    · rw [unknownCategory_iff, kindOf?_eq_some_iff, unknownCategory?_eq_some_iff hports]
      rfl
    · rw [malformed_iff, kindOf?_eq_some_iff, unknownCategory?_eq_none_iff]
      rfl
    · rw [ok_iff, kindOf?_eq_some_iff, unknownCategory?_eq_none_iff]
    · rintro _ fields' rfl h
      exact map_kind_ofDocument_congr h
  | _ => simp [ofDocument]

/-- Of two unknown categories, between a known one and the one to pass over, the lesser is
complained of. -/
theorem ofDocument_two_unknown_categories :
    let lists := [("built", .array []), ("exploded", .null), ("lost", .array []), ("tobuild", .null)]
    let v := Document.object [("buildname", .text "b"), ("ports", .object lists)]
    v.Ordered ∧ ofDocument v = .error (.unknownCategory "exploded") ∧
      ∃ fields, v = .object fields ∧ Given fields "buildname" ∧
        IsLeast (unknownKeys fields) "exploded" := by
  intro lists v
  have hlists : (Document.object lists).Ordered := by
    refine .object (by decide) ?_
    simp [lists, Document.Ordered.null, Document.Ordered.array]
  have hv : v.Ordered := by
    refine .object (by decide) ?_
    simp [hlists, Document.Ordered.text]
  have herror : ofDocument v = .error (.unknownCategory "exploded") := by rfl
  exact ⟨hv, herror, ((ofDocument_outcome hv).2.1 "exploded").mp herror⟩

end BuildBoard
