import BuildBoard.Proofs.Document.Ordered
import BuildBoard.Proofs.Report.Alike
import BuildBoard.Proofs.Report.Legacy

/-!
# No row is lost or invented

The packages of a build are the elements of the document's arrays, category by category, and its
jobs are those of another. An element that is no entry is left out and does nothing else: the rows
before and after it, the other lists and the rest of the report are the same as without it.

The keys of the package lists are looked at twice, once for the refusal of a document with an
unknown one and once more when the lists are decoded. An unknown key that only the second look found
would leave the build without any packages; an accepted document has none.

Results:
1. `kept_filterMap`: what is read of an array.
2. `ofDocument_insertField`: a field may be set to whatever is read like it.
3. `rows_of_build`: the packages and the jobs of an accepted build document.
-/

namespace BuildBoard

/-! ## Elements and rows -/

/-- The rows are what `decode` makes of the elements that it accepts, in their order. -/
inductive Kept {α : Type} (decode : Document → Option α) : List Document → List α → Prop where
  | nil : Kept decode [] []
  | keep {d : Document} {row : α} {items : List Document} {rows : List α} :
      decode d = some row → Kept decode items rows → Kept decode (d :: items) (row :: rows)
  | drop {d : Document} {items : List Document} {rows : List α} :
      decode d = none → Kept decode items rows → Kept decode (d :: items) rows

theorem kept_filterMap {α : Type} (decode : Document → Option α) (items : List Document) :
    Kept decode items (items.filterMap decode) := by
  induction items with
  | nil => exact .nil
  | cons d items ih =>
    cases hd : decode d with
    | none =>
      rw [List.filterMap_cons_none hd]
      exact .drop hd ih
    | some row =>
      rw [List.filterMap_cons_some hd]
      exact .keep hd ih

theorem filterMap_without {α : Type} {decode : Document → Option α} {d : Document}
    (hd : decode d = none) (before after : List Document) :
    (before ++ d :: after).filterMap decode = (before ++ after).filterMap decode := by
  rw [List.filterMap_append, List.filterMap_cons_none hd, List.filterMap_append]

/-- The elements of an array; nothing else has any. -/
def Document.elementsOf : Option Document → List Document
  | some (.array items) => items
  | _ => []

namespace Packages

theorem entries_eq_filterMap (lists : List (String × Document)) (c : Category) :
    entries lists c =
      (Document.elementsOf (lists.lookup c.name)).filterMap (Entry.decode? c) := by
  unfold entries
  generalize lists.lookup c.name = array
  rcases array with _ | d
  · rfl
  · cases d <;> rfl

theorem entries_insertField {lists : List (String × Document)} {c : Category} {d : Document}
    {before after : List Document}
    (hlist : lists.lookup c.name = some (.array (before ++ d :: after)))
    (hd : Entry.decode? c d = none) (other : Category) :
    entries (Document.insertField c.name (.array (before ++ after)) lists) other =
      entries lists other := by
  rw [entries_eq_filterMap, entries_eq_filterMap, Document.lookup_insertField]
  split
  · next hname =>
    obtain rfl : other = c := by simpa using congrArg Category.ofName? hname
    rw [hlist]
    exact (filterMap_without hd before after).symm
  · rfl

theorem isKnownKey_name (c : Category) : isKnownKey c.name = true := by
  simp [isKnownKey]

theorem isKnownKey_unlistedKey : isKnownKey unlistedKey = true := by decide

theorem isKnownKey_insertField {lists : List (String × Document)} {name : String} {value : Document}
    (hknown : ∀ f ∈ lists, isKnownKey f.1) (hname : isKnownKey name) :
    ∀ f ∈ Document.insertField name value lists, isKnownKey f.1 := by
  intro f hf
  rcases Document.mem_insertField hf with rfl | hf
  · exact hname
  · exact hknown f hf

theorem name_ne_unlistedKey (c : Category) : c.name ≠ unlistedKey := by cases c <;> decide

end Packages

namespace Report

/-! ## Documents with one field changed -/

variable {fields lists : List (String × Document)} {r : BuildReport}

theorem ofDocument_insertField {name : String} {value : Document}
    (h : ReadsAlike name (fields.lookup name) (some value)) :
    ofDocument (.object fields) =
      ofDocument (.object (Document.insertField name value fields)) := by
  refine ofDocument_of_readsAlike fun other => ?_
  rw [Document.lookup_insertField]
  split
  · next hother => exact hother ▸ h
  · exact readsAlike_refl other _

/-- Package lists with known keys and the same entries are read alike. -/
theorem readsAlike_ports {lists' : List (String × Document)}
    (hknown : ∀ f ∈ lists, Packages.isKnownKey f.1)
    (hknown' : ∀ f ∈ lists', Packages.isKnownKey f.1)
    (hentries : ∀ c, Packages.entries lists' c = Packages.entries lists c) :
    ReadsAlike "ports" (some (.object lists)) (some (.object lists')) := by
  have hnone {l : List (String × Document)} (h : ∀ f ∈ l, Packages.isKnownKey f.1) :
      firstUnknown? (some (.object l)) = none := by
    simpa [firstUnknown?, Document.fieldsOf] using fun key d hmem => h (key, d) hmem
  have hkeys := (hnone hknown).trans (hnone hknown').symm
  refine ⟨hkeys, packages_decode?_congr ?_ fun c => (hentries c).symm⟩
  rw [List.all_eq_true.mpr hknown, List.all_eq_true.mpr hknown']

/-! ## The rows of an accepted document -/

section
variable (h : ofDocument (.object fields) = .ok (.build r))
include h

theorem isKnownKey_of_ofDocument (hports : fields.lookup "ports" = some (.object lists)) :
    ∀ f ∈ lists, Packages.isKnownKey f.1 :=
  List.all_eq_true.mp (all_isKnownKey_of_unknownCategory? (unknownCategory?_of_ofDocument h) hports)

theorem exists_ofFields : ∃ skipped, r = (BuildReport.ofFields fields skipped).normalize := by
  obtain ⟨_, heq, -, hdecode⟩ := ofDocument_ok h
  obtain rfl := Document.object.inj heq
  exact BuildReport.exists_of_decode (hdecode r rfl)

theorem packages_of_ofDocument (hports : fields.lookup "ports" = some (.object lists)) :
    ∃ p, r.packages = some p ∧ ∀ c, p.list c = Packages.entries lists c := by
  have hknown := List.all_eq_true.mpr (isKnownKey_of_ofDocument h hports)
  obtain ⟨skipped, rfl⟩ := exists_ofFields h
  have hpackages : (BuildReport.ofFields fields skipped).packages =
      Packages.decode? (.object lists) := by
    show Document.optional Packages.decode? (fields.lookup "ports") = _
    rw [hports]
    rfl
  rw [BuildReport.packages_normalize, hpackages]
  refine ⟨_, if_pos hknown, Packages.list_of_decode? (if_pos hknown)⟩

theorem jobs_of_ofDocument {items : List Document}
    (hjobs : fields.lookup "jobs" = some (.array items)) :
    r.jobs = some (items.filterMap Job.decode?) := by
  obtain ⟨skipped, rfl⟩ := exists_ofFields h
  have hset : (BuildReport.ofFields fields skipped).jobs = some (items.filterMap Job.decode?) := by
    show Document.rows? Job.decode? (fields.lookup "jobs") = _
    rw [hjobs]
    rfl
  have hnormal : (BuildReport.ofFields fields skipped).IsNormal :=
    fun hnone => nomatch hset.symm.trans hnone
  rw [BuildReport.normalize_of_isNormal hnormal, hset]

/-- The package lists of an accepted document may be changed where the entries stay. -/
theorem ofDocument_with_lists {lists' : List (String × Document)}
    (hports : fields.lookup "ports" = some (.object lists))
    (hknown' : ∀ f ∈ lists', Packages.isKnownKey f.1)
    (hentries : ∀ c, Packages.entries lists' c = Packages.entries lists c) :
    ofDocument (.object (Document.insertField "ports" (.object lists') fields)) =
      .ok (.build r) := by
  rw [← h]
  refine (ofDocument_insertField ?_).symm
  rw [hports]
  exact readsAlike_ports (isKnownKey_of_ofDocument h hports) hknown' hentries

end

end Report

open Report

/-- The rows of an accepted build document: they are made of the elements that decode, and neither
the other elements nor the unlisted packages leave a trace. -/
theorem rows_of_build {fields : List (String × Document)} {r : BuildReport}
    (h : ofDocument (.object fields) = .ok (.build r)) :
    (∀ lists, fields.lookup "ports" = some (.object lists) →
      (∃ p, r.packages = some p ∧
        ∀ c, Kept (Entry.decode? c) (Document.elementsOf (lists.lookup c.name)) (p.list c)) ∧
      (∀ c before d after, lists.lookup c.name = some (.array (before ++ d :: after)) →
        Entry.decode? c d = none →
        ofDocument (.object (Document.insertField "ports"
          (.object (Document.insertField c.name (.array (before ++ after)) lists)) fields)) =
            .ok (.build r)) ∧
      (∀ unlisted, ofDocument (.object (Document.insertField "ports"
        (.object (Document.insertField Packages.unlistedKey unlisted lists)) fields)) =
          .ok (.build r)) ∧
      ofDocument (.object (Document.insertField "ports"
        (.object (Document.removeField Packages.unlistedKey lists)) fields)) = .ok (.build r)) ∧
    (∀ items, fields.lookup "jobs" = some (.array items) →
      (∃ jobs, r.jobs = some jobs ∧ Kept Job.decode? items jobs) ∧
      ∀ before d after, items = before ++ d :: after → Job.decode? d = none →
        ofDocument (.object (Document.insertField "jobs" (.array (before ++ after)) fields)) =
          .ok (.build r)) := by
  refine ⟨fun lists hports => ?_, fun items hjobs => ⟨?_, ?_⟩⟩
  · have hknown := isKnownKey_of_ofDocument h hports
    refine ⟨?_, fun c before d after hlist hd => ?_, fun unlisted => ?_, ?_⟩
    · obtain ⟨p, hp, hentries⟩ := packages_of_ofDocument h hports
      refine ⟨p, hp, fun c => ?_⟩
      rw [hentries, Packages.entries_eq_filterMap]
      exact kept_filterMap _ _
    · exact ofDocument_with_lists h hports
        (Packages.isKnownKey_insertField hknown (Packages.isKnownKey_name c))
        (Packages.entries_insertField hlist hd)
    · refine ofDocument_with_lists h hports
        (Packages.isKnownKey_insertField hknown Packages.isKnownKey_unlistedKey) fun c => ?_
      rw [Packages.entries, Document.lookup_insertField, if_neg (Packages.name_ne_unlistedKey c),
        Packages.entries]
    · refine ofDocument_with_lists h hports
        (fun f hf => hknown f (List.mem_of_mem_filter hf)) fun c => ?_
      rw [Packages.entries, Document.lookup_removeField, if_neg (Packages.name_ne_unlistedKey c),
        Packages.entries]
  · exact ⟨_, jobs_of_ofDocument h hjobs, kept_filterMap _ _⟩
  · rintro before d after rfl hd
    rw [← h]
    refine (ofDocument_insertField ?_).symm
    rw [hjobs]
    exact congrArg some (filterMap_without hd before after)

/-- Two built packages with a number between them, a package that is not listed, and a builder after
one without a record. -/
theorem rows_around_malformed_ones :
    let first : Document := .object [("origin", .text "misc/a"), ("pkgname", .int 7)]
    let second : Document := .object [("origin", .null), ("pkgname", .text "b-1")]
    let builder : Document := .object [("id", .text "01")]
    let document (built jobs : List Document) : Document :=
      .object [("buildname", .text "b"), ("jobs", .array jobs),
        ("ports", .object [("built", .array built), ("tobuild", .array [first])])]
    ∃ r p, ofDocument (document [first, .int 17, second] [.null, builder]) = .ok (.build r) ∧
      r.packages = some p ∧ p.built.map (fun e => e.package.pkgname) = ["7", "b-1"] ∧
      r.jobs.map (List.map Job.id) = some ["01"] ∧
      ofDocument (document [first, second] [.null, builder]) = .ok (.build r) ∧
      ofDocument (document [first, .int 17, second] [builder]) = .ok (.build r) := by
  intro first second builder document
  have hread : ∃ r p, ofDocument (document [first, .int 17, second] [.null, builder]) =
        .ok (.build r) ∧ r.packages = some p ∧
      p.built.map (fun e => e.package.pkgname) = ["7", "b-1"] ∧
      r.jobs.map (List.map Job.id) = some ["01"] :=
    ⟨_, _, rfl, rfl, by decide +kernel, by decide +kernel⟩
  obtain ⟨r, p, hr, hp, hbuilt, hjobs⟩ := hread
  refine ⟨r, p, hr, hp, hbuilt, hjobs, ?_, ?_⟩
  · exact ((rows_of_build hr).1 _ rfl).2.1 .built [first] (.int 17) [second] rfl rfl
  · exact ((rows_of_build hr).2 _ rfl).2 [] .null [builder] rfl rfl

end BuildBoard
