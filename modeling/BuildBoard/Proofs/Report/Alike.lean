import BuildBoard.Report

/-!
# Documents that are read alike

A report takes from each field of its document only what it has a use for: counters from `stats`,
the entries that decode from `ports`, and so on. Where each field of two documents gives the same,
the documents are read alike: they give one report, or are refused for one cause. The workers of an
older producer fit this view of one field at a time, as they are read as a status and become jobs
only afterwards.

Results:
1. `readsAlike_refl`: what is the same is read alike.
2. `ofDocument_of_readsAlike`: documents whose fields are read alike have one outcome.
-/

namespace BuildBoard

namespace Document

/-- The fields of an object; anything else has none. -/
def fieldsOf : Option Document → List (String × Document)
  | some (.object fields) => fields
  | _ => []

end Document

namespace Report

open Document (fieldsOf)

/-- The first key of the package lists that names no category. -/
def firstUnknown? (ports : Option Document) : Option String :=
  ((fieldsOf ports).map Prod.fst).find? fun key => !Packages.isKnownKey key

/-- What a report takes from a field of this name is the same for both values. -/
def ReadsAlike (name : String) (a b : Option Document) : Prop :=
  match name with
  | "stats" => Document.optional Stats.decode? a = Document.optional Stats.decode? b
  | "snap" => Document.optional Snap.decode? a = Document.optional Snap.decode? b
  | "status" => BuildReport.statusOf a = BuildReport.statusOf b
  | "jobs" => Document.rows? Job.decode? a = Document.rows? Job.decode? b
  | "ports" =>
    firstUnknown? a = firstUnknown? b ∧
      Document.optional Packages.decode? a = Document.optional Packages.decode? b
  | "skipped" =>
    -- what is no map of counts is shown in the message of the refusal
    Document.counts? a = Document.counts? b ∧ (Document.counts? a = none → a = b)
  | "builds" =>
    Document.isSet a = Document.isSet b ∧
      ((fieldsOf a).lookup HistoryReport.latestKey).bind HistoryReport.latestOf =
        ((fieldsOf b).lookup HistoryReport.latestKey).bind HistoryReport.latestOf ∧
      (fieldsOf a).filterMap HistoryReport.buildOf = (fieldsOf b).filterMap HistoryReport.buildOf
  | "masternames" =>
    Document.isSet a = Document.isSet b ∧
      (fieldsOf a).filterMap OverviewReport.masterOf =
        (fieldsOf b).filterMap OverviewReport.masterOf
  | _ => a = b

theorem readsAlike_refl (name : String) (a : Option Document) : ReadsAlike name a a := by
  unfold ReadsAlike
  split <;> simp

/-! ## The readings of a document -/

variable {fields fields' : List (String × Document)}

theorem unknownCategory?_eq (fields : List (String × Document)) :
    unknownCategory? fields = firstUnknown? (fields.lookup "ports") := by
  unfold unknownCategory? firstUnknown?
  generalize fields.lookup "ports" = ports
  rcases ports with _ | d
  · rfl
  · cases d <;> rfl

theorem history_decode_eq (fields : List (String × Document)) :
    HistoryReport.decode fields =
      { mastername := Document.textOr (fields.lookup "mastername")
        latest := ((fieldsOf (fields.lookup "builds")).lookup HistoryReport.latestKey).bind
          HistoryReport.latestOf
        builds := (fieldsOf (fields.lookup "builds")).filterMap HistoryReport.buildOf } := rfl

theorem overview_decode_eq (fields : List (String × Document)) :
    OverviewReport.decode fields =
      ⟨(fieldsOf (fields.lookup "masternames")).filterMap OverviewReport.masterOf⟩ := by
  unfold OverviewReport.decode
  generalize fields.lookup "masternames" = masters
  rcases masters with _ | d
  · rfl
  · cases d <;> rfl

/-- Package lists are decoded from the entries of each category, if all keys are known. -/
theorem packages_decode?_congr {lists lists' : List (String × Document)}
    (hknown : (lists.all fun f => Packages.isKnownKey f.1) =
      lists'.all fun f => Packages.isKnownKey f.1)
    (hentries : ∀ c, Packages.entries lists c = Packages.entries lists' c) :
    Packages.decode? (.object lists) = Packages.decode? (.object lists') := by
  simp only [Packages.decode?, hknown, hentries]

variable (h : ∀ name, ReadsAlike name (fields.lookup name) (fields'.lookup name))

include h

theorem ofFields_of_readsAlike (skipped : List (String × Int)) :
    BuildReport.ofFields fields skipped = BuildReport.ofFields fields' skipped := by
  have hstats : Document.optional Stats.decode? (fields.lookup "stats") = _ := h "stats"
  have hsnap : Document.optional Snap.decode? (fields.lookup "snap") = _ := h "snap"
  have hstatus : BuildReport.statusOf (fields.lookup "status") = _ := h "status"
  have hjobs : Document.rows? Job.decode? (fields.lookup "jobs") = _ := h "jobs"
  have hports : Document.optional Packages.decode? (fields.lookup "ports") = _ := (h "ports").2
  have hplain (name : String) (hname : ReadsAlike name = Eq) :
      fields.lookup name = fields'.lookup name := hname ▸ h name
  have hjail : BuildReport.jailField fields = BuildReport.jailField fields' := by
    rw [BuildReport.jailField, hplain "jailname" rfl, hplain "jail" rfl, BuildReport.jailField]
  simp only [BuildReport.ofFields, hstats, hsnap, hstatus, hjobs, hports, hjail,
    hplain "mastername" rfl, hplain "buildname" rfl, hplain "setname" rfl, hplain "ptname" rfl,
    hplain "overlays" rfl, hplain "git_hash" rfl, hplain "git_dirty" rfl, hplain "svn_url" rfl]

theorem decode_of_readsAlike : BuildReport.decode fields = BuildReport.decode fields' := by
  have hjail : fields.lookup "jail" = fields'.lookup "jail" := h "jail"
  have hjailname : fields.lookup "jailname" = fields'.lookup "jailname" := h "jailname"
  obtain ⟨hcounts, hfound⟩ :
    Document.counts? (fields.lookup "skipped") = Document.counts? (fields'.lookup "skipped") ∧
      (Document.counts? (fields.lookup "skipped") = none →
        fields.lookup "skipped" = fields'.lookup "skipped") := h "skipped"
  rw [BuildReport.decode, BuildReport.decode, hjail, hjailname, ← hcounts]
  split
  · rfl
  · split
    · next skipped _ => rw [ofFields_of_readsAlike h skipped]
    · next hnone => rw [hfound hnone]

/-- Documents whose fields are read alike give one report, or are refused for one cause. -/
theorem ofDocument_of_readsAlike : ofDocument (.object fields) = ofDocument (.object fields') := by
  have hbuildname : fields.lookup "buildname" = fields'.lookup "buildname" := h "buildname"
  have hmastername : fields.lookup "mastername" = fields'.lookup "mastername" := h "mastername"
  obtain ⟨hsetBuilds, hlatest, hbuilds⟩ := show _ ∧ _ ∧ _ from h "builds"
  obtain ⟨hsetMasters, hmasters⟩ := show _ ∧ _ from h "masternames"
  have hunknown : firstUnknown? (fields.lookup "ports") = _ := (h "ports").1
  have hkind : kindOf? fields = kindOf? fields' := by
    rw [kindOf?, hbuildname, hsetBuilds, hsetMasters, kindOf?]
  rw [ofDocument, ofDocument, hkind, unknownCategory?_eq, hunknown, ← unknownCategory?_eq,
    decode_of_readsAlike h, history_decode_eq, hmastername, hlatest, hbuilds, ← history_decode_eq,
    overview_decode_eq, hmasters, ← overview_decode_eq]

end Report

end BuildBoard
