import BuildBoard.Proofs.Verdict

/-!
# Documents of older producers

An older producer lists the workers of a build where the status stands and writes no jobs. Its
document reads like the one that a newer producer would write: the first worker, if it is `main`, gives
the status, and the others are the jobs. That is so whatever else the document holds, and also where it
is refused, as status and jobs decide neither on the kind of a document nor on its acceptance.

Results:
1. `ofDocument_congr`: documents that say the same of status and jobs, and have the same fields
   elsewhere, give one report or are refused for one cause.
2. `normalize_normalize`, `isNormal_normalize`: a report is brought into the newer form once for all.
3. `isSome_jobs_iff`, `isSome_packages_iff`: which sections the report of a document has.
4. `ofDocument_main`, `ofDocument_workers`: the newer form of an older document.
5. `older_reads_as_newer`: what is said of older documents together.
-/

namespace BuildBoard

namespace Document

/-! ## Fields that are set or taken away -/

/-- The fields without the one of this name. -/
def removeField (name : String) (fields : List (String × Document)) : List (String × Document) :=
  fields.filter fun f => decide (f.1 ≠ name)

theorem lookup_cons (k : String) (v : Document) (rest : List (String × Document)) (name : String) :
    ((k, v) :: rest).lookup name = if name = k then some v else rest.lookup name := by
  rw [List.lookup_cons]
  split
  · next heq => rw [if_pos (beq_iff_eq.mp heq)]
  · next hne => rw [if_neg (beq_eq_false_iff_ne.mp hne)]

theorem lookup_insertField (name : String) (value : Document) (fields : List (String × Document))
    (other : String) :
    (insertField name value fields).lookup other =
      if other = name then some value else fields.lookup other := by
  induction fields with
  | nil => exact lookup_cons name value [] other
  | cons f rest ih =>
    obtain ⟨k, v⟩ := f
    unfold insertField
    split
    · exact lookup_cons name value _ other
    · split
      · next heq =>
        subst heq
        by_cases hname : other = name <;> simp only [lookup_cons, hname, if_true, if_false]
      · next hne =>
        rw [lookup_cons, lookup_cons, ih]
        by_cases hk : other = k
        · subst hk
          rw [if_pos rfl, if_neg (Ne.symm hne), if_pos rfl]
        · rw [if_neg hk, if_neg hk]

theorem lookup_removeField (name : String) (fields : List (String × Document)) (other : String) :
    (removeField name fields).lookup other =
      if other = name then none else fields.lookup other := by
  induction fields with
  | nil => exact (ite_self none).symm
  | cons f rest ih =>
    obtain ⟨k, v⟩ := f
    rw [removeField] at ih ⊢
    by_cases hk : k = name
    · subst hk
      rw [List.filter_cons_of_neg (by simp), ih, lookup_cons]
      by_cases hname : other = k <;> simp only [hname, if_true, if_false]
    · rw [List.filter_cons_of_pos (by simpa using hk), lookup_cons, lookup_cons, ih]
      by_cases hother : other = k
      · subst hother
        rw [if_pos rfl, if_neg hk, if_pos rfl]
      · rw [if_neg hother, if_neg hother]

end Document

/-! ## Fields that are read alike -/

/-- The fields are the same, apart from status and jobs. -/
def SameElsewhere (fields fields' : List (String × Document)) : Prop :=
  ∀ name, name ≠ "status" → name ≠ "jobs" → fields.lookup name = fields'.lookup name

namespace BuildReport

variable {fields fields' : List (String × Document)}

theorem ofFields_congr (h : SameElsewhere fields fields') (skipped : List (String × Int)) :
    ofFields fields skipped =
      { ofFields fields' skipped with
        status := statusOf (fields.lookup "status")
        jobs := Document.rows? Job.decode? (fields.lookup "jobs") } := by
  have hjail : jailField fields = jailField fields' := by
    rw [jailField, h "jailname" (by decide) (by decide), h "jail" (by decide) (by decide), jailField]
  simp only [ofFields, hjail, h "mastername" (by decide) (by decide),
    h "buildname" (by decide) (by decide), h "setname" (by decide) (by decide),
    h "ptname" (by decide) (by decide), h "stats" (by decide) (by decide),
    h "snap" (by decide) (by decide), h "ports" (by decide) (by decide),
    h "overlays" (by decide) (by decide), h "git_hash" (by decide) (by decide),
    h "git_dirty" (by decide) (by decide), h "svn_url" (by decide) (by decide)]

theorem decode_congr (h : SameElsewhere fields fields')
    (hnormal : ∀ skipped,
      (ofFields fields skipped).normalize = (ofFields fields' skipped).normalize) :
    decode fields = decode fields' := by
  rw [decode, decode, h "jail" (by decide) (by decide), h "jailname" (by decide) (by decide),
    h "skipped" (by decide) (by decide)]
  split
  · rfl
  · split
    · next skipped _ => rw [hnormal skipped]
    · rfl

theorem exists_of_decode {r : BuildReport} (h : decode fields = .ok r) :
    ∃ skipped, r = (ofFields fields skipped).normalize := by
  unfold decode at h
  split at h
  · cases h
  · split at h
    · next skipped _ => exact ⟨skipped, (Except.ok.inj h).symm⟩
    · cases h

/-! ## The newer form of a report -/

/-- A report with jobs, or without workers, is in the newer form. -/
def IsNormal (r : BuildReport) : Prop := r.jobs = none → ∀ workers, r.status ≠ some (.workers workers)

theorem normalize_of_isNormal {r : BuildReport} (h : r.IsNormal) : r.normalize = r := by
  unfold normalize
  split
  · next main jobs hjobs hstatus => exact absurd hstatus (h hjobs _)
  · next hjobs hstatus => exact absurd hstatus (h hjobs _)
  · rfl

theorem isNormal_normalize (r : BuildReport) : r.normalize.IsNormal := by
  unfold normalize
  split
  · -- the jobs are set, with or without `main`
    split
    · exact nofun
    · exact nofun
  · exact nofun
  · next hnotWorkers hnotEmpty =>
    intro hjobs workers hstatus
    cases workers with
    | nil => exact hnotEmpty hjobs hstatus
    | cons main jobs => exact hnotWorkers main jobs hjobs hstatus

theorem normalize_normalize (r : BuildReport) : r.normalize.normalize = r.normalize :=
  normalize_of_isNormal (isNormal_normalize r)

theorem normalize_of_main {r : BuildReport} (hjobs : r.jobs = none) {main : Job} {jobs : List Job}
    (hstatus : r.status = some (.workers (main :: jobs))) (hmain : main.id = "main") :
    r.normalize = { r with status := some (.text main.status), jobs := some jobs } := by
  simp only [normalize, hjobs, hstatus, hmain, if_true]

theorem normalize_of_workers {r : BuildReport} (hjobs : r.jobs = none) {workers : List Job}
    (hstatus : r.status = some (.workers workers))
    (hfirst : ∀ main, workers.head? = some main → main.id ≠ "main") :
    r.normalize = { r with status := none, jobs := some workers } := by
  cases workers with
  | nil => simp only [normalize, hjobs, hstatus]
  | cons first jobs => simp only [normalize, hjobs, hstatus, hfirst first rfl, if_false]

theorem packages_normalize (r : BuildReport) : r.normalize.packages = r.packages := by
  unfold normalize
  split
  · split <;> rfl
  · rfl
  · rfl

end BuildReport

/-! ## The newer form of a document -/

namespace Report

variable {fields fields' : List (String × Document)}

/-- Documents that come to the same status and jobs give one report, or are refused for one cause. -/
theorem ofDocument_congr (h : SameElsewhere fields fields')
    (hnormal : ∀ skipped,
      (BuildReport.ofFields fields skipped).normalize =
        (BuildReport.ofFields fields' skipped).normalize) :
    ofDocument (.object fields) = ofDocument (.object fields') := by
  have hkind : kindOf? fields = kindOf? fields' := by
    rw [kindOf?, h "buildname" (by decide) (by decide), h "builds" (by decide) (by decide),
      h "masternames" (by decide) (by decide), kindOf?]
  have hunknown : unknownCategory? fields = unknownCategory? fields' := by
    rw [unknownCategory?, h "ports" (by decide) (by decide), unknownCategory?]
  have hhistory : HistoryReport.decode fields = HistoryReport.decode fields' := by
    rw [HistoryReport.decode, h "builds" (by decide) (by decide),
      h "mastername" (by decide) (by decide), HistoryReport.decode]
  have hoverview : OverviewReport.decode fields = OverviewReport.decode fields' := by
    rw [OverviewReport.decode, h "masternames" (by decide) (by decide), OverviewReport.decode]
  rw [ofDocument, ofDocument, hkind, hunknown, hhistory, hoverview,
    BuildReport.decode_congr h hnormal]

/-- No report has both workers in place of its status and no jobs. -/
theorem isNormal_of_ofDocument {doc : Document} {r : BuildReport}
    (h : ofDocument doc = .ok (.build r)) : r.IsNormal := by
  obtain ⟨fields, rfl, -, hdecode⟩ := ofDocument_ok h
  obtain ⟨skipped, rfl⟩ := BuildReport.exists_of_decode (hdecode r rfl)
  exact BuildReport.isNormal_normalize _

/-- An accepted build document lists its packages under known keys only. -/
theorem unknownCategory?_of_ofDocument {r : BuildReport}
    (h : ofDocument (.object fields) = .ok (.build r)) : unknownCategory? fields = none := by
  unfold ofDocument at h
  dsimp only at h
  split at h
  · cases h
  · split at h
    · cases h
    · next hnone => exact hnone
  · cases h
  · cases h

/-- Keys that are all known do not spoil the lists. -/
theorem all_isKnownKey_of_unknownCategory? {lists : List (String × Document)}
    (h : unknownCategory? fields = none) (hports : fields.lookup "ports" = some (.object lists)) :
    (lists.all fun f => Packages.isKnownKey f.1) = true := by
  unfold unknownCategory? at h
  rw [hports] at h
  rw [List.all_eq_true]
  intro f hf
  simpa using List.find?_eq_none.mp h f.1 (List.mem_map_of_mem hf)

/-- The fields of an older producer: these workers in place of the status, and no jobs. -/
structure Older (fields : List (String × Document)) (workers : List Document) : Prop where
  jobs : fields.lookup "jobs" = none ∨ fields.lookup "jobs" = some .null
  status : fields.lookup "status" = some (.array workers)

namespace Older

variable {workers : List Document} (h : Older fields workers)

include h

theorem jobs_ofFields (skipped : List (String × Int)) :
    (BuildReport.ofFields fields skipped).jobs = none :=
  (rows?_eq_none_iff Job.decode? _).mpr h.jobs

theorem status_ofFields (skipped : List (String × Int)) :
    (BuildReport.ofFields fields skipped).status =
      some (.workers (workers.filterMap Job.decode?)) :=
  (statusOf_workers_iff _ _).mpr ⟨workers, h.status, rfl⟩

end Older

/-- With `main` among the workers, that is the status and the others are the jobs. -/
theorem ofDocument_main {main : List (String × Document)} {rest : List Document} {s : String}
    (h : Older fields (.object main :: rest)) (hid : main.lookup "id" = some (.text "main"))
    (hstatus : main.lookup "status" = some (.text s)) :
    ofDocument (.object fields) =
      ofDocument (.object
        (Document.insertField "jobs" (.array rest)
          (Document.insertField "status" (.text s) fields))) := by
  have hsame : SameElsewhere fields
      (Document.insertField "jobs" (.array rest)
        (Document.insertField "status" (.text s) fields)) := by
    intro name hnotStatus hnotJobs
    rw [Document.lookup_insertField, if_neg hnotJobs, Document.lookup_insertField,
      if_neg hnotStatus]
  refine ofDocument_congr hsame fun skipped => ?_
  let job := Job.ofFields fun name => main.lookup name
  have hjob : job.id = "main" ∧ job.status = s := by
    simp only [job, Job.ofFields, hid, hstatus]
    exact ⟨rfl, rfl⟩
  have hworkers : (BuildReport.ofFields fields skipped).status =
      some (.workers (job :: rest.filterMap Job.decode?)) := h.status_ofFields skipped
  rw [BuildReport.normalize_of_main (h.jobs_ofFields skipped) hworkers hjob.1, hjob.2,
    BuildReport.ofFields_congr hsame skipped, BuildReport.normalize_of_isNormal]
  · simp only [BuildReport.ofFields, Document.lookup_insertField]
    rfl
  · intro hnone
    simp only [BuildReport.ofFields, Document.lookup_insertField] at hnone
    cases hnone

/-- Without `main` among the workers all of them are jobs, and there is no status. -/
theorem ofDocument_workers {workers : List Document} (h : Older fields workers)
    (hfirst : workers = [] ∨ ∃ first rest, workers = .object first :: rest ∧
      Document.textOr (first.lookup "id") ≠ "main") :
    ofDocument (.object fields) =
      ofDocument (.object
        (Document.insertField "jobs" (.array workers)
          (Document.removeField "status" fields))) := by
  have hsame : SameElsewhere fields
      (Document.insertField "jobs" (.array workers) (Document.removeField "status" fields)) := by
    intro name hnotStatus hnotJobs
    rw [Document.lookup_insertField, if_neg hnotJobs, Document.lookup_removeField,
      if_neg hnotStatus]
  refine ofDocument_congr hsame fun skipped => ?_
  have hother : ∀ job, (workers.filterMap Job.decode?).head? = some job → job.id ≠ "main" := by
    intro job hjob
    rcases hfirst with rfl | ⟨first, rest, rfl, hid⟩
    · cases hjob
    · obtain rfl := Option.some.inj hjob
      exact hid
  rw [BuildReport.normalize_of_workers (h.jobs_ofFields skipped) (h.status_ofFields skipped) hother,
    BuildReport.ofFields_congr hsame skipped, BuildReport.normalize_of_isNormal]
  · simp only [BuildReport.ofFields, Document.lookup_insertField, Document.lookup_removeField]
    rfl
  · intro hnone
    simp only [BuildReport.ofFields, Document.lookup_insertField] at hnone
    cases hnone

end Report

open Report

/-- A document of an older producer reads like that of a newer one. -/
theorem older_reads_as_newer {fields : List (String × Document)} {workers : List Document}
    (h : Older fields workers) :
    (∀ main rest s, workers = .object main :: rest →
      main.lookup "id" = some (.text "main") → main.lookup "status" = some (.text s) →
      ofDocument (.object fields) =
        ofDocument (.object
          (Document.insertField "jobs" (.array rest)
            (Document.insertField "status" (.text s) fields)))) ∧
    ((workers = [] ∨ ∃ first rest, workers = .object first :: rest ∧
        Document.textOr (first.lookup "id") ≠ "main") →
      ofDocument (.object fields) =
        ofDocument (.object
          (Document.insertField "jobs" (.array workers)
            (Document.removeField "status" fields)))) ∧
    (∀ r : BuildReport, r.normalize.normalize = r.normalize) ∧
    ∀ doc r, ofDocument doc = .ok (.build r) →
      ¬ (r.jobs = none ∧ ∃ jobs, r.status = some (.workers jobs)) := by
  refine ⟨?_, ofDocument_workers h, BuildReport.normalize_normalize, ?_⟩
  · rintro main rest s rfl hid hstatus
    exact ofDocument_main h hid hstatus
  · rintro doc r hdoc ⟨hjobs, jobs, hstatus⟩
    exact isNormal_of_ofDocument hdoc hjobs jobs hstatus

/-- A build that has stopped, with one builder left, in the older and in the newer form. -/
theorem older_stopped_build :
    let main : List (String × Document) := [("id", .text "main"), ("status", .text "stopped:done:")]
    let builder : Document := .object [("id", .text "01"), ("status", .text "idle:")]
    let fields := [("buildname", .text "b"), ("status", .array [.object main, builder])]
    let newer := [
      ("buildname", .text "b"), ("jobs", .array [builder]), ("status", .text "stopped:done:")]
    Older fields [.object main, builder] ∧
      ofDocument (.object fields) = ofDocument (.object newer) ∧
      ∃ r, ofDocument (.object newer) = .ok (.build r) ∧
        r.statusText? = some "stopped:done:" ∧ r.jobs.map (List.map Job.id) = some ["01"] := by
  intro main builder fields newer
  have holder : Older fields [.object main, builder] := ⟨.inl rfl, rfl⟩
  refine ⟨holder, ?_, _, rfl, rfl, rfl⟩
  exact (older_reads_as_newer holder).1 main [builder] "stopped:done:" rfl rfl rfl

end BuildBoard
