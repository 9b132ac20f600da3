import BuildBoard.Proofs.Dashboard.Reachable

/-!
# When polling ends

Polling ends with the build, and a build has ended when the first field of its status is
`stopped`. The status is a text, or that of the worker `main` where an older producer lists workers
in its place.

Results:
1. `isStopped_iff`: a report has stopped by its status text alone.
2. `statusText?_normalize`: where the status text of a report comes from.
3. `decoded_isStopped_iff`: which build documents have stopped.
4. `process_stop_iff`: the verdict of a reachable dashboard.
-/

namespace BuildBoard

/-! ## Reports -/

namespace BuildReport

/-- A report has stopped if its status text says so, and goes on without one. -/
theorem isStopped_iff (r : BuildReport) :
    BuildPage.isStopped r ↔ ∃ s, r.statusText? = some s ∧ Status.state s = "stopped" := by
  unfold BuildPage.isStopped
  cases r.statusText? with
  | none => exact iff_of_false (by decide) nofun
  | some s =>
    show Status.isStopped (Status.abridge s) ↔ _
    rw [Status.isStopped_abridge]
    simp only [Option.some.injEq, exists_eq_left']

/-- A status text is written as such, or is that of the first worker if it is `main` and there are
no jobs. -/
theorem statusText?_normalize (r : BuildReport) (s : String) :
    r.normalize.statusText? = some s ↔
      r.status = some (.text s) ∨
      r.jobs = none ∧ ∃ main jobs,
        r.status = some (.workers (main :: jobs)) ∧ main.id = "main" ∧ main.status = s := by
  unfold normalize
  split
  · next main jobs hjobs hstatus =>
    -- workers stand in place of the status, so no text was written there
    rw [hstatus, hjobs]
    split
    · next hmain =>
      show some main.status = some s ↔ _
      constructor
      · intro h
        exact .inr ⟨rfl, main, jobs, rfl, hmain, Option.some.inj h⟩
      · rintro (h | ⟨-, _, _, h, -, rfl⟩)
        · cases h
        · cases h
          rfl
    · next hother =>
      refine iff_of_false nofun ?_
      rintro (h | ⟨-, _, _, h, hmain, -⟩)
      · cases h
      · cases h
        exact hother hmain
  · next hjobs hstatus =>
    rw [hstatus]
    refine iff_of_false nofun ?_
    rintro (h | ⟨-, _, _, h, -⟩) <;> cases h
  · next hnotWorkers hnotEmpty =>
    constructor
    · intro h
      unfold statusText? at h
      split at h
      · next htext => exact .inl (htext.trans (congrArg _ (congrArg _ (Option.some.inj h))))
      · cases h
    · rintro (h | ⟨hjobs, main, jobs, hstatus, -⟩)
      · rw [statusText?, h]
      · exact absurd hstatus (hnotWorkers main jobs hjobs)

end BuildReport

/-! ## Documents -/

/-- The text of a number is not a state that ends a build. -/
theorem state_ne_stopped_of_isNumberText {s : String} (h : IsNumberText s.toList) :
    Status.state s ≠ "stopped" := by
  intro hstate
  have hmem : 's' ∈ s.toList := by
    refine (List.takeWhile_sublist (· != ':')).mem ?_
    rw [← String.toList_ofList (l := s.toList.takeWhile _), ← Status.state, hstate]
    decide
  exact absurd (h 's' hmem) (by decide)

/-- A field is read as a status text that ends a build only where it is that text. -/
theorem statusOf_stopped_iff (field : Option Document) :
    (∃ s, BuildReport.statusOf field = some (.text s) ∧ Status.state s = "stopped") ↔
      ∃ s, field = some (.text s) ∧ Status.state s = "stopped" := by
  constructor
  · rintro ⟨s, hs, hstate⟩
    unfold BuildReport.statusOf at hs
    split at hs
    · obtain ⟨⟩ := hs
      exact ⟨s, rfl, hstate⟩
    · obtain ⟨⟩ := hs
      exact absurd hstate (state_ne_stopped_of_isNumberText (isNumberText_decimalText _))
    · next x =>
      obtain ⟨⟩ := hs
      have hafter : IsNumberText documentStyle.afterWhole :=
        .cons (by decide) (.cons (by decide) .nil)
      exact absurd hstate
        (state_ne_stopped_of_isNumberText (NumberStyle.isNumberText_text hafter x))
    · cases hs
    · cases hs
  · rintro ⟨s, rfl, hstate⟩
    exact ⟨s, rfl, hstate⟩

theorem statusOf_workers_iff (field : Option Document) (jobs : List Job) :
    BuildReport.statusOf field = some (.workers jobs) ↔
      ∃ items, field = some (.array items) ∧ items.filterMap Job.decode? = jobs := by
  constructor
  · intro h
    unfold BuildReport.statusOf at h
    split at h
    case h_4 items => exact ⟨items, rfl, BuildStatus.workers.inj (Option.some.inj h)⟩
    all_goals cases h
  · rintro ⟨items, rfl, rfl⟩
    rfl

theorem rows?_eq_none_iff {α : Type} (decode : Document → Option α) (field : Option Document) :
    Document.rows? decode field = none ↔ field = none ∨ field = some .null := by
  unfold Document.rows?
  split
  · exact iff_of_true rfl (.inl rfl)
  · exact iff_of_true rfl (.inr rfl)
  · next hnull => exact iff_of_false nofun (by rintro (h | h) <;> cases h; exact hnull rfl)

/-- The fields of a build document say that the build has stopped. -/
def SaysStopped (fields : List (String × Document)) : Prop :=
  (∃ s, fields.lookup "status" = some (.text s) ∧ Status.state s = "stopped") ∨
  (fields.lookup "jobs" = none ∨ fields.lookup "jobs" = some .null) ∧
    ∃ items main, fields.lookup "status" = some (.array items) ∧
      items.findSome? Job.decode? = some main ∧
      main.id = "main" ∧ Status.state main.status = "stopped"

theorem findSome?_decode_iff (items : List Document) (main : Job) :
    items.findSome? Job.decode? = some main ↔
      ∃ jobs, items.filterMap Job.decode? = main :: jobs := by
  rw [← List.head?_filterMap, List.head?_eq_some_iff]

theorem ofFields_isStopped_iff (fields : List (String × Document)) (skipped : List (String × Int)) :
    BuildPage.isStopped (BuildReport.ofFields fields skipped).normalize ↔ SaysStopped fields := by
  have hjobs : (BuildReport.ofFields fields skipped).jobs = none ↔
      fields.lookup "jobs" = none ∨ fields.lookup "jobs" = some .null :=
    rows?_eq_none_iff Job.decode? _
  have htext := statusOf_stopped_iff (fields.lookup "status")
  have hworkers := statusOf_workers_iff (fields.lookup "status")
  rw [BuildReport.isStopped_iff]
  constructor
  · rintro ⟨s, hs, hstate⟩
    rcases (BuildReport.statusText?_normalize _ s).mp hs with h | ⟨hnone, main, jobs, h, hmain, rfl⟩
    · exact .inl (htext.mp ⟨s, h, hstate⟩)
    · obtain ⟨items, hitems, hrows⟩ := (hworkers _).mp h
      have hfirst := (findSome?_decode_iff items main).mpr ⟨jobs, hrows⟩
      exact .inr ⟨hjobs.mp hnone, items, main, hitems, hfirst, hmain, hstate⟩
  · rintro (h | ⟨hnone, items, main, hitems, hfirst, hmain, hstate⟩)
    · obtain ⟨s, hs, hstate⟩ := htext.mpr h
      exact ⟨s, (BuildReport.statusText?_normalize _ s).mpr (.inl hs), hstate⟩
    · obtain ⟨jobs, hrows⟩ := (findSome?_decode_iff items main).mp hfirst
      have hstatus := (hworkers (main :: jobs)).mpr ⟨items, hitems, hrows⟩
      refine ⟨main.status, (BuildReport.statusText?_normalize _ _).mpr (.inr ?_), hstate⟩
      exact ⟨hjobs.mpr hnone, main, jobs, hstatus, hmain, rfl⟩

theorem decoded_isStopped_iff {fields : List (String × Document)} {r : BuildReport}
    (h : BuildReport.decode fields = .ok r) : BuildPage.isStopped r ↔ SaysStopped fields := by
  unfold BuildReport.decode at h
  split at h
  · cases h
  · split at h
    · next skipped _ =>
      obtain rfl := Except.ok.inj h
      exact ofFields_isStopped_iff fields skipped
    · cases h

/-! ## Verdicts -/

theorem verdict_eq_stop_iff (r : BuildReport) :
    BuildPage.verdict r = .stop ↔ BuildPage.isStopped r := by
  unfold BuildPage.verdict
  split
  · next h => exact iff_of_true rfl h
  · next h => exact iff_of_false nofun h

/-- An accepted document is an object of its report's kind, decoded as such where it is a build. -/
theorem ofDocument_ok {doc : Document} {report : Report} (h : Report.ofDocument doc = .ok report) :
    ∃ fields, doc = .object fields ∧ Report.kindOf? fields = some report.kind ∧
      ∀ r, report = .build r → BuildReport.decode fields = .ok r := by
  unfold Report.ofDocument at h
  split at h
  · next fields =>
    refine ⟨fields, rfl, ?_⟩
    split at h
    · cases h
    · next hkind =>
      split at h
      · cases h
      · cases hdecode : BuildReport.decode fields with
        | error cause =>
          rw [hdecode] at h
          cases h
        | ok r =>
          rw [hdecode] at h
          cases h
          exact ⟨hkind, fun r' hr' => congrArg Except.ok (Report.build.inj hr')⟩
    · next hkind =>
      generalize HistoryReport.decode fields = history at h
      obtain rfl := Except.ok.inj h
      exact ⟨hkind, fun r hr => nomatch hr⟩
    · next hkind =>
      generalize OverviewReport.decode fields = overview at h
      obtain rfl := Except.ok.inj h
      exact ⟨hkind, fun r hr => nomatch hr⟩
  · cases h

/-- The verdict of a document, whatever page it comes to. -/
theorem ofDocument_stop_iff {doc : Document} {report : Report}
    (h : Report.ofDocument doc = .ok report) :
    report.verdict = .stop ↔
      ∃ fields, doc = .object fields ∧ Report.kindOf? fields = some .build ∧
        SaysStopped fields := by
  obtain ⟨fields, rfl, hkind, hdecode⟩ := ofDocument_ok h
  cases report with
  | build r =>
    have hstopped := decoded_isStopped_iff (hdecode r rfl)
    constructor
    · intro hstop
      exact ⟨fields, rfl, hkind, hstopped.mp ((verdict_eq_stop_iff r).mp hstop)⟩
    · rintro ⟨fields', heq, -, hsays⟩
      obtain rfl := Document.object.inj heq
      exact (verdict_eq_stop_iff r).mpr (hstopped.mpr hsays)
  | history | overview =>
    refine iff_of_false nofun ?_
    rintro ⟨fields', heq, hbuild, -⟩
    obtain rfl := Document.object.inj heq
    exact nomatch hkind.symm.trans hbuild

/-- A dashboard ends polling on a build document that says that the build has stopped, and on no
other one. -/
theorem process_stop_iff {d : Dashboard} (hd : d.Reachable) (doc : Document) (wallClock : Int)
    {verdict : Verdict} (hok : (d.process doc wallClock).1 = .ok verdict) :
    verdict = .stop ↔
      ∃ fields, doc = .object fields ∧ Report.kindOf? fields = some .build ∧
        SaysStopped fields := by
  have hagrees : Dashboard.Agrees { d with scrollTo := none } := hd.agrees
  unfold Dashboard.process at hok
  dsimp only at hok
  split at hok
  · cases hok
  · next report hreport =>
    rw [← ofDocument_stop_iff hreport, ← Dashboard.accept_fst hagrees report wallClock]
    rw [Except.ok.inj hok]

/-- An overview page that is given the workers of a stopped build ends polling. -/
theorem process_stopped_main_worker :
    ∃ d : Dashboard, d.Reachable ∧ d.ctx.kind = .index ∧ ∃ doc,
      (d.process doc 0).1 = .ok .stop ∧ ∃ fields, doc = .object fields ∧
        Report.kindOf? fields = some .build ∧ SaysStopped fields := by
  have hd := Dashboard.Reachable.new (.new .index .inline none none) ⟨100, 1, 0, 1, none⟩
  have hok : ((Dashboard.new (.new .index .inline none none) ⟨100, 1, 0, 1, none⟩).process
      (.object [("buildname", .text "b"), ("status", .array
        [.null, .object [("id", .text "main"), ("status", .text "stopped:done")]])]) 0).1 =
      .ok .stop := by rfl
  exact ⟨_, hd, rfl, _, hok, (process_stop_iff hd _ 0 hok).mp rfl⟩

end BuildBoard
