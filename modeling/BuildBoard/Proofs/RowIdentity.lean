import BuildBoard.Proofs.Dashboard.Shown
import BuildBoard.Proofs.History
import BuildBoard.Proofs.IdleBuilders

/-!
# Identities of the rows shown

Each page has one keyed table: builders by their id, builds by their name, masters by their name. A
report that gives a new identity twice brings two rows of it, and both stay. So the rows are distinct
just where every report of the page gives each identity once that no report before it gave. In a
history that is so by the form of its documents; workers and masters may share a name.

Results:
1. `Shows.rowIds_eq`: the identities of a page, told from its reports.
2. `nodup_gathered_iff`: when they are distinct.
3. `nodup_rowIds_iff`: when the rows are distinct after a run.
4. `one_master_twice`: a master that an overview shows in two rows.
-/

namespace BuildBoard

/-! ## Definitions -/

/-- The identities of the rows in the keyed table of a page. -/
def PageState.rowIds : PageState → List String
  | .build p => p.builders.ids
  | .history p => p.builds.ids
  | .overview p => p.masters.ids

/-- The index of that table is right. -/
def PageState.Indexed : PageState → Prop
  | .build p => p.builders.Indexed
  | .history p => p.builds.Indexed
  | .overview p => p.masters.Indexed

/-- The name that a master is shown under. -/
def OverviewReport.shownName (master : String × Option BuildSummary) : Option String :=
  master.2.map fun latest => if latest.mastername.isEmpty then master.1 else latest.mastername

/-- The identities of the rows that a report gives, in their order. -/
def Report.rowIds : Report → List String
  | .build r =>
    ((r.jobs.getD []).filter fun job => !(BuildPage.isStopped r && decide job.IsIdle)).map Job.id
  | .history r => r.builds.map Prod.fst
  | .overview r => r.masters.filterMap OverviewReport.shownName

/-- Identities with those of a poll that are new. -/
def withNew (ids polled : List String) : List String :=
  ids ++ polled.filter fun id => decide (id ∉ ids)

/-- The identities that these reports give, each in its place when it first comes. -/
def Report.gathered (reports : List Report) : List String :=
  reports.foldl (fun ids report => withNew ids report.rowIds) []

/-! ## The rows of one report -/

theorem ids_builderRows (r : BuildReport) (now : Int) (jobs : List Job) :
    (BuildPage.builderRows r now jobs).map Keyed.id =
      (jobs.filter fun job => !(BuildPage.isStopped r && decide job.IsIdle)).map Job.id := by
  have hidle (job : Job) : (BuilderRow.ofJob now job).isIdle = decide job.IsIdle := by
    rw [Bool.eq_iff_iff, BuildPage.isIdle_ofJob, decide_eq_true_iff]
  rw [BuildPage.builderRows, List.filter_map, List.map_map]
  refine congrArg (List.map _) (List.filter_congr fun job _ => ?_)
  show (!(BuildPage.isStopped r && (BuilderRow.ofJob now job).isIdle)) = _
  rw [hidle]

theorem ids_overviewRows (r : OverviewReport) :
    (OverviewPage.rowsOf r).map Keyed.id = r.masters.filterMap OverviewReport.shownName := by
  rw [OverviewPage.rowsOf, List.map_filterMap]
  refine List.filterMap_congr fun master _ => ?_
  obtain ⟨key, latest⟩ := master
  cases latest <;> rfl

/-! ## The identities of a page -/

namespace PageState

theorem indexed_blank (settings : DashboardSettings) (kind : PageKind) :
    (blank settings kind).Indexed := by
  cases kind <;> exact KeyedTable.indexed_empty

theorem rowIds_blank (settings : DashboardSettings) (kind : PageKind) :
    (blank settings kind).rowIds = [] := by
  cases kind <;> rfl

theorem builders_relayout (p : BuildPage) (width : Nat) :
    (p.relayout width).builders = p.builders := by
  obtain ⟨percent, bar, heq⟩ := BuildPage.relayout_eq p width
  rw [heq]

theorem indexed_relayout {state : PageState} (h : state.Indexed) (width : Nat) :
    (state.relayout width).Indexed := by
  cases state with
  | build p =>
    show (p.relayout width).builders.Indexed
    rw [builders_relayout]
    exact h
  | _ => exact h

theorem rowIds_relayout (state : PageState) (width : Nat) :
    (state.relayout width).rowIds = state.rowIds := by
  cases state with
  | build p => exact congrArg KeyedTable.ids (builders_relayout p width)
  | _ => rfl

/-- A report adds the identities that are new to its page. -/
theorem rowIds_update {state : PageState} {report : Report} (h : state.Indexed)
    (hkind : state.kind = report.kind) (width : Nat) (wallClock : Int) (ctx : PageContext) :
    let state' := (Dashboard.update width wallClock ctx report state).2.2
    state'.Indexed ∧ state'.rowIds = withNew state.rowIds report.rowIds := by
  cases report <;> cases state
  case build.build r p =>
    have hp : p.builders.Indexed := h
    let p' := p.update (Dashboard.adoptNames ctx (.build r)) r width wallClock
    show p'.builders.Indexed ∧ p'.builders.ids = withNew p.builders.ids (Report.build r).rowIds
    rw [BuildPage.builders_update, Report.rowIds, withNew]
    cases r.jobs with
    | none => exact ⟨hp, (List.append_nil _).symm⟩
    | some jobs =>
      refine ⟨hp.update _, ?_⟩
      rw [hp.ids_update, ids_builderRows]
      rfl
  case history.history r p =>
    have hp : p.builds.Indexed := h
    refine ⟨hp.update _, (hp.ids_update (HistoryPage.rowsOf r)).trans ?_⟩
    rw [HistoryPage.ids_rowsOf]
    rfl
  case overview.overview r p =>
    have hp : p.masters.Indexed := h
    refine ⟨hp.update _, (hp.ids_update (OverviewPage.rowsOf r)).trans ?_⟩
    rw [ids_overviewRows]
    rfl
  all_goals exact nomatch hkind

theorem Shows.rowIds_eq {reports : List Report} {state : PageState} (h : Shows reports state) :
    state.Indexed ∧ state.rowIds = Report.gathered reports := by
  induction h with
  | blank settings kind => exact ⟨indexed_blank settings kind, rowIds_blank settings kind⟩
  | relayout width _ ih => exact ⟨indexed_relayout ih.1 width, (rowIds_relayout _ width).trans ih.2⟩
  | update width wallClock ctx _ hkind ih =>
    obtain ⟨hindexed, hids⟩ := rowIds_update ih.1 hkind width wallClock ctx
    refine ⟨hindexed, ?_⟩
    rw [hids, ih.2, Report.gathered, Report.gathered, List.foldl_append]
    rfl

end PageState

/-! ## Distinct identities -/

namespace Report

theorem gathered_concat (reports : List Report) (report : Report) :
    gathered (reports ++ [report]) = withNew (gathered reports) report.rowIds := List.foldl_append

theorem mem_withNew_iff (ids polled : List String) (id : String) :
    id ∈ withNew ids polled ↔ id ∈ ids ∨ id ∈ polled := by
  by_cases hid : id ∈ ids <;> simp [withNew, hid]

theorem mem_gathered_iff (reports : List Report) (id : String) :
    id ∈ gathered reports ↔ ∃ report ∈ reports, id ∈ report.rowIds := by
  induction reports using List.reverseRecOn with
  | nil => simp [gathered]
  | append_singleton reports report ih =>
    rw [gathered_concat, mem_withNew_iff, ih]
    simp only [List.mem_append, List.mem_singleton, or_and_right, exists_or, exists_eq_left]

/-- Identities stay distinct if a poll gives each new one once. -/
theorem nodup_withNew_iff (ids polled : List String) :
    (withNew ids polled).Nodup ↔ ids.Nodup ∧ ∀ id, id ∉ ids → polled.count id ≤ 1 := by
  have hnew : (polled.filter fun id => decide (id ∉ ids)).Nodup ↔
      ∀ id, id ∉ ids → polled.count id ≤ 1 := by
    rw [List.nodup_iff_count_le_one]
    refine forall_congr' fun id => ?_
    by_cases hid : id ∈ ids
    · have hnone : id ∉ polled.filter fun id => decide (id ∉ ids) := fun hmem =>
        of_decide_eq_true (List.mem_filter.mp hmem).2 hid
      rw [List.count_eq_zero_of_not_mem hnone]
      exact iff_of_true (Nat.zero_le 1) (absurd hid)
    · have hcount : (polled.filter fun id => decide (id ∉ ids)).count id = polled.count id :=
        List.count_filter (decide_eq_true hid)
      rw [hcount]
      exact ⟨fun hle _ => hle, fun hle => hle hid⟩
  rw [withNew, List.nodup_append, hnew]
  refine ⟨fun hall => ⟨hall.1, hall.2.1⟩, fun hboth => ⟨hboth.1, hboth.2, ?_⟩⟩
  rintro id hold _ hpolled rfl
  exact of_decide_eq_true (List.mem_filter.mp hpolled).2 hold

/-- The gathered identities are distinct just where each report gives once what no report before it
gave. -/
theorem nodup_gathered_iff (reports : List Report) :
    (gathered reports).Nodup ↔
      ∀ before report after, reports = before ++ report :: after →
        ∀ id, (∀ old ∈ before, id ∉ old.rowIds) → report.rowIds.count id ≤ 1 := by
  induction reports using List.reverseRecOn with
  | nil => simp [gathered]
  | append_singleton reports report ih =>
    rw [gathered_concat, nodup_withNew_iff, ih]
    simp only [concat_eq_append_cons_iff, mem_gathered_iff, not_exists, not_and]
    constructor
    · rintro ⟨hearlier, hlast⟩ before r after (⟨rfl, rfl, -⟩ | ⟨rest, -, hsplit⟩)
      · exact hlast
      · exact hearlier before r rest hsplit
    · intro hall
      refine ⟨fun before r after hsplit => ?_, hall reports report [] (.inl ⟨rfl, rfl, rfl⟩)⟩
      exact hall before r (after ++ [report]) (.inr ⟨after, rfl, hsplit⟩)

/-- A history lists each build once. -/
theorem nodup_rowIds_of_history {doc : Document} (hdoc : doc.Ordered) {r : HistoryReport}
    (h : ofDocument doc = .ok (.history r)) : (history r).rowIds.Nodup := by
  obtain ⟨fields, rfl, rfl⟩ := HistoryReport.exists_of_ofDocument h
  exact HistoryReport.nodup_builds hdoc

end Report

open Dashboard

/-- When the rows of the table shown are distinct after a run: just if every report of the page gives
each identity once that no earlier report of the page gave. The rows of a history always are, as long
as the documents give each of their names once. -/
theorem nodup_rowIds_iff (ctx : PageContext) (settings : DashboardSettings) (es : List Event) :
    let d := (new ctx settings).after es
    (d.state.rowIds.Nodup ↔
      ∀ before report after, shown es = before ++ report :: after →
        ∀ id, (∀ old ∈ before, id ∉ old.rowIds) → report.rowIds.count id ≤ 1) ∧
    (d.state.kind = .jail →
      (∀ doc wallClock, Event.document doc wallClock ∈ es → doc.Ordered) →
      d.state.rowIds.Nodup) := by
  intro d
  have hshows : d.state.Shows (shown es) := shows_after ctx settings es
  have hiff : d.state.rowIds.Nodup ↔ _ := hshows.rowIds_eq.2 ▸ Report.nodup_gathered_iff (shown es)
  refine ⟨hiff, fun hkind hordered => hiff.mpr ?_⟩
  intro before report after hsplit id _
  have hreport : report ∈ shown es := hsplit ▸ List.mem_append_right _ List.mem_cons_self
  have hhistory : report.kind = .jail := (hshows.kind_eq report hreport).trans hkind
  refine List.nodup_iff_count_le_one.mp ?_ id
  obtain ⟨e, he, hcame⟩ := exists_event_of_mem_shown hreport
  obtain ⟨doc, wallClock, rfl, hdoc⟩ := Event.report?_eq_some_iff.mp hcame
  cases report with
  | history r => exact Report.nodup_rowIds_of_history (hordered doc wallClock he) hdoc
  | build r => cases hhistory
  | overview r => cases hhistory

/-- A history that lists two builds, and then one of them alone. -/
theorem two_builds_in_history :
    let builds (names : List String) : Document :=
      .object [("builds", .object (names.map fun name => (name, .object [])))]
    let es : List Event := [.document (builds ["b1", "b2"]) 0, .document (builds ["b2"]) 0]
    let d := (new (.new .jail .inline none none) ⟨100, 1, 0, 1, none⟩).after es
    d.state.kind = .jail ∧
      (∀ doc wallClock, Event.document doc wallClock ∈ es → doc.Ordered) ∧
      d.state.rowIds = ["b1", "b2"] ∧ d.state.rowIds.Nodup := by
  intro builds es d
  have hordered : ∀ doc wallClock, Event.document doc wallClock ∈ es → doc.Ordered := by
    have hempty : (Document.object []).Ordered := .object .nil nofun
    have hboth : (Document.object [("b1", .object []), ("b2", .object [])]).Ordered :=
      .object (by decide) (by simp [hempty])
    have hone : (Document.object [("b2", .object [])]).Ordered :=
      .object (by decide) (by simp [hempty])
    intro doc wallClock he
    rcases List.mem_pair.mp he with heq | heq
    · obtain ⟨rfl, -⟩ := Event.document.inj heq
      exact .object (by decide) (List.forall_mem_singleton.mpr hboth)
    · obtain ⟨rfl, -⟩ := Event.document.inj heq
      exact .object (by decide) (List.forall_mem_singleton.mpr hone)
  have hkind : d.state.kind = .jail := by rfl
  refine ⟨hkind, hordered, by decide +kernel, ?_⟩
  exact (nodup_rowIds_iff (.new .jail .inline none none) ⟨100, 1, 0, 1, none⟩ es).2 hkind hordered

/-- An overview in which the latest builds of two masters name the same one. -/
theorem one_master_twice :
    let latest : Document :=
      .object [("latest", .object [("buildname", .text "b"), ("mastername", .text "m")])]
    let d := (new (.new .index .inline none none) ⟨100, 1, 0, 1, none⟩).after
      [.document (.object [("masternames", .object [("a", latest), ("m", latest)])]) 0]
    d.state.rowIds = ["m", "m"] ∧ ¬ d.state.rowIds.Nodup := by
  decide +kernel

end BuildBoard
