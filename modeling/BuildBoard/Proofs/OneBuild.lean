import BuildBoard.Proofs.Dashboard.Shown
import BuildBoard.Proofs.LogLinks

/-!
# The builds on one page

The page of a build takes over the reports of any build that come while it is shown. What it is
called follows the last one. A row of a table that only grows stays what it was when the first report
that had so many brought it. So a page that follows the latest build takes the name of a new build at
once and keeps the rows of the build before: all rows are of one build just if no report of another
had a list that was longer than those before it.

Results:
1. `madeBy_of_shows`: the names and tables of a page follow from its reports.
2. `MadeBy.exists_source`: a row is written from the report that brought it.
3. `MadeBy.rowsFrom_iff`: when all rows are of one build.
4. `rows_of_one_build_iff`: the page after any run.
5. `row_of_the_build_before`: a row that is not of the build that its page names.
-/

namespace BuildBoard

open PackageTables

/-! ## Definitions -/

/-- The report of a build, if it is one. -/
def Report.build? : Report → Option BuildReport
  | .build r => some r
  | _ => none

/-- The builds' reports that the page after these events has taken over. -/
def Dashboard.shownBuilds (es : List Event) : List BuildReport :=
  (shown es).filterMap Report.build?

/-- The report that brought the row at a position: the first one whose list got that far. -/
def BuildReport.source? (reports : List BuildReport) (c : Category) (k : Nat) :
    Option BuildReport :=
  reports.find? fun r => decide (k < r.listLength c)

/-- One of a report's lists is longer than those of the reports before it. -/
def BuildReport.BringsRows (r : BuildReport) (before : List BuildReport) : Prop :=
  ∃ c, c.isAppendOnly ∧ 0 < r.listLength c ∧ ∀ old ∈ before, old.listLength c < r.listLength c

namespace BuildPage

/-- Each row of the tables that only grow was brought by a report of this build. -/
def RowsFrom (p : BuildPage) (reports : List BuildReport) (buildname : String) : Prop :=
  ∀ c, c.isAppendOnly → ∀ k, k < (rowsOf (p.tables.get c)).length →
    ∃ source, BuildReport.source? reports c k = some source ∧ source.buildname = buildname

/-- The names and tables of a page are those that these reports leave. -/
structure MadeBy (p : BuildPage) (as : List Arrival) : Prop where
  info : p.info = as.getLast?.map fun a => BuildInfo.ofReport a.report
  grown : ∀ c, c.isAppendOnly → Grown as c (p.tables.get c) (p.cursors.get c)

/-! ## What makes a page -/

namespace MadeBy

variable {p : BuildPage} {as : List Arrival}

theorem new (window : RateWindow) : (BuildPage.new window).MadeBy [] where
  info := rfl
  grown _ hc := grown_after window hc []

theorem relayout (h : p.MadeBy as) (width : Nat) : (p.relayout width).MadeBy as where
  info := (info_relayout p width).trans h.info
  grown c hc := by
    obtain ⟨htable, hcursor⟩ := Prod.mk.inj (slot_relayout (c := c) p width)
    rw [htable, hcursor]
    exact h.grown c hc

theorem update (h : p.MadeBy as) (a : Arrival) :
    (p.update a.ctx a.report a.width a.wallClock).MadeBy (as ++ [a]) where
  info := by rw [info_update, List.getLast?_concat, Option.map_some]
  grown c hc := (h.grown c hc).update hc a

end MadeBy

/-- A page that is shown is made by its reports, each in the context of its moment. -/
theorem madeBy_of_shows {reports : List Report} {state : PageState} (h : state.Shows reports)
    {p : BuildPage} (hstate : state = .build p) :
    ∃ as : List Arrival, reports = as.map (fun a => .build a.report) ∧ p.MadeBy as := by
  induction h generalizing p with
  | blank settings kind =>
    cases kind with
    | build =>
      obtain rfl := PageState.build.inj hstate
      exact ⟨[], rfl, .new _⟩
    | jail => cases hstate
    | index => cases hstate
  | @relayout reports state width _ ih =>
    cases state with
    | build q =>
      obtain rfl := PageState.build.inj hstate
      obtain ⟨as, hreports, hmade⟩ := ih rfl
      exact ⟨as, hreports, hmade.relayout width⟩
    | history q => cases hstate
    | overview q => cases hstate
  | @update reports state report width wallClock ctx _ hkind ih =>
    obtain ⟨state', hupdate, hkind'⟩ := Dashboard.update_of_kind_eq width wallClock ctx hkind
    have hbuild : state.kind = .build := by
      rw [hupdate] at hstate
      rw [← hkind', show state' = .build p from hstate]
      rfl
    obtain ⟨q, rfl⟩ := PageState.eq_build_of_kind hbuild
    cases report with
    | build r =>
      obtain rfl := PageState.build.inj hstate
      obtain ⟨as, hreports, hmade⟩ := ih rfl
      let a : Arrival := ⟨Dashboard.adoptNames ctx (.build r), r, width, wallClock⟩
      exact ⟨as ++ [a], by rw [List.map_append, hreports]; rfl, hmade.update a⟩
    | history r => cases hkind
    | overview r => cases hkind

/-! ## Where the rows come from -/

namespace MadeBy

variable {p : BuildPage} {as : List Arrival} {c : Category}

theorem source?_map (as : List Arrival) (c : Category) (k : Nat) :
    BuildReport.source? (as.map Arrival.report) c k =
      (as.find? fun a => decide (k < a.length c)).map Arrival.report := by
  rw [BuildReport.source?, List.find?_map]
  simp only [Function.comp_def, length_eq_listLength]

/-- A row is written from the report that brought it. -/
theorem exists_source (h : p.MadeBy as) (hc : c.isAppendOnly) {k : Nat} {row : List String}
    (hrow : (rowsOf (p.tables.get c))[k]? = some row) :
    ∃ a : Arrival, BuildReport.source? (as.map Arrival.report) c k = some a.report ∧
      a.row? c k = some row := by
  rw [(h.grown c hc).rowsOf_getElem?, firstRow?] at hrow
  obtain ⟨a, hfind, hrow⟩ := Option.bind_eq_some_iff.mp hrow
  exact ⟨a, by rw [source?_map, hfind, Option.map_some], hrow⟩

theorem lt_length_iff (h : p.MadeBy as) (hc : c.isAppendOnly) (k : Nat) :
    k < (rowsOf (p.tables.get c)).length ↔
      ∃ r ∈ as.map Arrival.report, k < r.listLength c := by
  rw [(h.grown c hc).rowsOf_length, lt_longest_iff]
  simp only [List.mem_map, exists_exists_and_eq_and, length_eq_listLength]

/-- All rows are of one build just if every report that brings rows is. -/
theorem rowsFrom_iff (h : p.MadeBy as) (buildname : String) :
    p.RowsFrom (as.map Arrival.report) buildname ↔
      ∀ before source after, as.map Arrival.report = before ++ source :: after →
        source.BringsRows before → source.buildname = buildname := by
  constructor
  · rintro hrows before source after hsplit ⟨c, hc, hpos, hlonger⟩
    -- the last row that the report brings is its own
    have hlast : source.listLength c - 1 < source.listLength c := Nat.sub_one_lt_of_lt hpos
    have hmem : source ∈ as.map Arrival.report :=
      hsplit ▸ List.mem_append_right _ List.mem_cons_self
    have hsource : BuildReport.source? (as.map Arrival.report) c (source.listLength c - 1) =
        some source := by
      refine List.find?_eq_some_iff_append.mpr ⟨decide_eq_true hlast, before, after, hsplit, ?_⟩
      intro old hold
      have hle := Nat.le_sub_one_of_lt (hlonger old hold)
      simpa using hle
    obtain ⟨found, hfound, hname⟩ :=
      hrows c hc _ ((h.lt_length_iff hc _).mpr ⟨source, hmem, hlast⟩)
    rwa [Option.some.inj (hsource.symm.trans hfound)]
  · intro hbrings c hc k hk
    obtain ⟨r, hr, hlonger⟩ := (h.lt_length_iff hc k).mp hk
    obtain ⟨source, hsource⟩ : ∃ source,
        BuildReport.source? (as.map Arrival.report) c k = some source :=
      Option.isSome_iff_exists.mp (List.find?_isSome.mpr ⟨r, hr, decide_eq_true hlonger⟩)
    obtain ⟨hlong, before, after, hsplit, hshort⟩ := List.find?_eq_some_iff_append.mp hsource
    have hlt := of_decide_eq_true hlong
    refine ⟨source, hsource, hbrings before source after hsplit ⟨c, hc, Nat.zero_lt_of_lt hlt, ?_⟩⟩
    intro old hold
    have hle : old.listLength c ≤ k := by simpa using hshort old hold
    exact Nat.lt_of_le_of_lt hle hlt

end MadeBy

end BuildPage

open Dashboard

/-- The page of a build after any run: it has the names of the last report, each row of the tables
that only grow is written from the report that brought it, and they are all of the build that the
page names just if every report that brought rows is. -/
theorem rows_of_one_build_iff {ctx : PageContext} {settings : DashboardSettings} {es : List Event}
    {p : BuildPage} {info : BuildInfo}
    (hstate : ((new ctx settings).after es).state = .build p) (hinfo : p.info = some info) :
    let reports := shownBuilds es
    reports.getLast?.map BuildInfo.ofReport = some info ∧
    (∀ c, c.isAppendOnly → ∀ k row, (rowsOf (p.tables.get c))[k]? = some row →
      ∃ a : Arrival, BuildReport.source? reports c k = some a.report ∧ a.row? c k = some row) ∧
    (p.RowsFrom reports info.buildname ↔
      ∀ before source after, reports = before ++ source :: after →
        source.BringsRows before → source.buildname = info.buildname) := by
  intro reports
  obtain ⟨as, hshown, hmade⟩ := BuildPage.madeBy_of_shows (shows_after ctx settings es) hstate
  have hreports : reports = as.map Arrival.report := by
    show (shown es).filterMap Report.build? = _
    rw [hshown, List.filterMap_map]
    exact List.filterMap_eq_map_iff_forall_eq_some.mpr fun a _ => rfl
  rw [hreports]
  refine ⟨?_, fun c hc k row hrow => hmade.exists_source hc hrow, hmade.rowsFrom_iff _⟩
  rw [List.getLast?_map, Option.map_map, ← hinfo, hmade.info]
  rfl

/-- A build's document with these packages among the built ones. -/
def documentOf (buildname : String) (pkgnames : List String) : Document :=
  .object [
    ("buildname", .text buildname),
    ("mastername", .text "m"),
    ("ports", .object [
      ("built", .array (pkgnames.map fun pkgname => .object [("pkgname", .text pkgname)]))])]

/-- A page that follows the latest build, after these events. -/
def latestAfter (es : List Event) : Dashboard :=
  (new (PageContext.new .build .hosted (some "m") (some "latest")) ⟨100, 1, 0, 1, none⟩).after es

/-- A build that comes after one without packages. -/
theorem rows_after_build_without_rows :
    let es : List Event := [.document (documentOf "b1" []) 0, .document (documentOf "b2" ["z-1"]) 0]
    let p := (latestAfter es).buildPage
    (latestAfter es).state = .build p ∧
      ∃ info, p.info = some info ∧ info.buildname = "b2" ∧
        (rowsOf (p.tables.get .built)).length = 1 ∧ p.RowsFrom (shownBuilds es) info.buildname := by
  intro es p
  have hstate : (latestAfter es).state = .build p := by rfl
  have hname : p.info.map BuildInfo.buildname = some "b2" := by decide +kernel
  obtain ⟨info, hinfo, hname⟩ := Option.map_eq_some_iff.mp hname
  refine ⟨hstate, info, hinfo, hname, by decide +kernel, ?_⟩
  have hreports : ∀ r ∈ shownBuilds es,
      r.buildname = "b2" ∨ ∀ c ∈ Category.all, r.listLength c = 0 := by decide +kernel
  refine (rows_of_one_build_iff hstate hinfo).2.2.mpr ?_
  rintro before source after hsplit ⟨c, -, hpos, -⟩
  have hsource : source ∈ shownBuilds es := hsplit ▸ List.mem_append_right _ List.mem_cons_self
  rcases hreports source hsource with hlast | hempty
  · rw [hlast, hname]
  · exact absurd (hempty c c.mem_all) (Nat.ne_of_gt hpos)

/-- The page names the new build, and its one row is of the build before. -/
theorem row_of_the_build_before :
    let es : List Event :=
      [.document (documentOf "b1" ["a-1"]) 0, .document (documentOf "b2" ["z-1"]) 0]
    let d := latestAfter es
    d.state.kind = .build ∧ d.title = "Bulk results for m b2" ∧
      d.buildPage.info.map BuildInfo.buildname = some "b2" ∧
      (rowsOf (d.buildPage.tables.get .built)).map
        (Grid.cellUnder? Category.built.columns "Package") = [some "a-1"] ∧
      ¬ d.buildPage.RowsFrom (shownBuilds es) "b2" := by
  intro es d
  refine ⟨by rfl, by decide +kernel, by decide +kernel, by decide +kernel, fun hrows => ?_⟩
  obtain ⟨source, hsource, hname⟩ := hrows .built rfl 0 (by decide +kernel)
  have hbefore : (BuildReport.source? (shownBuilds es) .built 0).map BuildReport.buildname =
      some "b1" := by decide +kernel
  rw [hsource, Option.map_some, hname] at hbefore
  exact absurd hbefore (by decide)

end BuildBoard
