import BuildBoard.Proofs.OneBuild
import BuildBoard.Proofs.Page.Tables

/-!
# Coherent dashboards

A dashboard keeps some things twice: the kind of its page in the page and in the context, the width of
the bar beside the column that it follows from, the percentage and the bar beside the counters, the
names of a build in the page and in the context. Documents and resizing touch these at different
points, and a document may be refused in between. They agree after each of them.

Results:
1. `Metered.updateStats`, `metered_update`: percentage and bar follow the counters.
2. `coherent_handle`: an event keeps a dashboard coherent.
3. `loading_after`: what ends loading.
4. `dashboard_coherent`: the dashboard after any run.
-/

namespace BuildBoard

/-! ## Counters and bar -/

namespace BuildPage

/-- Percentage and bar are those of the counters, drawn at this width. -/
structure Metered (p : BuildPage) (width : Nat) : Prop where
  percent : p.percent = p.stats.map Progress.percent
  bar : p.bar = p.stats.bind fun stats => Progress.layout stats width

variable {p : BuildPage} {width : Nat}

theorem metered_new (window : RateWindow) (width : Nat) : (new window).Metered width := ⟨rfl, rfl⟩

/-- What was drawn at one width is drawn again at another. -/
theorem Metered.relayout (h : p.Metered width) (other : Nat) : (p.relayout other).Metered other := by
  unfold BuildPage.relayout
  split
  · next stats hstats => exact ⟨by rw [hstats]; rfl, by rw [hstats]; rfl⟩
  · next hnone => exact ⟨h.percent, by rw [h.bar, hnone]; rfl⟩

theorem Metered.updateStats (h : p.Metered width) (r : BuildReport) :
    (p.updateStats r width).Metered width := by
  unfold BuildPage.updateStats
  split
  · exact ⟨rfl, rfl⟩
  · exact h

theorem Metered.update (h : p.Metered width) (ctx : PageContext) (r : BuildReport)
    (wallClock : Int) : (p.update ctx r width wallClock).Metered width := by
  obtain ⟨_, _, _, _, _, hupdate⟩ := update_shape ctx r p width wallClock
  rw [hupdate]
  exact ⟨(h.updateStats r).percent, (h.updateStats r).bar⟩

end BuildPage

/-! ## Pages -/

namespace PageState

/-- A build's page has percentage and bar of its counters; no other page has them. -/
def Metered (state : PageState) (width : Nat) : Prop := ∀ p, state = .build p → p.Metered width

/-- The context has the names of the build that the page shows, and of its master if that is told. -/
def Named (state : PageState) (ctx : PageContext) : Prop :=
  ∀ p info, state = .build p → p.info = some info →
    ctx.buildname = some info.buildname ∧
      (info.mastername ≠ "" → ctx.mastername = some info.mastername)

variable {state : PageState}

theorem metered_of_kind_ne (h : state.kind ≠ .build) (width : Nat) : state.Metered width := by
  rintro p rfl
  exact absurd rfl h

theorem named_of_kind_ne (h : state.kind ≠ .build) (ctx : PageContext) : state.Named ctx := by
  rintro p info rfl
  exact absurd rfl h

theorem metered_blank (settings : DashboardSettings) (kind : PageKind) (width : Nat) :
    (blank settings kind).Metered width := by
  intro p hp
  cases kind with
  | build => exact PageState.build.inj hp ▸ BuildPage.metered_new _ width
  | jail => cases hp
  | index => cases hp

theorem named_blank (settings : DashboardSettings) (kind : PageKind) (ctx : PageContext) :
    (blank settings kind).Named ctx := by
  intro p info hp hinfo
  cases kind with
  | build => exact nomatch (PageState.build.inj hp ▸ hinfo : (BuildPage.new _).info = some info)
  | jail => cases hp
  | index => cases hp

theorem Metered.relayout {width : Nat} (h : state.Metered width) (other : Nat) :
    (state.relayout other).Metered other := by
  cases state with
  | build p =>
    rintro _ ⟨⟩
    exact (h p rfl).relayout other
  | history p => rintro _ ⟨⟩
  | overview p => rintro _ ⟨⟩

theorem Named.relayout {ctx : PageContext} (h : state.Named ctx) (width : Nat) :
    (state.relayout width).Named ctx := by
  cases state with
  | build p =>
    rintro _ info ⟨⟩ hinfo
    exact h p info rfl ((BuildPage.info_relayout p width).symm.trans hinfo)
  | history p => rintro _ _ ⟨⟩
  | overview p => rintro _ _ ⟨⟩

end PageState

namespace Dashboard

theorem orKeep_of_ne {name : String} (h : name ≠ "") (kept : Option String) :
    orKeep name kept = some name := by
  rw [orKeep, if_neg (by simpa using h)]

/-- A page that takes a report over is metered and named by it. -/
theorem metered_update {state : PageState} {report : Report} (hkind : state.kind = report.kind)
    {width : Nat} (h : state.Metered width) (wallClock : Int) (ctx : PageContext) :
    (update width wallClock ctx report state).2.2.Metered width := by
  rcases update_build_or_ne hkind width wallClock ctx with ⟨r, p, rfl, rfl⟩ | hne
  · rintro _ ⟨⟩
    exact (h p rfl).update _ r wallClock
  · exact PageState.metered_of_kind_ne hne width

theorem named_update {state : PageState} {report : Report} (hkind : state.kind = report.kind)
    (width : Nat) (wallClock : Int) (ctx : PageContext) :
    (update width wallClock ctx report state).2.2.Named (adoptNames ctx report) := by
  rcases update_build_or_ne hkind width wallClock ctx with ⟨r, p, rfl, rfl⟩ | hne
  · rintro _ info ⟨⟩ hinfo
    rw [BuildPage.info_update] at hinfo
    obtain rfl := Option.some.inj hinfo
    exact ⟨rfl, fun hname => orKeep_of_ne hname _⟩
  · exact PageState.named_of_kind_ne hne _

/-! ## Dashboards -/

/-- What a dashboard keeps twice agrees. -/
structure Coherent (d : Dashboard) : Prop where
  agrees : d.Agrees
  width : d.barWidth = Progress.barWidth d.settings.columnWidth
  metered : d.state.Metered d.barWidth
  named : d.state.Named d.ctx

variable {d : Dashboard}

theorem coherent_new (ctx : PageContext) (settings : DashboardSettings) :
    (new ctx settings).Coherent where
  agrees := PageState.kind_blank settings ctx.kind
  width := rfl
  metered := PageState.metered_blank settings ctx.kind _
  named := PageState.named_blank settings ctx.kind ctx

theorem Coherent.resize (h : d.Coherent) : d.resize.Coherent where
  agrees := agrees_resize h.agrees
  width := rfl
  metered := h.metered.relayout _
  named := h.named.relayout _

theorem Coherent.firstLoad (h : d.Coherent) : d.firstLoad.Coherent := by
  unfold Dashboard.firstLoad
  split
  · exact ⟨h.resize.agrees, h.resize.width, h.resize.metered, h.resize.named⟩
  · exact h

theorem keeps_ofKind (d : Dashboard) (kind : PageKind) :
    (d.ofKind kind).settings = d.settings ∧ (d.ofKind kind).barWidth = d.barWidth ∧
      (d.ofKind kind).loading = d.loading := by
  unfold ofKind
  split <;> exact ⟨rfl, rfl, rfl⟩

theorem Coherent.ofKind (h : d.Coherent) (kind : PageKind) : (d.ofKind kind).Coherent := by
  unfold Dashboard.ofKind
  split
  · exact h
  · exact ⟨PageState.kind_blank _ kind, h.width, PageState.metered_blank _ kind _,
      PageState.named_blank _ kind _⟩

theorem Coherent.accept (h : d.Coherent) (report : Report) (wallClock : Int) :
    (d.accept report wallClock).2.Coherent := by
  obtain ⟨hstate, hctx⟩ := ofKind_agrees h.agrees report.kind
  have hpage := h.ofKind report.kind
  generalize hpageEq : d.ofKind report.kind = page at hstate hctx hpage
  obtain ⟨state', hupdate, hkind⟩ := update_of_kind_eq page.barWidth wallClock page.ctx hstate
  have hmetered := metered_update hstate hpage.metered wallClock page.ctx
  have hnamed := named_update hstate page.barWidth wallClock page.ctx
  rw [hupdate] at hmetered hnamed
  have hagrees : state'.kind = (adoptNames page.ctx report).kind :=
    hkind.trans (hstate.trans (hctx.symm.trans (kind_adoptNames page.ctx report).symm))
  simp only [Dashboard.accept, hpageEq, hupdate]
  refine Coherent.firstLoad ⟨?_, hpage.width, hmetered, ?_⟩
  · show state'.kind = (ite _ _ _ : PageContext).kind
    split
    · exact hagrees
    · exact hagrees
  · -- the data directory is no name
    show state'.Named (ite _ _ _)
    split
    · exact hnamed
    · exact hnamed

theorem coherent_handle (h : d.Coherent) (e : Event) : (d.handle e).Coherent := by
  have hsame : ({ d with scrollTo := none } : Dashboard).Coherent :=
    ⟨h.agrees, h.width, h.metered, h.named⟩
  cases e with
  | resize => exact h.resize
  | document doc wallClock =>
    simp only [handle, process]
    cases Report.ofDocument doc with
    | error => exact hsame
    | ok report => exact hsame.accept report wallClock

theorem Reachable.coherent (h : d.Reachable) : d.Coherent := by
  induction h with
  | new ctx settings => exact coherent_new ctx settings
  | handle e _ ih => exact coherent_handle ih e

/-! ## Loading -/

theorem loading_firstLoad (d : Dashboard) :
    d.firstLoad.loading = false ∧ d.firstLoad.settings = d.settings := by
  unfold firstLoad
  split
  · exact ⟨rfl, rfl⟩
  · next h => exact ⟨Bool.eq_false_of_not_eq_true h, rfl⟩

theorem loading_accept (d : Dashboard) (report : Report) (wallClock : Int) :
    (d.accept report wallClock).2.loading = false ∧
      (d.accept report wallClock).2.settings = d.settings := by
  have hpage : (d.accept report wallClock).2.settings = (d.ofKind report.kind).settings := by
    simp only [accept]
    exact (loading_firstLoad _).2
  refine ⟨?_, hpage.trans (keeps_ofKind d report.kind).1⟩
  simp only [accept]
  exact (loading_firstLoad _).1

/-- The first report ends loading, and no event changes the settings. -/
theorem loading_handle (d : Dashboard) (e : Event) :
    (d.handle e).loading = (d.loading && e.report?.isNone) ∧ (d.handle e).settings = d.settings := by
  cases e with
  | resize => exact ⟨(Bool.and_true _).symm, rfl⟩
  | document doc wallClock =>
    simp only [handle, process, Event.report?]
    cases Report.ofDocument doc with
    | error =>
      show d.loading = (d.loading && true) ∧ d.settings = d.settings
      exact ⟨(Bool.and_true _).symm, rfl⟩
    | ok report =>
      show _ = (d.loading && false) ∧ _ = d.settings
      rw [Bool.and_false]
      exact loading_accept { d with scrollTo := none } report wallClock

theorem loading_after (ctx : PageContext) (settings : DashboardSettings) (es : List Event) :
    let d := (new ctx settings).after es
    (d.loading = true ↔ ∀ e ∈ es, e.report? = none) ∧ d.settings = settings := by
  intro d
  induction es using List.reverseRecOn with
  | nil => exact ⟨iff_of_true rfl (List.forall_mem_nil _), rfl⟩
  | append_singleton es e ih =>
    obtain ⟨hloading, hsettings⟩ := loading_handle ((new ctx settings).after es) e
    rw [← after_concat] at hloading hsettings
    refine ⟨?_, hsettings.trans ih.2⟩
    rw [hloading, Bool.and_eq_true, ih.1, Option.isNone_iff_eq_none, List.forall_mem_append,
      List.forall_mem_singleton]

/-- A document is processed where it gives a report. -/
theorem process_ok_iff (h : d.Agrees) (doc : Document) (wallClock : Int) (verdict : Verdict) :
    (d.process doc wallClock).1 = .ok verdict ↔
      ∃ report, Report.ofDocument doc = .ok report ∧ report.verdict = verdict := by
  simp only [process]
  cases hdoc : Report.ofDocument doc with
  | error cause =>
    constructor
    · rintro ⟨⟩
    · rintro ⟨report, ⟨⟩, -⟩
  | ok report =>
    have hverdict := accept_fst (d := { d with scrollTo := none }) h report wallClock
    simp only [hverdict, Except.ok.injEq, exists_eq_left']

end Dashboard

open Dashboard

/-- A dashboard after any run, of documents that are processed or refused and of resizing. The page is
of the kind that the context names, and so is the one that any document finds. The bar has the width
that the column leaves, percentage and bar are those of the counters, and a build's page that has
taken a report over has its names in the context. The dashboard is loading just if no document has
been processed, and a table is shown just if it has rows. -/
theorem dashboard_coherent (ctx : PageContext) (settings : DashboardSettings) (es : List Event) :
    let d := (new ctx settings).after es
    (d.state.kind = d.ctx.kind ∧ ∀ report : Report, (d.ofKind report.kind).state.kind = report.kind) ∧
    d.barWidth = Progress.barWidth settings.columnWidth ∧
    (∀ p, d.state = .build p →
      p.percent = p.stats.map Progress.percent ∧
      p.bar = p.stats.bind fun stats => Progress.layout stats d.barWidth) ∧
    (∀ p, d.state = .build p → shown es ≠ [] →
      ∃ info, p.info = some info ∧ d.ctx.buildname = some info.buildname ∧
        (info.mastername ≠ "" → d.ctx.mastername = some info.mastername)) ∧
    (d.loading = true ↔
      ∀ before doc wallClock later, es = before ++ .document doc wallClock :: later →
        ∀ verdict, (((new ctx settings).after before).process doc wallClock).1 ≠ .ok verdict) ∧
    ∀ name, d.state.shows name = true ↔ d.state.cells d.ctx name ≠ [] := by
  intro d
  have hcoherent : d.Coherent := (reachable_after ctx settings es).coherent
  have hshows : d.state.Shows (shown es) := shows_after ctx settings es
  obtain ⟨hloading, hsettings⟩ := loading_after ctx settings es
  refine ⟨⟨hcoherent.agrees, fun report => (ofKind_agrees hcoherent.agrees report.kind).1⟩,
    hsettings ▸ hcoherent.width, fun p hp => ?_, fun p hp hreports => ?_, ?_,
    hshows.shows_iff d.ctx⟩
  · exact ⟨(hcoherent.metered p hp).percent, (hcoherent.metered p hp).bar⟩
  · obtain ⟨as, has, hmade⟩ := BuildPage.madeBy_of_shows hshows hp
    have hne : as ≠ [] := by
      rintro rfl
      exact hreports has
    obtain ⟨info, hinfo⟩ : ∃ info, p.info = some info := by
      rw [hmade.info, List.getLast?_eq_some_getLast hne]
      exact ⟨_, rfl⟩
    exact ⟨info, hinfo, hcoherent.named p info hp hinfo⟩
  · rw [hloading]
    constructor
    · rintro hnone before doc wallClock later rfl verdict hok
      have hagrees := (reachable_after ctx settings before).agrees
      obtain ⟨report, hreport, -⟩ := (process_ok_iff hagrees doc wallClock verdict).mp hok
      have hrefused := hnone _ (List.mem_append_right _ List.mem_cons_self)
      rw [Event.report?_eq_some_iff.mpr ⟨doc, wallClock, rfl, hreport⟩] at hrefused
      cases hrefused
    · intro hrefused e he
      cases hreport : e.report? with
      | none => rfl
      | some report =>
        obtain ⟨before, later, rfl⟩ := List.append_of_mem he
        obtain ⟨doc, wallClock, rfl, hdoc⟩ := Event.report?_eq_some_iff.mp hreport
        have hagrees := (reachable_after ctx settings before).agrees
        have hok := (process_ok_iff hagrees doc wallClock report.verdict).mpr ⟨report, hdoc, rfl⟩
        exact absurd hok (hrefused before doc wallClock later rfl report.verdict)

/-- A history page that turns to a build after it was resized, with a refused document before that. -/
theorem build_after_history :
    let counters : Document := .object [("queued", .int 4), ("built", .int 1)]
    let es : List Event := [
      .document (.object [("builds", .object [("b1", .object [])])]) 0,
      .resize,
      .document (.object [("status", .text "stopped:done:")]) 0,
      .document (.object
        [("buildname", .text "b1"), ("mastername", .text "m1"), ("stats", counters)]) 0]
    let d := (new (PageContext.new .jail .hosted (some "m") none) ⟨100, 1, 0, 1, none⟩).after es
    d.ctx.kind = .build ∧ d.ctx.buildname = some "b1" ∧ d.ctx.mastername = some "m1" ∧
      d.loading = false ∧ ∃ p stats, d.state = .build p ∧ p.stats = some stats ∧
        p.percent = some (Progress.percent stats) ∧ p.bar = Progress.layout stats d.barWidth := by
  intro counters es d
  obtain ⟨⟨hkind, -⟩, -, hbar, -, -, -⟩ :=
    dashboard_coherent (PageContext.new .jail .hosted (some "m") none) ⟨100, 1, 0, 1, none⟩ es
  have hbuild : d.state.kind = .build := by rfl
  obtain ⟨p, hp⟩ := PageState.eq_build_of_kind hbuild
  obtain ⟨stats, hstats⟩ : ∃ stats, p.stats = some stats := by
    have hsome : d.buildPage.stats.isSome := by rfl
    rw [buildPage, hp] at hsome
    exact Option.isSome_iff_exists.mp hsome
  obtain ⟨hpercent, hlayout⟩ := hbar p hp
  refine ⟨hkind.symm.trans hbuild, by decide +kernel, by decide +kernel, by rfl, p, stats, hp, hstats,
    ?_, ?_⟩
  · rw [hpercent, hstats, Option.map_some]
  · rw [hlayout, hstats, Option.bind_some]

end BuildBoard
