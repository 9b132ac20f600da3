import BuildBoard.Page.Build
import BuildBoard.Page.History
import BuildBoard.Page.Overview

/-!
# Dashboards

A dashboard is one monitored page across polls. Documents are given to it one by one; each either
changes the page and says whether polling goes on, or is refused and leaves the page as it is. A
jump to the anchor is for one page only, so any document ends it.

What kind of page it is follows the documents: a document of another kind than the page starts a
new page of that kind.
-/

namespace BuildBoard

/-! ## State -/

structure DashboardSettings where
  /-- Pixels of the column that holds the bar and its label. -/
  columnWidth : Nat
  /-- Seconds between polls. -/
  updateInterval : Nat
  /-- Seconds before a trailing rate is shown. -/
  firstPeriod : Nat
  /-- Seconds that a trailing rate covers. -/
  targetPeriod : Nat
  /-- The element that the page jumps to when it is first loaded. -/
  anchor : Option String
deriving DecidableEq

def DashboardSettings.window (s : DashboardSettings) : RateWindow :=
  RateWindow.new s.updateInterval s.firstPeriod s.targetPeriod

inductive PageState where
  | build (p : BuildPage)
  | history (p : HistoryPage)
  | overview (p : OverviewPage)

namespace PageState

def kind : PageState → PageKind
  | .build _ => .build
  | .history _ => .jail
  | .overview _ => .index

/-- An empty page. -/
def blank (settings : DashboardSettings) : PageKind → PageState
  | .build => .build (BuildPage.new settings.window)
  | .jail => .history HistoryPage.new
  | .index => .overview OverviewPage.new

@[simp] theorem kind_blank (settings : DashboardSettings) (k : PageKind) :
    (blank settings k).kind = k := by cases k <;> rfl

/-- The body of the page. -/
def render (ctx : PageContext) : PageState → String
  | .build p => p.render ctx
  | .history p => p.render ctx
  | .overview p => p.render ctx

/-- The page with its bar laid out at a width; only a build has a bar. -/
def relayout (width : Nat) : PageState → PageState
  | .build p => .build (p.relayout width)
  | s => s

def checkedRelayout (width : Nat) : PageState → Checked PageState
  | .build p => return .build (← p.checkedRelayout width)
  | s => pure s

/-- The body of the page; only a build's page calculates what it draws. -/
def checkedRender (ctx : PageContext) : PageState → Checked String
  | .build p => p.checkedRender ctx
  | s => pure (s.render ctx)

end PageState

structure Dashboard where
  ctx : PageContext
  settings : DashboardSettings
  state : PageState
  /-- Nothing has been processed yet. -/
  loading : Bool
  barWidth : Nat
  /-- The anchor, until the page has been loaded. -/
  pendingAnchor : Option String
  /-- The element to jump to on this page only. -/
  scrollTo : Option String

namespace Dashboard

def new (ctx : PageContext) (settings : DashboardSettings) : Dashboard where
  ctx
  settings
  state := PageState.blank settings ctx.kind
  loading := true
  barWidth := Progress.barWidth settings.columnWidth
  pendingAnchor := settings.anchor
  scrollTo := none

def title (d : Dashboard) : String :=
  match d.state with
  | .build p => p.title
  | .history _ =>
    match d.ctx.mastername with
    | some master => "Builds for " ++ master
    | none => "Builds"
  | .overview _ => "Build overview"

/-- The body of the page. -/
def render (d : Dashboard) : String := d.state.render d.ctx

/-! ## Changes -/

/-- Computes the bar's width from the column again and draws the bar at it. -/
def resize (d : Dashboard) : Dashboard :=
  let width := Progress.barWidth d.settings.columnWidth
  { d with barWidth := width, state := d.state.relayout width }

/-- A page for reports of this kind: the one there is, or a blank one of another kind. -/
def ofKind (d : Dashboard) (kind : PageKind) : Dashboard :=
  if kind = d.ctx.kind then d
  else { d with ctx := { d.ctx with kind }, state := PageState.blank d.settings kind }

/-- The name, unless it is empty. -/
def orKeep (name : String) (kept : Option String) : Option String :=
  if name.isEmpty then kept else some name

/-- The names that a report gives: a build's own, and its master's if it gives one. -/
def adoptNames (ctx : PageContext) : Report → PageContext
  | .build r =>
    { ctx with buildname := some r.buildname, mastername := orKeep r.mastername ctx.mastername }
  | .history r => { ctx with mastername := orKeep r.mastername ctx.mastername }
  | .overview _ => ctx

/-- What a report means for polling, and the context and page after it. A page of another kind
takes nothing from the report. -/
def update (width : Nat) (wallClock : Int) (ctx : PageContext) :
    Report → PageState → Verdict × PageContext × PageState
  | .build r, .build p =>
    let ctx := adoptNames ctx (.build r)
    (BuildPage.verdict r, ctx, .build (p.update ctx r width wallClock))
  | .history r, .history p => (.proceed, adoptNames ctx (.history r), .history (p.update r))
  | .overview r, .overview p => (.proceed, adoptNames ctx (.overview r), .overview (p.update r))
  | _, state => (.proceed, ctx, state)

/-- The end of loading: the page is drawn at its width and jumps to the anchor. -/
def firstLoad (d : Dashboard) : Dashboard :=
  if d.loading then
    { d.resize with loading := false, scrollTo := d.pendingAnchor, pendingAnchor := none }
  else d

/-- The dashboard after a report, and what that means for polling. The data directory moves only
with the kind of the page. -/
def accept (d : Dashboard) (report : Report) (wallClock : Int) : Verdict × Dashboard :=
  let switched := report.kind ≠ d.ctx.kind
  let page := d.ofKind report.kind
  let (verdict, ctx, state) := update page.barWidth wallClock page.ctx report page.state
  (verdict, firstLoad { page with ctx := if switched then ctx.relocate else ctx, state })

/-- The dashboard after a document, and what that means for polling. -/
def process (d : Dashboard) (doc : Document) (wallClock : Int) :
    Except ReportError Verdict × Dashboard :=
  let d := { d with scrollTo := none }
  match Report.ofDocument doc with
  | .error e => (.error e, d)
  | .ok report =>
    let (verdict, d) := d.accept report wallClock
    (.ok verdict, d)

/-! ## Checked -/

def checkedRender (d : Dashboard) : Checked String := d.state.checkedRender d.ctx

def checkedResize (d : Dashboard) : Checked Dashboard := do
  let width := Progress.barWidth d.settings.columnWidth
  let state ← d.state.checkedRelayout width
  pure { d with barWidth := width, state }

def checkedUpdate (width : Nat) (wallClock : Int) (ctx : PageContext) :
    Report → PageState → Checked (Verdict × PageContext × PageState)
  | .build r, .build p => do
    let ctx := adoptNames ctx (.build r)
    let p ← p.checkedUpdate ctx r width wallClock
    pure (BuildPage.verdict r, ctx, .build p)
  | .history r, .history p => do
    let p ← p.checkedUpdate r
    pure (.proceed, adoptNames ctx (.history r), .history p)
  | .overview r, .overview p => do
    let p ← p.checkedUpdate r
    pure (.proceed, adoptNames ctx (.overview r), .overview p)
  | _, state => pure (.proceed, ctx, state)

def checkedFirstLoad (d : Dashboard) : Checked Dashboard :=
  if d.loading then do
    let resized ← d.checkedResize
    pure { resized with loading := false, scrollTo := d.pendingAnchor, pendingAnchor := none }
  else pure d

def checkedAccept (d : Dashboard) (report : Report) (wallClock : Int) :
    Checked (Verdict × Dashboard) := do
  let switched := report.kind ≠ d.ctx.kind
  let page := d.ofKind report.kind
  let (verdict, ctx, state) ← checkedUpdate page.barWidth wallClock page.ctx report page.state
  let loaded ← { page with ctx := if switched then ctx.relocate else ctx, state }.checkedFirstLoad
  pure (verdict, loaded)

def checkedProcess (d : Dashboard) (doc : Document) (wallClock : Int) :
    Checked (Except ReportError Verdict × Dashboard) := do
  let d := { d with scrollTo := none }
  match Report.ofDocument doc with
  | .error e => pure (.error e, d)
  | .ok report =>
    let (verdict, d) ← d.checkedAccept report wallClock
    pure (.ok verdict, d)

end Dashboard

end BuildBoard
