import BuildBoard.Page.Grid
import BuildBoard.Page.Link
import BuildBoard.Progress.Bar
import BuildBoard.Rate.Window
import BuildBoard.Status
import BuildBoard.Table.Keyed
import BuildBoard.Table.Listing

/-!
# The page of a build

The page keeps what the reports said so far: the builders as a keyed table, the package lists as
growing tables, and the latest counters, progress bar and rates. A report leaves out what it does
not mention.
-/

namespace BuildBoard

open Html (escape)

/-! ## Builders -/

structure BuilderRow where
  id : String
  pkgname : Option String
  origin : Option String
  flavor : Option String
  status : String
  elapsed : String
deriving DecidableEq

instance : Keyed BuilderRow := ⟨BuilderRow.id⟩

namespace BuilderRow

def columns : List String := ["Builder", "Package", "Origin", "Status", "Elapsed"]

def ofJob (now : Int) (job : Job) : BuilderRow where
  id := job.id
  pkgname := nonEmpty job.pkgname
  origin := nonEmpty job.origin
  flavor := nonEmpty job.flavor
  status := job.status
  elapsed := Duration.between job.started (some now)

def checkedOfJob (now : Int) (job : Job) : Checked BuilderRow := do
  let elapsed ← Duration.checkedBetween job.started (some now)
  pure { ofJob now job with elapsed }

/-- A builder without a package, in the idle state. -/
def isIdle (b : BuilderRow) : Bool := b.pkgname.isNone && Status.state b.status == "idle"

/-- The status, as a link to the log while a package is built. -/
def statusCell (dataUrl : String) (b : BuilderRow) : String :=
  match b.pkgname with
  | some pkgname => Link.log dataUrl pkgname false b.status
  | none => escape (Status.state b.status)

def cells (ctx : PageContext) (b : BuilderRow) : List String :=
  [escape b.id, escape (b.pkgname.getD ""), Link.origin b.origin b.flavor,
    b.statusCell ctx.dataUrl, b.elapsed]

end BuilderRow

/-! ## Panels -/

/-- What identifies the build. -/
structure BuildInfo where
  mastername : String
  buildname : String
  jailname : String
  setname : String
  ptname : String
  overlays : Option String
  gitHash : Option String
deriving DecidableEq

def BuildInfo.ofReport (r : BuildReport) : BuildInfo where
  mastername := r.mastername
  buildname := r.buildname
  jailname := r.jailname
  setname := r.setname
  ptname := r.ptname
  overlays := nonEmpty r.overlays
  gitHash := (nonEmpty r.gitHash).map fun hash =>
    if r.gitDirty = some "yes" then hash ++ " (dirty)" else hash

/-- Counters with the rates taken from them. -/
structure SnapPanel where
  snap : Snap
  lifetimeRate : Option Int
  recent : TrailingRate
deriving DecidableEq

/-! ## Package rows -/

namespace PackageRow

def durationCell (elapsed : Option Int) : String := Duration.text? (elapsed.filter (· ≠ 0))

def nameCells (p : Package) : List String :=
  [escape p.pkgname, Link.origin (some p.origin) p.flavor]

/-- The cells of an entry after its number. -/
def cells (dataUrl : String) (skippedCount : String → Int) : (c : Category) → c.Entry → List String
  | .built, (e : BuiltEntry) =>
    nameCells e.package ++
      [Link.log dataUrl e.package.pkgname false "success", durationCell e.elapsed]
  | .failed, (e : FailedEntry) =>
    nameCells e.package ++
      [escape e.phase, Link.skipped (skippedCount e.package.pkgname) e.package.pkgname,
        Link.log dataUrl e.package.pkgname true e.errortype, durationCell e.elapsed]
  | .skipped, (e : SkippedEntry) => nameCells e.package ++ [escape e.depends]
  | .ignored, (e : IgnoredEntry) =>
    nameCells e.package ++
      [Link.skipped (skippedCount e.package.pkgname) e.package.pkgname, escape e.reason]
  | .fetched, (e : FetchedEntry) => nameCells e.package
  | .remaining, (e : RemainingEntry) => [escape e.pkgname, escape e.status]
  | .queued, (e : QueuedEntry) =>
    nameCells e.package ++
      [if e.reason = "listed" then escape e.reason else Link.origin (some e.reason) none]

/-- The rows of entries that follow `start` others, each with its number before it. -/
def numbered (toCells : α → List String) (start : Nat) (entries : List α) : List (List String) :=
  (entries.zipIdx start).map fun (e, i) => decimalText (i + 1 : Nat) :: toCells e

/-- The rows of a category's list from position `first` up to position `last`. -/
def rows (ctx : PageContext) (r : BuildReport) (p : Packages) (c : Category) (first last : Nat) :
    List (List String) :=
  numbered (cells ctx.dataUrl r.skippedCount c) first (((p.list c).take last).drop first)

end PackageRow

/-! ## The page -/

structure BuildPage where
  info : Option BuildInfo
  /-- The status as it is shown. -/
  status : Option String
  builders : KeyedTable BuilderRow
  stats : Option Stats
  percent : Option Binary64
  bar : Option Progress.Bar
  snap : Option SnapPanel
  tables : PerCategory (Option Listing)
  cursors : Cursors
  window : RateWindow

/-- What a processed report means for polling. -/
inductive Verdict where
  | proceed | stop
deriving DecidableEq

namespace BuildPage

def new (window : RateWindow) : BuildPage where
  info := none
  status := none
  builders := KeyedTable.empty
  stats := none
  percent := none
  bar := none
  snap := none
  tables := PerCategory.all none
  cursors := Cursors.start
  window

def title (p : BuildPage) : String :=
  match p.info with
  | some info => "Bulk results for " ++ info.mastername ++ " " ++ info.buildname
  | none => "Bulk results"

/-- Lays the progress bar out again. -/
def relayout (p : BuildPage) (width : Nat) : BuildPage :=
  match p.stats with
  | some stats =>
    { p with percent := some (Progress.percent stats), bar := Progress.layout stats width }
  | none => p

/-- The time that a report's jobs are measured against: the producer's clock, or else our own. -/
def clockOf (r : BuildReport) (wallClock : Int) : Int :=
  match r.snap.bind Snap.now with
  | some now => if now = 0 then wallClock else now
  | none => wallClock

/-- Whether a report says that the build has stopped; one without a status does not. -/
def isStopped (r : BuildReport) : Bool := Status.isStopped (Status.shown r.statusText?)

/-- The builders that a report shows; idle ones are left out once the build has stopped. -/
def builderRows (r : BuildReport) (now : Int) (jobs : List Job) : List BuilderRow :=
  (jobs.map (BuilderRow.ofJob now)).filter fun row => !(isStopped r && row.isIdle)

/-- One category's table and the cursors after a report with these packages. -/
def updateTable (ctx : PageContext) (r : BuildReport) (packages : Packages) (p : BuildPage)
    (c : Category) : BuildPage :=
  let table := (p.tables.get c).getD Listing.empty
  if c.isAppendOnly then
    let length := packages.length c
    if length = 0 then p
    else
      let ((first, last), cursors) := p.cursors.advance c length
      if last ≤ first then { p with cursors }
      else
        let rows := PackageRow.rows ctx r packages c first last
        { p with cursors, tables := p.tables.set c (some (table.append rows)) }
  else
    let rows := PackageRow.rows ctx r packages c 0 (packages.length c)
    { p with tables := p.tables.set c (some (Listing.ofRows rows)) }

/-- All package tables after a report with these packages. -/
def updateTables (ctx : PageContext) (r : BuildReport) (packages : Packages) (p : BuildPage) :
    BuildPage :=
  let settled := { p with tables := p.tables.map (Option.map Listing.settle) }
  Category.all.foldl (updateTable ctx r packages) settled

/-- The counters of a report, with the bar that shows them. -/
def updateStats (r : BuildReport) (width : Nat) (p : BuildPage) : BuildPage :=
  match r.stats with
  | some stats => { p with stats := some stats }.relayout width
  | none => p

/-- The identification and status of a report. -/
def updateInfo (r : BuildReport) (p : BuildPage) : BuildPage :=
  { p with
    info := some (BuildInfo.ofReport r)
    status := match r.statusText? with
      | some s => some (Status.abridge s)
      | none => p.status }

def updateBuilders (r : BuildReport) (now : Int) (p : BuildPage) : BuildPage :=
  match r.jobs with
  | some jobs => { p with builders := p.builders.update (builderRows r now jobs) }
  | none => p

/-- The rates of a report that has both counters and a clocked copy of them. -/
def updateSnap (r : BuildReport) (p : BuildPage) : BuildPage :=
  match r.stats, r.snap with
  | some stats, some snap =>
    let (recent, window) := p.window.record ⟨stats.attempted, snap.stats.elapsed⟩
    { p with
      snap := some ⟨snap, Rate.lifetime stats.attempted snap.stats.elapsed, recent⟩
      window }
  | _, _ => p

def updatePackages (ctx : PageContext) (r : BuildReport) (p : BuildPage) : BuildPage :=
  match r.packages with
  | some packages => updateTables ctx r packages p
  | none => p

/-- The page after a report. -/
def update (ctx : PageContext) (r : BuildReport) (width : Nat) (wallClock : Int) (p : BuildPage) :
    BuildPage :=
  updatePackages ctx r
    (updateSnap r
      (updateBuilders r (clockOf r wallClock)
        (updateInfo r
          (updateStats r width p))))

/-! ## Checked -/

def checkedRelayout (p : BuildPage) (width : Nat) : Checked BuildPage :=
  match p.stats with
  | some stats => do
    let percent ← Progress.checkedPercent stats
    let bar ← Progress.checkedLayout stats width
    pure { p with percent := some percent, bar }
  | none => pure p

def checkedUpdateStats (r : BuildReport) (width : Nat) (p : BuildPage) : Checked BuildPage :=
  match r.stats with
  | some stats => { p with stats := some stats }.checkedRelayout width
  | none => pure p

def checkedBuilderRows (r : BuildReport) (now : Int) (jobs : List Job) :
    Checked (List BuilderRow) := do
  let rows ← jobs.mapM (BuilderRow.checkedOfJob now)
  pure (rows.filter fun row => !(isStopped r && row.isIdle))

def checkedUpdateBuilders (r : BuildReport) (now : Int) (p : BuildPage) : Checked BuildPage :=
  match r.jobs with
  | some jobs => do
    let rows ← checkedBuilderRows r now jobs
    pure { p with builders := p.builders.update rows }
  | none => pure p

def checkedUpdateSnap (r : BuildReport) (p : BuildPage) : Checked BuildPage :=
  match r.stats, r.snap with
  | some stats, some snap => do
    let attempted ← stats.checkedAttempted
    let (recent, window) ← p.window.checkedRecord ⟨attempted, snap.stats.elapsed⟩
    pure { p with
      snap := some ⟨snap, Rate.lifetime attempted snap.stats.elapsed, recent⟩
      window }
  | _, _ => pure p

def checkedUpdate (ctx : PageContext) (r : BuildReport) (width : Nat) (wallClock : Int)
    (p : BuildPage) : Checked BuildPage := do
  let p ← p.checkedUpdateStats r width
  let p ← (updateInfo r p).checkedUpdateBuilders r (clockOf r wallClock)
  let p ← p.checkedUpdateSnap r
  pure (updatePackages ctx r p)

/-- Polling ends with the build. -/
def verdict (r : BuildReport) : Verdict := if isStopped r then .stop else .proceed

/-! ## Markup -/

def titledSection (id title body : String) : String :=
  "<div id=\"" ++ id ++ "_div\" class=\"section\"><h2 id=\"" ++ id ++ "\">" ++ escape title ++
    "</h2>" ++ body ++ "</div>"

def infoField (field : String × String) : String :=
  "<dt>" ++ field.1 ++ "</dt><dd>" ++ field.2 ++ "</dd>"

def renderInfo (ctx : PageContext) (status : Option String) (info : BuildInfo) : String :=
  let fixed := [
    ("Master", Link.master ctx info.mastername),
    ("Build", Link.build ctx info.mastername info.buildname),
    ("Jail", escape info.jailname),
    ("Set", escape info.setname),
    ("Ports tree", escape info.ptname)]
  let optional (label : String) (value : Option String) :=
    match value with
    | some value => [(label, escape value)]
    | none => []
  "<div id=\"build_info_div\"><dl class=\"dl-horizontal\">" ++
    String.join ((fixed ++ optional "Overlays" info.overlays ++ optional "Git hash" info.gitHash ++
      optional "Status" status).map infoField) ++ "</dl></div>"

def counterCell (stats : Stats) (c : Category) : String :=
  "<td id=\"stats_" ++ c.name ++ "\">" ++ decimalText (stats.count c) ++ "</td>"

/-- The categories in the order of the counter columns. -/
def counterOrder : List Category :=
  [.queued, .built, .failed, .skipped, .ignored, .fetched, .remaining]

def renderBar (bar : Option Progress.Bar) : String :=
  match bar with
  | some bar => bar.svg
  | none => ""

def renderPercent (percent : Option Binary64) : String :=
  match percent with
  | some percent => " <span id=\"progresspct\">" ++ Progress.percentText percent ++ "</span>"
  | none => ""

def renderSnap (panel : SnapPanel) : String :=
  "<table id=\"snap\" class=\"table table-condensed\">" ++
    "<tr><th>Elapsed</th><th>Rate</th><th>Recent rate</th></tr>" ++
    "<tr><td id=\"snap_elapsed\">" ++ Duration.between panel.snap.stats.elapsed none ++
    "</td><td id=\"snap_pkghour\">" ++ Rate.text panel.lifetimeRate ++
    "</td><td class=\"impulse\" title=\"" ++ escape panel.recent.horizon.title ++
    "\"><span id=\"snap_impulse\">" ++ Rate.text panel.recent.rate ++ "</span></td></tr></table>"

def renderStats (p : BuildPage) (stats : Stats) : String :=
  "<div id=\"progress_col\">" ++ renderBar p.bar ++ renderPercent p.percent ++ "</div>" ++
    "<table id=\"stats\" class=\"table table-condensed\"><tr>" ++
    String.join ((counterColumns ++ ["Elapsed"]).map fun label => "<th>" ++ label ++ "</th>") ++
    "</tr><tr>" ++ String.join (counterOrder.map (counterCell stats)) ++
    "<td id=\"stats_elapsed\">" ++ Duration.between stats.elapsed none ++ "</td></tr></table>" ++
    (match p.snap with
      | some panel => renderSnap panel
      | none => "")

def renderBuilders (ctx : PageContext) (builders : KeyedTable BuilderRow) : String :=
  if builders.visible then
    titledSection "jobs" "Builders"
      (Grid.render "builders_table" BuilderRow.columns
        (builders.entries.map fun e => (e.row.cells ctx, e.highlight)))
  else ""

def renderTable (tables : PerCategory (Option Listing)) (c : Category) : String :=
  match tables.get c with
  | some table =>
    if table.visible then
      titledSection c.name (c.heading ++ " ports")
        (Grid.render (c.name ++ "_table") c.columns table.marked)
    else ""
  | none => ""

/-- The body of the page. -/
def render (ctx : PageContext) (p : BuildPage) : String :=
  (match p.info with
    | some info => renderInfo ctx p.status info
    | none => "") ++
  (match p.stats with
    | some stats => renderStats p stats
    | none => "") ++
  renderBuilders ctx p.builders ++
  String.join (Category.all.map (renderTable p.tables))

/-- The body of the page. The counters that are drawn are calculated again. That may break off even
where the stats came to the page: a bar that is too narrow is not laid out. -/
def checkedRender (ctx : PageContext) (p : BuildPage) : Checked String :=
  match p.stats with
  | some stats => do
    let _ ← counterOrder.mapM stats.checkedCount
    pure (p.render ctx)
  | none => pure (p.render ctx)

end BuildPage

end BuildBoard
