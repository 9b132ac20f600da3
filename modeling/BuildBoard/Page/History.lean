import BuildBoard.Page.Grid
import BuildBoard.Page.Link
import BuildBoard.Status
import BuildBoard.Table.Keyed

/-!
# The page of a master's history

One row for each build that a report has listed, and a panel on the latest build.
-/

namespace BuildBoard

open Html (escape)

structure BuildRow where
  mastername : String
  buildname : String
  counts : List Int
  /-- The status as it is shown. -/
  status : String
  elapsed : String
deriving DecidableEq

instance : Keyed BuildRow := ⟨BuildRow.buildname⟩

namespace BuildRow

def columns : List String := ["Build"] ++ counterColumns ++ ["Status", "Elapsed"]

def ofSummary (mastername : String) (build : String × BuildSummary) : BuildRow where
  mastername
  buildname := build.1
  counts := counterCells build.2.stats
  status := Status.shown build.2.status
  elapsed := Duration.ofDocument? build.2.elapsed

def checkedOfSummary (mastername : String) (build : String × BuildSummary) : Checked BuildRow := do
  let counts ← checkedCounterCells build.2.stats
  pure { ofSummary mastername build with counts }

def cells (ctx : PageContext) (b : BuildRow) : List String :=
  [Link.build ctx b.mastername b.buildname] ++ b.counts.map decimalText ++
    [escape b.status, b.elapsed]

end BuildRow

/-- What is shown of the most recent build. -/
structure LatestInfo where
  mastername : String
  buildname : String
  status : String
  jailname : String
  setname : String
  ptname : String
deriving DecidableEq

/-- The latest build of a history, under the history's master if it names none itself. -/
def LatestInfo.ofSummary (mastername : String) (latest : BuildSummary) : LatestInfo where
  mastername := if latest.mastername.isEmpty then mastername else latest.mastername
  buildname := latest.buildname
  status := Status.shown latest.status
  jailname := latest.jailname
  setname := latest.setname
  ptname := latest.ptname

structure HistoryPage where
  builds : KeyedTable BuildRow
  latest : Option LatestInfo

namespace HistoryPage

def new : HistoryPage := ⟨KeyedTable.empty, none⟩

def rowsOf (r : HistoryReport) : List BuildRow := r.builds.map (BuildRow.ofSummary r.mastername)

/-- The page after a report; the panel stays if the report has no latest build. -/
def update (r : HistoryReport) (p : HistoryPage) : HistoryPage where
  builds := p.builds.update (rowsOf r)
  latest := match r.latestSummary? with
    | some latest => some (LatestInfo.ofSummary r.mastername latest)
    | none => p.latest

def checkedUpdate (r : HistoryReport) (p : HistoryPage) : Checked HistoryPage := do
  let rows ← r.builds.mapM (BuildRow.checkedOfSummary r.mastername)
  pure { p.update r with builds := p.builds.update rows }

/-! ## Markup -/

def renderLatest (ctx : PageContext) (latest : LatestInfo) : String :=
  "<div id=\"masterinfo_div\"><dl class=\"dl-horizontal\">" ++
    "<dt>Master</dt><dd>" ++ Link.master ctx latest.mastername ++ "</dd>" ++
    "<dt>Status</dt><dd>" ++ escape latest.status ++ "</dd>" ++
    "<dt>Jail</dt><dd>" ++ escape latest.jailname ++ "</dd>" ++
    "<dt>Set</dt><dd>" ++ escape latest.setname ++ "</dd>" ++
    "<dt>Ports tree</dt><dd>" ++ escape latest.ptname ++ "</dd>" ++
    "<dt><a id=\"latest_url\" href=\"" ++
    escape (Link.buildUrl latest.mastername latest.buildname) ++
    "\">Latest build</a></dt><dd id=\"latest_build\">" ++
    Link.build ctx latest.mastername latest.buildname ++ "</dd>" ++ "</dl></div>"

def renderBuilds (ctx : PageContext) (builds : KeyedTable BuildRow) : String :=
  if builds.visible then
    "<div id=\"builds_div\"><h2 id=\"builds\">Builds</h2>" ++
      Grid.render "builds_table" BuildRow.columns
        (builds.entries.map fun e => (e.row.cells ctx, e.highlight)) ++ "</div>"
  else ""

def render (ctx : PageContext) (p : HistoryPage) : String :=
  (match p.latest with
    | some latest => renderLatest ctx latest
    | none => "") ++ renderBuilds ctx p.builds

end HistoryPage

end BuildBoard
