import BuildBoard.Page.Grid
import BuildBoard.Page.Link
import BuildBoard.Status
import BuildBoard.Table.Keyed

/-!
# The overview of all masters

One row for each master with its latest build. The rows are shown in one table for each package tree
and set, in the order of the headings.
-/

namespace BuildBoard

open Html (escape)

structure MasterRow where
  mastername : String
  buildname : String
  jailname : String
  setname : String
  ptname : String
  counts : List Int
  status : String
  elapsed : String
deriving DecidableEq

instance : Keyed MasterRow := ⟨MasterRow.mastername⟩

namespace MasterRow

def columns : List String := ["Master", "Build", "Jail"] ++ counterColumns ++ ["Status", "Elapsed"]

/-- The row of a master, under the name that its latest build gives, if that gives one. -/
def ofSummary (key : String) (latest : BuildSummary) : MasterRow where
  mastername := if latest.mastername.isEmpty then key else latest.mastername
  buildname := latest.buildname
  jailname := latest.jailname
  setname := latest.setname
  ptname := latest.ptname
  counts := counterCells latest.stats
  status := Status.shown latest.status
  elapsed := Duration.ofDocument? latest.elapsed

def checkedOfSummary (key : String) (latest : BuildSummary) : Checked MasterRow := do
  let counts ← checkedCounterCells latest.stats
  pure { ofSummary key latest with counts }

/-- The heading that the row is shown under. -/
def heading (m : MasterRow) : String := treeAndSet m.ptname m.setname

def cells (ctx : PageContext) (m : MasterRow) : List String :=
  [Link.master ctx m.mastername, Link.build ctx m.mastername m.buildname, escape m.jailname] ++
    m.counts.map decimalText ++ [escape m.status, m.elapsed]

end MasterRow

structure OverviewPage where
  masters : KeyedTable MasterRow

namespace OverviewPage

def new : OverviewPage := ⟨KeyedTable.empty⟩

/-- The rows of the masters that have a build. -/
def rowsOf (r : OverviewReport) : List MasterRow :=
  r.masters.filterMap fun (key, latest) => latest.map (MasterRow.ofSummary key)

def update (r : OverviewReport) (p : OverviewPage) : OverviewPage := ⟨p.masters.update (rowsOf r)⟩

def checkedUpdate (r : OverviewReport) (p : OverviewPage) : Checked OverviewPage := do
  let rows ← r.built.mapM fun (key, latest) => MasterRow.checkedOfSummary key latest
  pure ⟨p.masters.update rows⟩

/-! ## Groups -/

/-- Puts an element at the end of its key's group, the groups being in the order of keys. -/
def insertGroup (key : String) (a : α) : List (String × List α) → List (String × List α)
  | [] => [(key, [a])]
  | (k, group) :: rest =>
    if key < k then (key, [a]) :: (k, group) :: rest
    else if key = k then (k, group ++ [a]) :: rest
    else (k, group) :: insertGroup key a rest

/-- The elements by key: keys ascending, the elements of a key in their order. -/
def groupsOf (key : α → String) (as : List α) : List (String × List α) :=
  as.foldl (fun groups a => insertGroup (key a) a groups) []

/-- The rows of the table with their highlights, by heading. -/
def groups (p : OverviewPage) : List (String × List (MarkedRow MasterRow)) :=
  groupsOf (fun e => e.row.heading) p.masters.entries

/-! ## Markup -/

def renderGroup (ctx : PageContext) (n : Nat)
    (group : String × List (MarkedRow MasterRow)) : String :=
  "<h3>" ++ group.1 ++ "</h3>" ++
    Grid.render ("latest_builds_table_" ++ decimalText n) MasterRow.columns
      (group.2.map fun e => (e.row.cells ctx, e.highlight))

def render (ctx : PageContext) (p : OverviewPage) : String :=
  if p.masters.visible then
    "<div id=\"latest_builds_div\"><h2 id=\"latest_builds\">Latest builds</h2>" ++
      String.join (p.groups.zipIdx.map fun (group, n) => renderGroup ctx n group) ++ "</div>"
  else ""

end OverviewPage

end BuildBoard
