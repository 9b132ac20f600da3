import BuildBoard.Proofs.Page.Groups
import BuildBoard.Proofs.Page.Tables

/-!
# Pages in parts

A page is drawn from panels and tables. The panels are those of a build, of its counters, and of the
latest build of a history. All else that has rows is drawn as a table with headings, in the one way
that `Grid.render` has. The table of masters is drawn as several.

Results:
1. `render_eq_join`: a page is its parts, one after the other.
2. `draws_of_mem_drawn`: a table that is drawn has headings and rows of a table of the page.
-/

namespace BuildBoard

/-! ## Definitions -/

/-- A table as it is drawn. -/
structure DrawnTable where
  /-- The table of the page that it shows, or shows a part of. -/
  name : TableName
  id : String
  columns : List String
  rows : List (List String × Highlight)

namespace DrawnTable

def ofEntries {ρ : Type} (id : String) (columns : List String) (cells : ρ → List String)
    (entries : List (MarkedRow ρ)) : DrawnTable :=
  ⟨.keyed, id, columns, entries.map fun e => (cells e.row, e.highlight)⟩

def ofListing (c : Category) (l : Listing) : DrawnTable :=
  ⟨.packages c, c.name ++ "_table", c.columns, l.marked⟩

end DrawnTable

/-- What pages are drawn from. A table comes with the markup before and after it. -/
inductive PagePart where
  | panel (markup : String)
  | table (opening : String) (t : DrawnTable) (closing : String)

namespace PagePart

def markup : PagePart → String
  | .panel markup => markup
  | .table opening t closing => opening ++ Grid.render t.id t.columns t.rows ++ closing

def table? : PagePart → Option DrawnTable
  | .panel _ => none
  | .table _ t _ => some t

def ifShown (visible : Bool) (part : PagePart) : List PagePart := if visible then [part] else []

end PagePart

open PagePart

namespace BuildPage

/-- The markup before a table that has a title. -/
def sectionOpening (id title : String) : String :=
  "<div id=\"" ++ id ++ "_div\" class=\"section\"><h2 id=\"" ++ id ++ "\">" ++ Html.escape title ++
    "</h2>"

def buildersPart (ctx : PageContext) (builders : KeyedTable BuilderRow) : PagePart :=
  .table (sectionOpening "jobs" "Builders")
    (.ofEntries "builders_table" BuilderRow.columns (BuilderRow.cells ctx) builders.entries) "</div>"

def listingPart (c : Category) (l : Listing) : PagePart :=
  .table (sectionOpening c.name (c.heading ++ " ports")) (.ofListing c l) "</div>"

/-- The table of a category, where there is one that is shown. -/
def packageParts (tables : PerCategory (Option Listing)) (c : Category) : List PagePart :=
  (tables.get c).elim [] fun l => ifShown l.visible (listingPart c l)

def parts (ctx : PageContext) (p : BuildPage) : List PagePart :=
  .panel ((p.info.map (renderInfo ctx p.status)).getD "") ::
    .panel ((p.stats.map (renderStats p)).getD "") ::
    ifShown p.builders.visible (buildersPart ctx p.builders) ++
    Category.all.flatMap (packageParts p.tables)

end BuildPage

namespace HistoryPage

def buildsPart (ctx : PageContext) (builds : KeyedTable BuildRow) : PagePart :=
  .table "<div id=\"builds_div\"><h2 id=\"builds\">Builds</h2>"
    (.ofEntries "builds_table" BuildRow.columns (BuildRow.cells ctx) builds.entries) "</div>"

def parts (ctx : PageContext) (p : HistoryPage) : List PagePart :=
  .panel ((p.latest.map (renderLatest ctx)).getD "") ::
    ifShown p.builds.visible (buildsPart ctx p.builds)

end HistoryPage

namespace OverviewPage

def groupPart (ctx : PageContext) (n : Nat) (group : String × List (MarkedRow MasterRow)) :
    PagePart :=
  .table ("<h3>" ++ group.1 ++ "</h3>")
    (.ofEntries ("latest_builds_table_" ++ decimalText n) MasterRow.columns (MasterRow.cells ctx)
      group.2) ""

def parts (ctx : PageContext) (p : OverviewPage) : List PagePart :=
  if p.masters.visible then
    .panel "<div id=\"latest_builds_div\"><h2 id=\"latest_builds\">Latest builds</h2>" ::
      p.groups.zipIdx.map (fun (group, n) => groupPart ctx n group) ++ [.panel "</div>"]
  else []

end OverviewPage

/-- The parts of a page, from top to bottom. -/
def PageState.parts (ctx : PageContext) : PageState → List PagePart
  | .build p => p.parts ctx
  | .history p => p.parts ctx
  | .overview p => p.parts ctx

/-- The tables of a page as they are drawn, from top to bottom. -/
def PageState.drawn (ctx : PageContext) (state : PageState) : List DrawnTable :=
  (state.parts ctx).filterMap PagePart.table?

/-- The headings of a table on a page of this kind. -/
def PageKind.columns : PageKind → TableName → List String
  | _, .packages c => c.columns
  | .build, .keyed => BuilderRow.columns
  | .jail, .keyed => BuildRow.columns
  | .index, .keyed => MasterRow.columns

/-- Tables that show rows of a page: some of its keyed table, or those of a category. -/
inductive PageState.Draws (ctx : PageContext) (state : PageState) : DrawnTable → Prop
  | keyed (kind : PageKind) {keyed : KeyedTable kind.Row} (id : String)
      {entries : List (MarkedRow kind.Row)} :
      state.keyed? kind = some keyed → (∀ e ∈ entries, e ∈ keyed.entries) →
      Draws ctx state (.ofEntries id (kind.columns .keyed) (kind.cells ctx) entries)
  | packages {c : Category} {l : Listing} :
      state.listing? c = some l → Draws ctx state (.ofListing c l)

/-! ## A page is its parts -/

theorem join_flatMap {α : Type} (f : α → List String) (as : List α) :
    String.join (as.flatMap f) = String.join (as.map fun a => String.join (f a)) := by
  induction as with
  | nil => rfl
  | cons a as ih =>
    rw [List.flatMap_cons, String.join_append, ih, List.map_cons, String.join_cons]

theorem PagePart.join_ifShown (visible : Bool) (part : PagePart) :
    String.join ((ifShown visible part).map markup) = if visible then part.markup else "" := by
  cases visible with
  | false => rfl
  | true =>
    show String.join [part.markup] = part.markup
    rw [String.join_cons, String.join_nil, String.append_empty]

namespace BuildPage

theorem renderTable_eq_join (tables : PerCategory (Option Listing)) (c : Category) :
    renderTable tables c = String.join ((packageParts tables c).map markup) := by
  unfold renderTable packageParts
  cases tables.get c with
  | none => rfl
  | some l =>
    rw [Option.elim_some, join_ifShown]
    rfl

theorem render_eq_join (ctx : PageContext) (p : BuildPage) :
    p.render ctx = String.join ((p.parts ctx).map markup) := by
  have htables : String.join (Category.all.map (renderTable p.tables)) =
      String.join ((Category.all.flatMap (packageParts p.tables)).map markup) := by
    rw [List.map_flatMap, join_flatMap]
    exact congrArg String.join (List.map_congr_left fun c _ => renderTable_eq_join p.tables c)
  have hbuilders : renderBuilders ctx p.builders =
      String.join ((ifShown p.builders.visible (buildersPart ctx p.builders)).map markup) := by
    rw [join_ifShown]
    rfl
  have hpanels : p.render ctx =
      (p.info.map (renderInfo ctx p.status)).getD "" ++ (p.stats.map (renderStats p)).getD "" ++
        renderBuilders ctx p.builders ++ String.join (Category.all.map (renderTable p.tables)) := by
    unfold render
    cases p.info <;> cases p.stats <;> rfl
  rw [hpanels, htables, hbuilders, parts, List.map_append, List.map_cons, List.map_cons,
    String.join_append, String.join_cons, String.join_cons]
  simp only [markup, String.append_assoc]

end BuildPage

theorem HistoryPage.render_eq_join (ctx : PageContext) (p : HistoryPage) :
    p.render ctx = String.join ((p.parts ctx).map markup) := by
  have hbuilds : renderBuilds ctx p.builds =
      String.join ((ifShown p.builds.visible (buildsPart ctx p.builds)).map markup) := by
    rw [join_ifShown]
    rfl
  unfold render parts
  rw [hbuilds, List.map_cons, String.join_cons]
  cases p.latest <;> rfl

theorem OverviewPage.render_eq_join (ctx : PageContext) (p : OverviewPage) :
    p.render ctx = String.join ((p.parts ctx).map markup) := by
  unfold render parts
  split
  · have hgroups : p.groups.zipIdx.map (fun (group, n) => renderGroup ctx n group) =
        (p.groups.zipIdx.map fun (group, n) => groupPart ctx n group).map markup := by
      rw [List.map_map]
      exact List.map_congr_left fun place _ => String.append_empty.symm
    rw [hgroups, List.map_append, List.map_cons, String.join_append, String.join_cons]
    rfl
  · rfl

theorem PageState.render_eq_join (ctx : PageContext) (state : PageState) :
    state.render ctx = String.join ((state.parts ctx).map markup) := by
  cases state with
  | build p => exact p.render_eq_join ctx
  | history p => exact p.render_eq_join ctx
  | overview p => exact p.render_eq_join ctx

/-! ## The tables among the parts -/

theorem PagePart.eq_of_mem_ifShown {visible : Bool} {part shown : PagePart}
    (h : part ∈ ifShown visible shown) : part = shown := by
  cases visible with
  | false => exact absurd h List.not_mem_nil
  | true => exact List.mem_singleton.mp h

namespace PageState

variable {ctx : PageContext} {opening closing : String} {t : DrawnTable}

theorem draws_of_mem_build {p : BuildPage} (h : .table opening t closing ∈ p.parts ctx) :
    (PageState.build p).Draws ctx t := by
  rcases List.mem_append.mp h with hfirst | hlisting
  · have hbuilders : .table opening t closing ∈
        ifShown p.builders.visible (BuildPage.buildersPart ctx p.builders) := by
      simpa [List.mem_cons] using hfirst
    obtain ⟨-, rfl, -⟩ := PagePart.table.inj (eq_of_mem_ifShown hbuilders)
    exact .keyed .build "builders_table" rfl fun e he => he
  · obtain ⟨c, -, hpart⟩ := List.mem_flatMap.mp hlisting
    unfold BuildPage.packageParts at hpart
    cases hl : p.tables.get c with
    | none =>
      rw [hl] at hpart
      exact absurd hpart List.not_mem_nil
    | some l =>
      rw [hl] at hpart
      obtain ⟨-, rfl, -⟩ := PagePart.table.inj (eq_of_mem_ifShown hpart)
      exact .packages hl

theorem draws_of_mem_history {p : HistoryPage} (h : .table opening t closing ∈ p.parts ctx) :
    (PageState.history p).Draws ctx t := by
  rcases List.mem_cons.mp h with hpanel | hbuilds
  · cases hpanel
  · obtain ⟨-, rfl, -⟩ := PagePart.table.inj (eq_of_mem_ifShown hbuilds)
    exact .keyed .jail "builds_table" rfl fun e he => he

theorem draws_of_mem_overview {p : OverviewPage} (h : .table opening t closing ∈ p.parts ctx) :
    (PageState.overview p).Draws ctx t := by
  unfold OverviewPage.parts at h
  split at h
  · obtain ⟨⟨group, n⟩, hgroup, hpart⟩ : ∃ place ∈ p.groups.zipIdx,
        OverviewPage.groupPart ctx place.2 place.1 = .table opening t closing := by
      simpa [List.mem_cons] using h
    obtain ⟨-, rfl, -⟩ := PagePart.table.inj hpart
    have hmembers := (OverviewPage.grouped_groupsOf _ p.masters.entries).members group
      (List.fst_mem_of_mem_zipIdx hgroup)
    refine .keyed .index _ rfl fun e he => ?_
    exact List.mem_of_mem_filter (hmembers ▸ he)
  · exact absurd h List.not_mem_nil

/-- A table that is drawn has headings and rows of a table of the page. -/
theorem draws_of_mem_drawn {state : PageState} (h : t ∈ state.drawn ctx) : state.Draws ctx t := by
  obtain ⟨part, hpart, htable⟩ := List.mem_filterMap.mp h
  cases part with
  | panel => cases htable
  | table opening shown closing =>
    obtain rfl := Option.some.inj htable
    cases state with
    | build p => exact draws_of_mem_build hpart
    | history p => exact draws_of_mem_history hpart
    | overview p => exact draws_of_mem_overview hpart

end PageState

end BuildBoard
