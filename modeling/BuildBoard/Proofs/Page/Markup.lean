import BuildBoard.Page.Build
import BuildBoard.Page.History
import BuildBoard.Page.Overview
import BuildBoard.Proofs.Text.Markup
import Mathlib.Data.List.Induction

/-!
# The markup of pages

Pages are drawn in pieces: links and cells, tables and panels, the body. Each piece is made of smaller
ones with literals between them, and the smallest are escaped texts, numbers and times. A body is
therefore markup where that is true of what it cannot escape: the data directory, the times that rows
keep, and the cells of packages.

Results:
1. `Link.isMarkup_log`, `Link.isMarkup_origin` and the other links.
2. `PackageRow.isMarkup_rows`: the rows that a report gives to a package table.
3. `BuildPage.around_render`: the body of a build, which has a percent label in it.
4. `HistoryPage.isMarkup_render`, `OverviewPage.isMarkup_render`: the other bodies.
-/

namespace BuildBoard

open Html

/-! ## Literals -/

/-- What pages write themselves, between the texts that they show. -/
def markupLiterals : List String := [
  -- links
  "<a href=\"#top\">", "</a>", "", "<a title=\"", "\" href=\"", "\">", "List builds for ",
  "Show build results for ", "<a target=\"logs\" title=\"Log for ", "logs/", "errors/",
  ".log\"><span class=\"glyphicon glyphicon-file\"></span>",
  "<a target=\"_new\" title=\"freshports for ", "https://www.freshports.org", "/", "@",
  "/\"><span class=\"glyphicon glyphicon-tasks\"></span>", "0",
  "<a href=\"#skipped\" title=\"Packages skipped due to ", "\" data-filter=\"",
  "\"><span class=\"glyphicon glyphicon-filter\"></span>",
  -- tables
  "<table id=\"", "\" class=\"table\"><thead><tr>", "<th>", "</th>", "</tr></thead><tbody>", "<tr>",
  "<tr class=\"", "<td>", "</td>", "</tr>", "</tbody></table>",
  -- the bar
  "<svg xmlns=\"http://www.w3.org/2000/svg\" width=\"", "\" height=\"", "\" viewBox=\"0 0 ", " ",
  "<rect x=\"0.5\" y=\"0.5\" width=\"", "\" fill=\"", "#E3E3E3", "\" stroke=\"", "black",
  "\" stroke-width=\"1\"/>", "<rect class=\"", "\" x=\"", "\" y=\"1\" width=\"", "\"/>", "</svg>",
  -- the page of a build
  "<div id=\"build_info_div\"><dl class=\"dl-horizontal\">", "<dt>", "</dt><dd>", "</dd>",
  "</dl></div>", "<div id=\"progress_col\">", " <span id=\"progresspct\">", "</span>", "</div>",
  "<table id=\"stats\" class=\"table table-condensed\"><tr>", "</tr><tr>", "<td id=\"stats_",
  "<td id=\"stats_elapsed\">", "</td></tr></table>",
  "<table id=\"snap\" class=\"table table-condensed\">",
  "<tr><th>Elapsed</th><th>Rate</th><th>Recent rate</th></tr>", "<tr><td id=\"snap_elapsed\">",
  "</td><td id=\"snap_pkghour\">", "</td><td class=\"impulse\" title=\"",
  "\"><span id=\"snap_impulse\">", "</span></td></tr></table>",
  "<div id=\"", "_div\" class=\"section\"><h2 id=\"", "</h2>",
  -- the page of a history
  "<div id=\"masterinfo_div\"><dl class=\"dl-horizontal\">", "<dt>Master</dt><dd>",
  "<dt>Status</dt><dd>", "<dt>Jail</dt><dd>", "<dt>Set</dt><dd>", "<dt>Ports tree</dt><dd>",
  "<dt><a id=\"latest_url\" href=\"", "\">Latest build</a></dt><dd id=\"latest_build\">",
  "<div id=\"builds_div\"><h2 id=\"builds\">Builds</h2>",
  -- the overview
  "<div id=\"latest_builds_div\"><h2 id=\"latest_builds\">Latest builds</h2>", "<h3>", "</h3>"]

/-- Text that is put together from what pages write themselves and from inert text. -/
def IsMarkup (s : String) : Prop := MadeOf markupLiterals s

namespace IsMarkup

variable {s t : String}

theorem append (hs : IsMarkup s) (ht : IsMarkup t) : IsMarkup (s ++ t) := MadeOf.append hs ht

theorem inert (h : Inert s) : IsMarkup s := MadeOf.inert h

theorem escaped (s : String) : IsMarkup (escape s) := .inert (inert_escape s)

theorem number (n : Int) : IsMarkup (decimalText n) := .inert (inert_decimalText n)

/-- The constructors of membership lead down the list to the literal. -/
theorem literal (h : s ∈ markupLiterals) : IsMarkup s := MadeOf.literal h

/-- One more text, and the literal that comes after it. -/
theorem next {front last : String} (hfront : IsMarkup front) (hs : IsMarkup s)
    (hlast : last ∈ markupLiterals) : IsMarkup (front ++ s ++ last) :=
  (hfront.append hs).append (literal hlast)

/-- One more text between literals of its own. -/
theorem item {front first last : String} (hfront : IsMarkup front) (hs : IsMarkup s)
    (hfirst : first ∈ markupLiterals) (hlast : last ∈ markupLiterals) :
    IsMarkup (front ++ first ++ s ++ last) :=
  (hfront.append (literal hfirst)).next hs hlast

theorem enclosed {first last : String} (hs : IsMarkup s) (hfirst : first ∈ markupLiterals)
    (hlast : last ∈ markupLiterals) : IsMarkup (first ++ s ++ last) :=
  (literal hfirst).next hs hlast

theorem join_map {α : Type} {f : α → String} {as : List α} (h : ∀ a ∈ as, IsMarkup (f a)) :
    IsMarkup (String.join (as.map f)) := MadeOf.join (List.forall_mem_map.mpr h)

end IsMarkup

/-- A text that is markup before and after the label. -/
def MarkupAround (label s : String) : Prop :=
  ∃ front back, s = front ++ label ++ back ∧ IsMarkup front ∧ IsMarkup back

namespace MarkupAround

variable {label s t : String}

theorem of_isMarkup (h : IsMarkup s) : MarkupAround "" s :=
  ⟨s, "", by simp, h, .inert (by decide)⟩

theorem append (hs : MarkupAround label s) (ht : IsMarkup t) : MarkupAround label (s ++ t) := by
  obtain ⟨front, back, rfl, hfront, hback⟩ := hs
  exact ⟨front, back ++ t, String.append_assoc, hfront, hback.append ht⟩

theorem next {last : String} (hs : MarkupAround label s) (ht : IsMarkup t)
    (hlast : last ∈ markupLiterals) : MarkupAround label (s ++ t ++ last) :=
  (hs.append ht).append (.literal hlast)

theorem prepend (hs : IsMarkup s) (ht : MarkupAround label t) : MarkupAround label (s ++ t) := by
  obtain ⟨front, back, rfl, hfront, hback⟩ := ht
  exact ⟨s ++ front, back, by simp only [String.append_assoc], hs.append hfront, hback⟩

end MarkupAround

/-! ## Links -/

namespace Link

theorem isMarkup_top (text : String) : IsMarkup (top text) := by
  unfold top
  exact .enclosed (.escaped text) (by repeat constructor) (by repeat constructor)

theorem isMarkup_titled {title url text : String} (htitle : IsMarkup title) (hurl : IsMarkup url)
    (htext : IsMarkup text) : IsMarkup (titled title url text) := by
  unfold titled
  refine .next (.next (.enclosed htitle ?_ ?_) hurl ?_) htext ?_ <;> repeat constructor

theorem isMarkup_master (ctx : PageContext) (mastername : String) :
    IsMarkup (master ctx mastername) := by
  have htitle : IsMarkup ("List builds for " ++ escape mastername) :=
    .append (.literal (by repeat constructor)) (.escaped _)
  unfold master
  split
  · exact .inert (by decide)
  · split
    · exact isMarkup_top mastername
    · exact isMarkup_titled htitle (.escaped _) (.escaped _)

theorem isMarkup_build (ctx : PageContext) (mastername buildname : String) :
    IsMarkup (build ctx mastername buildname) := by
  have htitle : IsMarkup ("Show build results for " ++ escape buildname) :=
    .append (.literal (by repeat constructor)) (.escaped _)
  unfold build
  split
  · exact .escaped buildname
  · split
    · exact .inert (by decide)
    · split
      · exact isMarkup_top buildname
      · exact isMarkup_titled htitle (.escaped _) (.escaped _)

theorem isMarkup_log {dataUrl : String} (h : IsMarkup dataUrl) (pkgname : String) (errors : Bool)
    (text : String) : IsMarkup (log dataUrl pkgname errors text) := by
  have hlogs : IsMarkup (if errors then "errors/" else "") := .inert (by cases errors <;> decide)
  unfold log
  refine .next (.next (.append (.next (.enclosed (.escaped _) ?_ ?_) h ?_) hlogs) (.escaped _) ?_)
    (.escaped _) ?_ <;> repeat constructor

theorem isMarkup_origin (origin flavor : Option String) : IsMarkup (Link.origin origin flavor) := by
  have hcatalog : IsMarkup catalogUrl := .literal (by repeat constructor)
  unfold Link.origin
  split
  · exact .inert (by decide)
  · dsimp only
    refine .next (.append ?_ (.escaped _)) ?_ (by repeat constructor)
    · refine .next (.next (.next (.enclosed (.escaped _) ?_ ?_) hcatalog ?_) (.escaped _) ?_)
        (.escaped _) ?_ <;> repeat constructor
    · split
      · exact .append (.literal (by repeat constructor)) (.escaped _)
      · exact .literal (by repeat constructor)

theorem isMarkup_skipped (count : Int) (pkgname : String) : IsMarkup (skipped count pkgname) := by
  unfold skipped
  split
  · exact .inert (by decide)
  · refine .next (.next (.enclosed (.escaped _) ?_ ?_) (.escaped _) ?_) (.number _) ?_ <;>
      repeat constructor

end Link

/-! ## Tables -/

namespace Grid

theorem isMarkup_row {cells : List String} (h : ∀ cell ∈ cells, IsMarkup cell)
    (highlight : Highlight) : IsMarkup (row cells highlight) := by
  have hclass : Inert highlight.cssClass := by cases highlight <;> decide
  have htag : IsMarkup (rowTag highlight) := by
    unfold rowTag
    split
    · exact .literal (by repeat constructor)
    · exact .enclosed (.inert hclass) (by repeat constructor) (by repeat constructor)
  have hcells : IsMarkup (String.join (cells.map cell)) := .join_map fun cell hcell =>
    .enclosed (h cell hcell) (by repeat constructor) (by repeat constructor)
  exact .next htag hcells (by repeat constructor)

theorem isMarkup_render (id : String) (columns : List String)
    {rows : List (List String × Highlight)} (h : ∀ row ∈ rows, ∀ cell ∈ row.1, IsMarkup cell) :
    IsMarkup (render id columns rows) := by
  have hcolumns : IsMarkup (String.join (columns.map headingCell)) := .join_map fun column _ =>
    .enclosed (.escaped column) (by repeat constructor) (by repeat constructor)
  have hopen : IsMarkup ("<table id=\"" ++ escape id ++ "\" class=\"table\"><thead><tr>") :=
    .enclosed (.escaped id) (by repeat constructor) (by repeat constructor)
  refine .next (.next hopen hcolumns (by repeat constructor)) (.join_map fun row hrow => ?_)
    (by repeat constructor)
  exact isMarkup_row (h row hrow) row.2

end Grid

/-! ## The bar -/

namespace Progress

/-- The colours of a bar are those of the palette. -/
theorem color_mem_palette {stats : Stats} {inner limit : Nat}
    {outcomes : List (Category × String)} {filled : Nat} :
    ∀ s ∈ segments stats inner limit outcomes filled, s.color ∈ outcomes.map Prod.snd := by
  induction outcomes generalizing filled with
  | nil => exact List.forall_mem_nil _
  | cons outcome rest ih =>
    obtain ⟨category, color⟩ := outcome
    unfold segments
    dsimp only
    split
    · exact fun s hs => List.mem_cons_of_mem _ (ih s hs)
    · rw [List.forall_mem_cons]
      exact ⟨List.mem_cons_self, fun s hs => List.mem_cons_of_mem _ (ih s hs)⟩

theorem inert_color_of_layout {stats : Stats} {width : Nat} {bar : Bar}
    (h : layout stats width = some bar) : ∀ s ∈ bar.segments, Inert s.color := by
  have hpalette : ∀ color ∈ palette.map Prod.snd, Inert color := by decide +kernel
  unfold layout at h
  split at h
  · cases h
  · obtain rfl := Option.some.inj h
    dsimp only [barFor]
    split
    · exact fun s hs => hpalette _ (color_mem_palette s hs)
    · exact List.forall_mem_nil _

theorem isMarkup_svg {bar : Bar} (h : ∀ s ∈ bar.segments, Inert s.color) : IsMarkup bar.svg := by
  have hsegment : ∀ s ∈ bar.segments, IsMarkup (Bar.segmentSvg s) := by
    intro s hs
    have hcolor : IsMarkup s.color := .inert (h s hs)
    have hname : IsMarkup s.category.name := .inert (by cases s.category <;> decide)
    unfold Bar.segmentSvg Bar.natText
    refine .next (.next (.next (.next (.enclosed hname ?_ ?_) (.number _) ?_) (.number _) ?_)
      (.number _) ?_) hcolor ?_ <;> repeat constructor
  have hsegments : IsMarkup (String.join (bar.segments.map Bar.segmentSvg)) := .join_map hsegment
  have htrack : IsMarkup trackColor := .literal (by repeat constructor)
  have hborder : IsMarkup borderColor := .literal (by repeat constructor)
  unfold Bar.svg Bar.natText
  dsimp only
  -- the track and what is done of it, in a box of its own
  refine .next (.next (.next (.next (.item ?box (.number _) ?_ ?_) (.number _) ?_) htrack ?_)
    hborder ?_) hsegments ?_
  case box =>
    refine .next (.next (.next (.enclosed (.number _) ?_ ?_) (.number _) ?_) (.number _) ?_)
      (.number _) ?_ <;> repeat constructor
  all_goals repeat constructor

/-- A percent label has no markup in it, but for the one that shows what is less than one. -/
theorem percentText_cases (percent : Binary64) :
    Inert (percentText percent) ∨ percentText percent = "< 1%" := by
  unfold percentText
  split
  · exact .inr rfl
  · exact .inl ((inert_append _ _).mpr ⟨inert_decimalText _, by decide⟩)

end Progress

/-! ## Package rows -/

namespace PackageRow

theorem isMarkup_cells {dataUrl : String} (h : IsMarkup dataUrl) (skippedCount : String → Int)
    (c : Category) (e : c.Entry) : ∀ cell ∈ cells dataUrl skippedCount c e, IsMarkup cell := by
  have hname : ∀ p : Package, ∀ cell ∈ nameCells p, IsMarkup cell := fun p => by
    simp [nameCells, IsMarkup.escaped, Link.isMarkup_origin]
  have hduration : ∀ elapsed, IsMarkup (durationCell elapsed) := fun elapsed =>
    .inert (inert_text? _)
  cases c <;> simp only [cells, List.forall_mem_append, List.forall_mem_cons]
  case built =>
    exact ⟨hname _, Link.isMarkup_log h _ _ _, hduration _, List.forall_mem_nil _⟩
  case failed =>
    exact ⟨hname _, .escaped _, Link.isMarkup_skipped _ _, Link.isMarkup_log h _ _ _, hduration _,
      List.forall_mem_nil _⟩
  case skipped => exact ⟨hname _, .escaped _, List.forall_mem_nil _⟩
  case ignored =>
    exact ⟨hname _, Link.isMarkup_skipped _ _, .escaped _, List.forall_mem_nil _⟩
  case fetched => exact hname _
  case remaining => exact ⟨.escaped _, .escaped _, List.forall_mem_nil _⟩
  case queued =>
    refine ⟨hname _, ?_, List.forall_mem_nil _⟩
    split
    · exact .escaped _
    · exact Link.isMarkup_origin _ none

theorem isMarkup_rows {ctx : PageContext} (h : IsMarkup ctx.dataUrl) (r : BuildReport)
    (packages : Packages) (c : Category) (first last : Nat) :
    ∀ row ∈ rows ctx r packages c first last, ∀ cell ∈ row, IsMarkup cell := by
  intro row hrow
  obtain ⟨⟨e, i⟩, -, rfl⟩ := List.mem_map.mp hrow
  rw [List.forall_mem_cons]
  exact ⟨.number _, isMarkup_cells h _ c e⟩

end PackageRow

/-! ## The page of a build -/

namespace BuildPage

theorem isMarkup_titledSection {id body : String} (hid : Inert id) (title : String)
    (hbody : IsMarkup body) : IsMarkup (titledSection id title body) := by
  have hid' : IsMarkup id := .inert hid
  unfold titledSection
  refine .next (.next (.next (.enclosed hid' ?_ ?_) hid' ?_) (.escaped _) ?_) hbody ?_ <;>
    repeat constructor

theorem isMarkup_renderInfo (ctx : PageContext) (status : Option String) (info : BuildInfo) :
    IsMarkup (renderInfo ctx status info) := by
  have hfield : ∀ label value, Inert label → IsMarkup value →
      IsMarkup (infoField (label, value)) := by
    intro label value hlabel hvalue
    refine .next (.enclosed (.inert hlabel) ?_ ?_) hvalue ?_ <;> repeat constructor
  unfold renderInfo
  dsimp only
  refine .enclosed (.join_map ?_) (by repeat constructor) (by repeat constructor)
  simp only [List.forall_mem_append]
  refine ⟨⟨⟨?_, ?_⟩, ?_⟩, ?_⟩
  · simp only [List.forall_mem_cons]
    exact ⟨hfield _ _ (by decide) (Link.isMarkup_master _ _),
      hfield _ _ (by decide) (Link.isMarkup_build _ _ _), hfield _ _ (by decide) (.escaped _),
      hfield _ _ (by decide) (.escaped _), hfield _ _ (by decide) (.escaped _),
      List.forall_mem_nil _⟩
  all_goals
    split
    · rw [List.forall_mem_singleton]
      exact hfield _ _ (by decide) (.escaped _)
    · exact List.forall_mem_nil _

theorem isMarkup_renderSnap (panel : SnapPanel) : IsMarkup (renderSnap panel) := by
  have helapsed : IsMarkup (Duration.between panel.snap.stats.elapsed none) :=
    .inert (inert_between _ _)
  have hrate : ∀ rate, IsMarkup (Rate.text rate) := fun rate => .inert (inert_rateText rate)
  unfold renderSnap
  refine .next (.next (.next (.item (.append (.literal ?_) (.literal ?_)) helapsed ?_ ?_) (hrate _)
    ?_) (.escaped _) ?_) (hrate _) ?_ <;> repeat constructor

theorem isMarkup_counterCell (stats : Stats) (c : Category) : IsMarkup (counterCell stats c) := by
  have hname : IsMarkup c.name := .inert (by cases c <;> decide)
  unfold counterCell
  refine .next (.enclosed hname ?_ ?_) (.number _) ?_ <;> repeat constructor

theorem isMarkup_renderBuilders {ctx : PageContext} (hdata : IsMarkup ctx.dataUrl)
    {builders : KeyedTable BuilderRow} (h : ∀ e ∈ builders.entries, Inert e.row.elapsed) :
    IsMarkup (renderBuilders ctx builders) := by
  unfold renderBuilders
  split
  · refine isMarkup_titledSection (by decide) _ (Grid.isMarkup_render _ _ ?_)
    rw [List.forall_mem_map]
    intro e he
    have hstatus : IsMarkup (e.row.statusCell ctx.dataUrl) := by
      unfold BuilderRow.statusCell
      split
      · exact Link.isMarkup_log hdata _ _ _
      · exact .escaped _
    simp only [BuilderRow.cells, List.forall_mem_cons]
    exact ⟨.escaped _, .escaped _, Link.isMarkup_origin _ _, hstatus, .inert (h e he),
      List.forall_mem_nil _⟩
  · exact .inert (by decide)

theorem isMarkup_renderTable {tables : PerCategory (Option Listing)} {c : Category}
    (h : ∀ table, tables.get c = some table → ∀ row ∈ table.rows, ∀ cell ∈ row, IsMarkup cell) :
    IsMarkup (renderTable tables c) := by
  unfold renderTable
  split
  · next table htable =>
    split
    · refine isMarkup_titledSection (by cases c <;> decide) _ (Grid.isMarkup_render _ _ ?_)
      rw [Listing.marked, List.forall_mem_map]
      exact fun place hplace => h table htable _ (List.fst_mem_of_mem_zipIdx hplace)
    · exact .inert (by decide)
  · exact .inert (by decide)

/-- The percent label as it is shown, with the counters. -/
def percentLabel (p : BuildPage) : String :=
  match p.stats with
  | some _ => (p.percent.map Progress.percentText).getD ""
  | none => ""

theorem around_renderPercent (percent : Option Binary64) :
    MarkupAround ((percent.map Progress.percentText).getD "") (renderPercent percent) := by
  cases percent with
  | none => exact .of_isMarkup (.inert (by decide))
  | some percent =>
    exact ⟨_, _, rfl, .literal (by repeat constructor), .literal (by repeat constructor)⟩

theorem around_renderStats {p : BuildPage} (stats : Stats)
    (h : ∀ bar, p.bar = some bar → ∀ s ∈ bar.segments, Inert s.color) :
    MarkupAround ((p.percent.map Progress.percentText).getD "") (renderStats p stats) := by
  have hbar : IsMarkup (renderBar p.bar) := by
    unfold renderBar
    split
    · next bar hbar => exact Progress.isMarkup_svg (h bar hbar)
    · exact .inert (by decide)
  have hlabels : IsMarkup (String.join ((counterColumns ++ ["Elapsed"]).map fun label =>
      "<th>" ++ label ++ "</th>")) := by
    have hinert : ∀ label ∈ counterColumns ++ ["Elapsed"], Inert label := by decide +kernel
    exact .join_map fun label hlabel =>
      .enclosed (.inert (hinert label hlabel)) (by repeat constructor) (by repeat constructor)
  have hcounters : IsMarkup (String.join (counterOrder.map (counterCell stats))) :=
    .join_map fun c _ => isMarkup_counterCell stats c
  have helapsed : IsMarkup (Duration.between stats.elapsed none) := .inert (inert_between _ _)
  unfold renderStats
  refine .append (.next (.next (.next (.append (.append ?label (.literal ?_)) (.literal ?_))
    hlabels ?_) hcounters ?_) helapsed ?_) ?panel
  case label =>
    exact .prepend (.append (.literal (by repeat constructor)) hbar) (around_renderPercent _)
  case panel =>
    split
    · exact isMarkup_renderSnap _
    · exact .inert (by decide)
  all_goals repeat constructor

theorem around_render {ctx : PageContext} (hdata : IsMarkup ctx.dataUrl) {p : BuildPage}
    (hbar : ∀ bar, p.bar = some bar → ∀ s ∈ bar.segments, Inert s.color)
    (hbuilders : ∀ e ∈ p.builders.entries, Inert e.row.elapsed)
    (htables : ∀ c table, p.tables.get c = some table →
      ∀ row ∈ table.rows, ∀ cell ∈ row, IsMarkup cell) :
    MarkupAround p.percentLabel (p.render ctx) := by
  unfold render percentLabel
  refine .append (.append (.prepend ?_ ?_) (isMarkup_renderBuilders hdata hbuilders))
    (.join_map fun c _ => isMarkup_renderTable (htables c))
  · split
    · exact isMarkup_renderInfo _ _ _
    · exact .inert (by decide)
  · cases p.stats with
    | some stats => exact around_renderStats stats hbar
    | none => exact .of_isMarkup (s := "") (.inert (by decide))

end BuildPage

/-! ## The page of a history -/

namespace HistoryPage

theorem isMarkup_renderLatest (ctx : PageContext) (latest : LatestInfo) :
    IsMarkup (renderLatest ctx latest) := by
  have hmaster := Link.isMarkup_master ctx latest.mastername
  have hbuild := Link.isMarkup_build ctx latest.mastername latest.buildname
  have hmasterinfo : IsMarkup "<div id=\"masterinfo_div\"><dl class=\"dl-horizontal\">" :=
    .literal (by repeat constructor)
  unfold renderLatest
  refine .append (.next (.item (.item (.item (.item (.item (.item hmasterinfo hmaster ?_ ?_)
    (.escaped latest.status) ?_ ?_) (.escaped latest.jailname) ?_ ?_)
    (.escaped latest.setname) ?_ ?_) (.escaped latest.ptname) ?_ ?_)
    (.escaped _) ?_ ?_) hbuild ?_) (.literal ?_) <;> repeat constructor

theorem isMarkup_render (ctx : PageContext) {p : HistoryPage}
    (h : ∀ e ∈ p.builds.entries, Inert e.row.elapsed) : IsMarkup (p.render ctx) := by
  unfold render
  refine .append ?_ ?_
  · split
    · exact isMarkup_renderLatest ctx _
    · exact .inert (by decide)
  unfold renderBuilds
  split
  · refine .enclosed (Grid.isMarkup_render _ _ ?_) (by repeat constructor) (by repeat constructor)
    rw [List.forall_mem_map]
    intro e he
    simp only [BuildRow.cells, List.forall_mem_append, List.forall_mem_cons, List.forall_mem_map]
    exact ⟨⟨⟨Link.isMarkup_build _ _ _, List.forall_mem_nil _⟩, fun n _ => .number n⟩,
      .escaped _, .inert (h e he), List.forall_mem_nil _⟩
  · exact .inert (by decide)

end HistoryPage

/-! ## The overview -/

namespace OverviewPage

/-- What holds of each key and of each element holds of the groups that they make. -/
theorem forall_groupsOf {α : Type} {P : String → Prop} {Q : α → Prop} {key : α → String}
    {as : List α} (h : ∀ a ∈ as, P (key a) ∧ Q a) :
    ∀ group ∈ groupsOf key as, P group.1 ∧ ∀ a ∈ group.2, Q a := by
  have hinsert : ∀ (a : α) (groups : List (String × List α)), P (key a) → Q a →
      (∀ group ∈ groups, P group.1 ∧ ∀ a ∈ group.2, Q a) →
      ∀ group ∈ insertGroup (key a) a groups, P group.1 ∧ ∀ a ∈ group.2, Q a := by
    intro a groups hkey ha hgroups
    have hnew : P (key a) ∧ ∀ x ∈ [a], Q x := ⟨hkey, List.forall_mem_singleton.mpr ha⟩
    induction groups with
    | nil => exact List.forall_mem_singleton.mpr hnew
    | cons group rest ih =>
      obtain ⟨hgroup, hrest⟩ := List.forall_mem_cons.mp hgroups
      unfold insertGroup
      split
      · exact List.forall_mem_cons.mpr ⟨hnew, hgroups⟩
      · split
        · refine List.forall_mem_cons.mpr ⟨⟨hgroup.1, ?_⟩, hrest⟩
          exact List.forall_mem_append.mpr ⟨hgroup.2, hnew.2⟩
        · exact List.forall_mem_cons.mpr ⟨hgroup, ih hrest⟩
  induction as using List.reverseRecOn with
  | nil => exact List.forall_mem_nil _
  | append_singleton as a ih =>
    obtain ⟨has, ha⟩ := List.forall_mem_append.mp h
    obtain ⟨hkey, hlast⟩ := List.forall_mem_singleton.mp ha
    unfold groupsOf
    rw [List.foldl_append]
    exact hinsert a _ hkey hlast (ih has)

theorem inert_heading (m : MasterRow) : Inert m.heading := by
  unfold MasterRow.heading treeAndSet
  split <;> exact inert_escape _

theorem isMarkup_render (ctx : PageContext) {p : OverviewPage}
    (h : ∀ e ∈ p.masters.entries, Inert e.row.elapsed) : IsMarkup (p.render ctx) := by
  have hgroups : ∀ group ∈ p.groups, Inert group.1 ∧ ∀ e ∈ group.2, Inert e.row.elapsed :=
    forall_groupsOf fun e he => ⟨inert_heading e.row, h e he⟩
  unfold render
  split
  · refine .enclosed (.join_map fun place hplace => ?_) (by repeat constructor)
      (by repeat constructor)
    obtain ⟨hheading, helapsed⟩ := hgroups _ (List.fst_mem_of_mem_zipIdx hplace)
    refine .append (.enclosed (.inert hheading) (by repeat constructor) (by repeat constructor))
      (Grid.isMarkup_render _ _ ?_)
    rw [List.forall_mem_map]
    intro e he
    simp only [MasterRow.cells, List.forall_mem_append, List.forall_mem_cons, List.forall_mem_map]
    exact ⟨⟨⟨Link.isMarkup_master _ _, Link.isMarkup_build _ _ _, .escaped _, List.forall_mem_nil _⟩,
      fun n _ => .number n⟩, .escaped _, .inert (helapsed e he), List.forall_mem_nil _⟩
  · exact .inert (by decide)

end OverviewPage

end BuildBoard
