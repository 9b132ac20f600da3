import BuildBoard.Proofs.OneBuild
import BuildBoard.Proofs.Page.Drawn

/-!
# Rows under their headings

Headings and cells are written apart from each other. A row of a package table is written when its
report is taken over and kept as it is; the other rows are written when the page is drawn, from what
the reports gave. In all tables a row has one cell for each heading.

Results:
1. `exists_row?_of_shows`: every row of a package table was written with its number.
2. `exists_report_of_shows`: every row of a keyed table came with a report.
3. `Report.Lists.counters`: the cells of a build under the headings of its counters.
4. `rows_match_headings`: the tables of a page after any run.
-/

namespace BuildBoard

/-! ## Definitions -/

/-- A counter of a build, zero if it has none. -/
def BuildSummary.counter (b : BuildSummary) (c : Category) : Int :=
  (b.stats.map (·.count c)).getD 0

/-- What is left of the queued packages when those with a result are taken away. -/
def BuildSummary.unfinished (b : BuildSummary) : Int :=
  b.counter .queued - b.counter .built - b.counter .failed - b.counter .skipped -
    b.counter .ignored - b.counter .fetched

/-- A report gives a build a row with these cells. -/
inductive Report.Lists (ctx : PageContext) : Report → List String → BuildSummary → Prop
  | build {r : HistoryReport} {name : String} {b : BuildSummary} :
      (name, b) ∈ r.builds →
      Lists ctx (.history r) ((BuildRow.ofSummary r.mastername (name, b)).cells ctx) b
  | master {r : OverviewReport} {key : String} {b : BuildSummary} :
      (key, some b) ∈ r.masters →
      Lists ctx (.overview r) ((MasterRow.ofSummary key b).cells ctx) b

/-! ## Package tables -/

namespace PackageTables

variable {c : Category}

/-- An entry is written in the columns of its category that follow the number. -/
theorem length_cells (dataUrl : String) (skippedCount : String → Int) (e : c.Entry) :
    (PackageRow.cells dataUrl skippedCount c e).length + 1 = c.columns.length := by
  cases c <;> simp [PackageRow.cells, PackageRow.nameCells, Category.columns]

theorem head?_of_row? {a : Arrival} {k : Nat} {row : List String} (h : a.row? c k = some row) :
    row.head? = some (decimalText (k + 1 : Nat)) ∧ row.length = c.columns.length := by
  obtain ⟨packages, -, hrow⟩ := Option.bind_eq_some_iff.mp h
  obtain ⟨e, -, rfl⟩ := Option.map_eq_some_iff.mp hrow
  exact ⟨rfl, length_cells _ _ e⟩

end PackageTables

namespace PageState

variable {reports : List Report} {state : PageState} {c : Category} {l : Listing}

/-- The rows of a table that is written anew are those of one report, each with its number. -/
theorem exists_row?_of_replaced (h : Shows reports state) (hc : c.isAppendOnly = false) :
    ∀ l, state.listing? c = some l → ∀ k row, l.rows[k]? = some row →
      ∃ a : Arrival, a.row? c k = some row := by
  refine h.forall_listing fun p a hold l hl => ?_
  cases hpackages : a.report.packages with
  | none =>
    obtain ⟨htable, -⟩ := Prod.mk.inj (PackageTables.slot_update_of_none (c := c) p hpackages)
    exact hold l (htable.symm.trans hl)
  | some packages =>
    obtain ⟨htable, -⟩ := Prod.mk.inj (PackageTables.replaced_update hc p hpackages)
    obtain rfl := Option.some.inj (htable.symm.trans hl)
    intro k row hrow
    refine ⟨a, ?_⟩
    rw [← Nat.zero_add k, ← PackageTables.rows_getElem? hpackages, ← hrow]
    rfl

/-- A row of a package table was written for the position that it has, whatever came before it. -/
theorem exists_row?_of_shows (h : Shows reports state) (hl : state.listing? c = some l) {k : Nat}
    {row : List String} (hrow : l.rows[k]? = some row) : ∃ a : Arrival, a.row? c k = some row := by
  cases hc : c.isAppendOnly with
  | false => exact exists_row?_of_replaced h hc l hl k row hrow
  | true =>
    cases state with
    | build p =>
      obtain ⟨as, -, hmade⟩ := BuildPage.madeBy_of_shows h rfl
      have htable : p.tables.get c = some l := hl
      obtain ⟨a, -, hwritten⟩ := hmade.exists_source hc
        (show (PackageTables.rowsOf (p.tables.get c))[k]? = some row by rw [htable]; exact hrow)
      exact ⟨a, hwritten⟩
    | history p => cases hl
    | overview p => cases hl

/-! ## Keyed tables -/

/-- Every row of a keyed table came with a report that the page has taken over. -/
theorem exists_report_of_shows (h : Shows reports state) {kind : PageKind}
    {t : KeyedTable kind.Row} (ht : state.keyed? kind = some t) :
    ∀ e ∈ t.entries, ∃ report ∈ reports, ∃ wallClock rows,
      report.rows? wallClock kind = some rows ∧ e.row ∈ rows := by
  refine h.keyed_of_polls (P := fun reports kind t => ∀ e ∈ t.entries, ∃ report ∈ reports,
    ∃ wallClock rows, report.rows? wallClock kind = some rows ∧ e.row ∈ rows)
    (fun _ => List.forall_mem_nil _) (fun reports report wallClock t hold => ?_) ht
  have hkept : ∀ e ∈ t.entries, ∃ old ∈ reports ++ [report], ∃ wallClock rows,
      old.rows? wallClock report.kind = some rows ∧ e.row ∈ rows := by
    intro e he
    obtain ⟨old, hmem, hsource⟩ := hold e he
    exact ⟨old, List.mem_append_left _ hmem, hsource⟩
  cases hrows : report.rows? wallClock report.kind with
  | none => exact hkept
  | some rows =>
    have hlast : report ∈ reports ++ [report] := List.mem_append_right _ List.mem_cons_self
    exact KeyedTable.forall_row_update
      (P := fun row => ∃ old ∈ reports ++ [report], ∃ wallClock rows,
        old.rows? wallClock report.kind = some rows ∧ row ∈ rows) hkept
      fun row hrow => ⟨report, hlast, wallClock, rows, hrows, hrow⟩

end PageState

/-! ## Counters -/

theorem word_word_sub (m n : Int) : word (word m - n) = word (m - n) := Int.bmod_sub_bmod

/-- What remains is taken from the queued packages in words, one outcome after the other; that is the
word of the whole difference. -/
theorem BuildSummary.counter_remaining (b : BuildSummary) :
    b.counter .remaining = word b.unfinished := by
  unfold unfinished counter
  cases b.stats with
  | none => rfl
  | some s =>
    simp only [Option.map_some, Option.getD_some, Stats.count, Stats.remaining, Stats.outcomes,
      List.foldl_cons, List.foldl_nil, word_word_sub]

/-- Headings and cells of the counters come in one order of the categories. -/
theorem counterColumns_eq_map : counterColumns = BuildPage.counterOrder.map Category.heading := rfl

theorem counterCells_eq_map (b : BuildSummary) :
    counterCells b.stats = BuildPage.counterOrder.map b.counter := by
  unfold BuildSummary.counter
  cases b.stats <;> simp [counterCells, BuildPage.counterOrder, Stats.count]

namespace Grid

variable {heading : String} {columns cells : List String}

theorem cellUnder?_append (h : columns.length = cells.length) (columns' cells' : List String) :
    cellUnder? (columns ++ columns') heading (cells ++ cells') =
      (cellUnder? columns heading cells).or (cellUnder? columns' heading cells') := by
  rw [cellUnder?, List.zip_append h, List.lookup_append]
  rfl

theorem cellUnder?_of_notMem (h : heading ∉ columns) : cellUnder? columns heading cells = none := by
  refine List.lookup_eq_none_iff.mpr fun place hplace => bne_iff_ne.mpr fun heq => h ?_
  exact heq ▸ (List.of_mem_zip hplace).1

theorem cellUnder?_counterColumns (b : BuildSummary) (c : Category) :
    cellUnder? counterColumns c.heading ((counterCells b.stats).map decimalText) =
      some (decimalText (b.counter c)) := by
  have hnodup : (BuildPage.counterOrder.map Category.heading).Nodup := by decide
  have hmem : c ∈ BuildPage.counterOrder := by cases c <;> decide
  rw [cellUnder?, counterCells_eq_map, counterColumns_eq_map, List.map_map, List.zip_map']
  refine (HistoryReport.mem_iff_lookup_of_nodup ?_).mp (List.mem_map.mpr ⟨c, hmem, rfl⟩)
  rw [List.map_map]
  exact hnodup

/-- The counters are under their headings, if their cells come after as many cells as there are other
headings before. -/
theorem cellUnder?_counters (b : BuildSummary) (c : Category)
    (hlength : columns.length = cells.length) (hother : c.heading ∉ columns)
    (columns' cells' : List String) :
    cellUnder? (columns ++ counterColumns ++ columns') c.heading
        (cells ++ (counterCells b.stats).map decimalText ++ cells') =
      some (decimalText (b.counter c)) := by
  have hlength' : (columns ++ counterColumns).length =
      (cells ++ (counterCells b.stats).map decimalText).length := by
    rw [List.length_append, List.length_append, List.length_map, length_counterCells, hlength]
  rw [cellUnder?_append hlength', cellUnder?_append hlength, cellUnder?_of_notMem hother,
    Option.none_or, cellUnder?_counterColumns, Option.some_or]

end Grid

namespace Report

variable {ctx : PageContext} {report : Report} {cells : List String} {b : BuildSummary}

/-- On the page of a history or an overview, rows are those of builds that a report lists. -/
theorem exists_lists (ctx : PageContext) {wallClock : Int} {kind : PageKind} (hkind : kind ≠ .build)
    {rows : List kind.Row} (hrows : report.rows? wallClock kind = some rows) {row : kind.Row}
    (hrow : row ∈ rows) : ∃ b, report.Lists ctx (kind.cells ctx row) b := by
  cases kind with
  | build => exact absurd rfl hkind
  | jail =>
    cases report with
    | history r =>
      obtain rfl := Option.some.inj hrows
      obtain ⟨⟨name, b⟩, hb, rfl⟩ := List.mem_map.mp hrow
      exact ⟨b, .build hb⟩
    | build r => cases hrows
    | overview r => cases hrows
  | index =>
    cases report with
    | overview r =>
      obtain rfl := Option.some.inj hrows
      obtain ⟨⟨key, latest⟩, hb, hlatest⟩ := List.mem_filterMap.mp hrow
      obtain ⟨b, rfl, rfl⟩ := Option.map_eq_some_iff.mp hlatest
      exact ⟨b, .master hb⟩
    | build r => cases hrows
    | history r => cases hrows

theorem Lists.length (h : report.Lists ctx cells b) :
    cells.length = (report.kind.columns .keyed).length := by
  cases h with
  | build hb =>
    simp [BuildRow.cells, BuildRow.ofSummary, length_counterCells, Report.kind, PageKind.columns,
      BuildRow.columns]
  | master hb =>
    simp [MasterRow.cells, MasterRow.ofSummary, length_counterCells, Report.kind, PageKind.columns,
      MasterRow.columns]

theorem Lists.counters (h : report.Lists ctx cells b) (c : Category) :
    Grid.cellUnder? (report.kind.columns .keyed) c.heading cells =
      some (decimalText (b.counter c)) := by
  cases h with
  | build hb =>
    have hother : c.heading ∉ ["Build"] := by cases c <;> decide
    exact Grid.cellUnder?_counters b c (by rfl) hother _ _
  | master hb =>
    have hother : c.heading ∉ ["Master", "Build", "Jail"] := by cases c <;> decide
    exact Grid.cellUnder?_counters b c (by rfl) hother _ _

end Report

/-! ## Tables as they are drawn -/

namespace PageState

variable {ctx : PageContext} {state : PageState} {reports : List Report} {t : DrawnTable}

theorem Draws.columns_eq (h : state.Draws ctx t) : t.columns = state.kind.columns t.name := by
  cases h with
  | keyed kind id hkeyed =>
    obtain ⟨hkind, -⟩ := of_keyed? hkeyed
    rw [hkind]
    rfl
  | packages => cases state <;> rfl

theorem Draws.numbered (h : state.Draws ctx t) (hshows : Shows reports state) {c : Category}
    (hname : t.name = .packages c) {i : Nat} {row : List String × Highlight}
    (hrow : t.rows[i]? = some row) :
    row.1.head? = some (decimalText (i + 1 : Nat)) ∧ row.1.length = t.columns.length := by
  cases h with
  | keyed => cases hname
  | @packages c' l hl =>
    obtain rfl := TableName.packages.inj hname
    rw [DrawnTable.ofListing, Listing.getElem?_marked] at hrow
    obtain ⟨cells, hcells, rfl⟩ := Option.map_eq_some_iff.mp hrow
    obtain ⟨a, hwritten⟩ := exists_row?_of_shows hshows hl hcells
    exact PackageTables.head?_of_row? hwritten

theorem Draws.listed (h : state.Draws ctx t) (hshows : Shows reports state)
    (hkind : state.kind ≠ .build) {row : List String × Highlight} (hrow : row ∈ t.rows) :
    ∃ report ∈ reports, ∃ b,
      report.Lists ctx row.1 b ∧ report.kind.columns .keyed = t.columns := by
  cases h with
  | packages hl =>
    rw [listing?_of_kind_ne hkind] at hl
    cases hl
  | keyed kind id hkeyed hentries =>
    obtain ⟨hkindEq, -⟩ := of_keyed? hkeyed
    obtain ⟨e, he, rfl⟩ := List.mem_map.mp hrow
    obtain ⟨report, hreport, wallClock, rows, hrows, hmem⟩ :=
      exists_report_of_shows hshows hkeyed e (hentries e he)
    obtain ⟨b, hb⟩ := Report.exists_lists ctx (hkindEq ▸ hkind) hrows hmem
    refine ⟨report, hreport, b, hb, ?_⟩
    rw [hshows.kind_eq report hreport, hkindEq]
    rfl

/-- A row of builders has a cell for each heading, whatever the row is. -/
theorem Draws.length_builders (h : state.Draws ctx t) (hkind : state.kind = .build)
    (hname : t.name = .keyed) {row : List String × Highlight} (hrow : row ∈ t.rows) :
    row.1.length = t.columns.length := by
  cases h with
  | packages => cases hname
  | keyed kind id hkeyed hentries =>
    obtain ⟨hkindEq, -⟩ := of_keyed? hkeyed
    obtain rfl := hkind.symm.trans hkindEq
    obtain ⟨e, he, rfl⟩ := List.mem_map.mp hrow
    rfl

end PageState

open Dashboard

/-- The tables of a page after any run. The page is its parts, and each table among them has the
headings of its kind and rows with one cell for each heading. The rows of a package table begin with
their numbers. In the tables of a history or an overview, each row is that of a build that a report
listed, and under the headings of the counters it has the counters of that build. What remains of a
build's packages are the queued ones without those that have a result. -/
theorem rows_match_headings (ctx : PageContext) (settings : DashboardSettings) (es : List Event) :
    let d := (new ctx settings).after es
    d.render = String.join ((d.state.parts d.ctx).map PagePart.markup) ∧
    (∀ t ∈ d.state.drawn d.ctx,
      t.columns = d.state.kind.columns t.name ∧
      (∀ row ∈ t.rows, row.1.length = t.columns.length) ∧
      (∀ c, t.name = .packages c → ∀ i row, t.rows[i]? = some row →
        row.1.head? = some (decimalText (i + 1 : Nat))) ∧
      (d.state.kind ≠ .build → ∀ row ∈ t.rows, ∃ report ∈ shown es, ∃ b,
        report.Lists d.ctx row.1 b ∧
        ∀ c, Grid.cellUnder? t.columns c.heading row.1 = some (decimalText (b.counter c)))) ∧
    ∀ b : BuildSummary, b.counter .remaining = word b.unfinished ∧
      (FitsWord b.unfinished → b.counter .remaining = b.unfinished) := by
  intro d
  have hshows : d.state.Shows (shown es) := shows_after ctx settings es
  refine ⟨d.state.render_eq_join d.ctx, fun t ht => ?_, fun b => ?_⟩
  · have hdraws := PageState.draws_of_mem_drawn ht
    refine ⟨hdraws.columns_eq, fun row hrow => ?_, fun c hname i row hrow =>
      (hdraws.numbered hshows hname hrow).1, fun hkind row hrow => ?_⟩
    · cases hname : t.name with
      | packages c =>
        obtain ⟨i, hrow⟩ := List.mem_iff_getElem?.mp hrow
        exact (hdraws.numbered hshows hname hrow).2
      | keyed =>
        by_cases hkind : d.state.kind = .build
        · exact hdraws.length_builders hkind hname hrow
        · obtain ⟨report, -, b, hb, hcolumns⟩ := hdraws.listed hshows hkind hrow
          rw [hb.length, hcolumns]
    · obtain ⟨report, hreport, b, hb, hcolumns⟩ := hdraws.listed hshows hkind hrow
      exact ⟨report, hreport, b, hb, fun c => hcolumns ▸ hb.counters c⟩
  · exact ⟨b.counter_remaining, fun h => b.counter_remaining.trans ((word_eq_self_iff _).mpr h)⟩

/-- Two packages on the page of a build, and a build in a history that tells its failures as text. -/
theorem headings_of_two_pages :
    let packages : List Event := [.document (documentOf "b1" ["a-1", "a-2"]) 0]
    let stats : Document := .object [("built", .int 4), ("failed", .text "1"), ("queued", .int 10)]
    let builds : List Event :=
      [.document (.object [("builds", .object [("b1", .object [("stats", stats)])])]) 0]
    let page := latestAfter packages
    let jail :=
      (new (PageContext.new .jail .hosted (some "m") none) ⟨100, 1, 0, 1, none⟩).after builds
    let b : BuildSummary := ⟨"", "", "", "", "", none, some ⟨10, 4, 1, 0, 0, 0, none⟩, none⟩
    (∃ t ∈ page.state.drawn page.ctx, t.name = .packages .built ∧ ∃ row, t.rows[1]? = some row ∧
      row.1.length = 5 ∧ row.1.head? = some "2") ∧
    (∃ t ∈ jail.state.drawn jail.ctx, jail.state.kind ≠ .build ∧ ∃ row ∈ t.rows,
      row.1.length = 10 ∧ ∃ report ∈ shown builds, ∃ listed, report.Lists jail.ctx row.1 listed ∧
        decimalText (listed.counter .remaining) = "5") ∧
    FitsWord b.unfinished ∧ b.counter .remaining = 5 := by
  intro packages stats builds page jail b
  obtain ⟨-, hpage, hremaining⟩ := rows_match_headings
    (PageContext.new .build .hosted (some "m") (some "latest")) ⟨100, 1, 0, 1, none⟩ packages
  obtain ⟨-, hjail, -⟩ := rows_match_headings
    (PageContext.new .jail .hosted (some "m") none) ⟨100, 1, 0, 1, none⟩ builds
  refine ⟨?_, ?_, by decide, (hremaining b).2 (by decide)⟩
  · obtain ⟨t, ht, hname, hlength, hfive⟩ : ∃ t ∈ page.state.drawn page.ctx,
        t.name = .packages .built ∧ 1 < t.rows.length ∧ t.columns.length = 5 := by decide +kernel
    obtain ⟨-, hrows, hnumbers, -⟩ := hpage t ht
    have hrow : t.rows[1]? = some t.rows[1] := List.getElem?_eq_getElem hlength
    have hwidth := hrows _ (List.getElem_mem hlength)
    exact ⟨t, ht, hname, t.rows[1], hrow, hwidth.trans hfive, hnumbers .built hname 1 _ hrow⟩
  · have hkind : jail.state.kind ≠ .build := by decide +kernel
    obtain ⟨t, ht, hten, row, hrow, hfive⟩ : ∃ t ∈ jail.state.drawn jail.ctx,
        t.columns.length = 10 ∧ ∃ row ∈ t.rows,
          Grid.cellUnder? t.columns "Remaining" row.1 = some "5" := by decide +kernel
    obtain ⟨-, hrows, -, hlisted⟩ := hjail t ht
    obtain ⟨report, hreport, listed, hlists, hcells⟩ := hlisted hkind row hrow
    refine ⟨t, ht, hkind, row, hrow, (hrows row hrow).trans hten, report, hreport, listed, hlists, ?_⟩
    exact Option.some.inj ((hcells .remaining).symm.trans hfive)

end BuildBoard
