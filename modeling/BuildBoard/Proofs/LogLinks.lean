import BuildBoard.Proofs.Dashboard.Step
import BuildBoard.Proofs.PackageTables
import BuildBoard.Proofs.Text.Inert

/-!
# Links to logs

A log lies below the data directory. The status of a builder is written when the page is drawn, so
its link leads below the directory of that moment. A row of a package table is written when its
report is taken over and kept as it is. That is the same directory but for the report of a turn,
which is taken over before the directory moves: its rows lead below the directory that was left.

Results:
1. `leadsBelow_log`: a link to a log leads below the data directory that it is made with.
2. `RowsLead.concat`: what a report adds leads below the directory of its moment.
3. `log_links`: where the log links of a page lead after any run that ends in a build's report.
4. `log_link_left_behind`: a row that leads below the directory that was left.
-/

namespace BuildBoard

/-! ## Definitions -/

/-- The markup of a log link from its address on: its title ends at the first quote. -/
def Link.fromAddress? (markup : String) : Option (List Char) :=
  ("<a target=\"logs\" title=\"Log for ".toList.isPrefixOf? markup.toList).bind fun rest =>
    "\" href=\"".toList.isPrefixOf? (rest.dropWhile (· != '"'))

/-- The address of a log link starts with the logs of this data directory. -/
def Link.leadsBelow (dataUrl markup : String) : Bool :=
  (fromAddress? markup).any (dataUrl ++ "logs/").toList.isPrefixOf

/-- The cell of a row under a heading. -/
def Grid.cellUnder? (columns : List String) (heading : String) (cells : List String) :
    Option String := (columns.zip cells).lookup heading

/-- The length of a category's list, zero for a report without packages. -/
def BuildReport.listLength (r : BuildReport) (c : Category) : Nat :=
  (r.packages.map (·.length c)).getD 0

open PackageTables

/-- The rows of a category's table, none on a page that is not of a build. -/
def PageState.packageRows (c : Category) : PageState → List (List String)
  | .build p => rowsOf (p.tables.get c)
  | _ => []

namespace Dashboard

/-- The data directory that a row was written in: that of the run's end, but for the rows that came
with the report of the last turn. -/
def writtenIn (d : Dashboard) (es : List Event) (c : Category) (i : Nat) : String :=
  match d.lastTurn? es with
  | some (before, .build r) =>
    if i < r.listLength c then before.ctx.dataUrl else (d.after es).ctx.dataUrl
  | _ => (d.after es).ctx.dataUrl

/-- The log link of every row leads below the directory that the row was written in. -/
structure RowsLead (d : Dashboard) (es : List Event) : Prop where
  leads : ∀ c, "Log" ∈ c.columns → ∀ i row, ((d.after es).state.packageRows c)[i]? = some row →
    (Grid.cellUnder? c.columns "Log" row).any (Link.leadsBelow (d.writtenIn es c i))
  /-- The rows of the last turn are there. -/
  turned : ∀ before r, d.lastTurn? es = some (before, .build r) →
    ∀ c, "Log" ∈ c.columns → r.listLength c ≤ ((d.after es).state.packageRows c).length

end Dashboard

/-! ## One link -/

theorem isPrefixOf?_append (s t : List Char) : s.isPrefixOf? (s ++ t) = some t := by
  induction s with
  | nil => rfl
  | cons c s ih => simp only [List.cons_append, List.isPrefixOf?, beq_self_eq_true, if_true, ih]

/-- A title without quotes ends where the address begins. -/
theorem Link.fromAddress?_append {title : String} (h : Html.Inert title) (address : String) :
    fromAddress? ("<a target=\"logs\" title=\"Log for " ++ title ++ "\" href=\"" ++ address) =
      some address.toList := by
  have hquote : ∀ c ∈ title.toList, (c != '"') = true := by
    intro c hc
    rw [bne_iff_ne]
    rintro rfl
    exact h _ hc (by decide)
  simp only [fromAddress?, String.toList_append, List.append_assoc, isPrefixOf?_append,
    Option.bind_some]
  rw [List.dropWhile_append_of_pos hquote]
  exact isPrefixOf?_append "\" href=\"".toList address.toList

theorem Link.leadsBelow_log (dataUrl pkgname : String) (errors : Bool) (text : String) :
    leadsBelow dataUrl (log dataUrl pkgname errors text) := by
  let rest := (if errors then "errors/" else "") ++ Html.escape pkgname ++
    ".log\"><span class=\"glyphicon glyphicon-file\"></span>" ++ Html.escape text ++ "</a>"
  have hlog : log dataUrl pkgname errors text =
      "<a target=\"logs\" title=\"Log for " ++ Html.escape pkgname ++ "\" href=\"" ++
        (dataUrl ++ "logs/" ++ rest) := by
    unfold log
    simp only [rest, ← String.append_assoc]
  have hbelow : (dataUrl ++ "logs/").toList <+: (dataUrl ++ "logs/" ++ rest).toList := by
    rw [String.toList_append (s := dataUrl ++ "logs/")]
    exact List.prefix_append _ _
  rw [leadsBelow, hlog, fromAddress?_append (Html.inert_escape pkgname), Option.any_some]
  exact List.isPrefixOf_iff_prefix.mpr hbelow

theorem leadsBelow_cells {c : Category} (h : "Log" ∈ c.columns) (dataUrl number : String)
    (skippedCount : String → Int) (e : c.Entry) :
    (Grid.cellUnder? c.columns "Log" (number :: PackageRow.cells dataUrl skippedCount c e)).any
      (Link.leadsBelow dataUrl) := by
  cases c with
  | built =>
    simp [Grid.cellUnder?, Category.columns, PackageRow.cells, PackageRow.nameCells,
      List.lookup_cons, Link.leadsBelow_log]
  | failed =>
    simp [Grid.cellUnder?, Category.columns, PackageRow.cells, PackageRow.nameCells,
      List.lookup_cons, Link.leadsBelow_log]
  | _ => simp [Category.columns] at h

theorem leadsBelow_statusCell {b : BuilderRow} {pkgname : String} (h : b.pkgname = some pkgname)
    (ctx : PageContext) :
    (Grid.cellUnder? BuilderRow.columns "Status" (b.cells ctx)).any
      (Link.leadsBelow ctx.dataUrl) := by
  simp [Grid.cellUnder?, BuilderRow.columns, BuilderRow.cells, BuilderRow.statusCell, h,
    List.lookup_cons, Link.leadsBelow_log]

/-! ## The rows that a report adds -/

theorem appendOnly_of_log {c : Category} (h : "Log" ∈ c.columns) : c.isAppendOnly := by
  cases c with
  | remaining => simp [Category.columns] at h
  | _ => rfl

theorem leadsBelow_rows {c : Category} (hc : "Log" ∈ c.columns) {ctx : PageContext}
    {r : BuildReport} {packages : Packages} {first last : Nat} {row : List String}
    (h : row ∈ PackageRow.rows ctx r packages c first last) :
    (Grid.cellUnder? c.columns "Log" row).any (Link.leadsBelow ctx.dataUrl) := by
  obtain ⟨⟨e, i⟩, -, rfl⟩ := List.mem_map.mp h
  exact leadsBelow_cells hc ctx.dataUrl _ r.skippedCount e

/-- A row is one from before, or leads below the directory of the report that brought it. -/
theorem leadsBelow_of_update {c : Category} (hc : "Log" ∈ c.columns) (p : BuildPage) (a : Arrival)
    {i : Nat} {row : List String}
    (h : (rowsOf ((p.update a.ctx a.report a.width a.wallClock).tables.get c))[i]? = some row) :
    (rowsOf (p.tables.get c))[i]? = some row ∨
      (rowsOf (p.tables.get c)).length ≤ i ∧
        (Grid.cellUnder? c.columns "Log" row).any (Link.leadsBelow a.ctx.dataUrl) := by
  cases hpackages : a.report.packages with
  | none =>
    obtain ⟨htable, -⟩ := Prod.mk.inj (slot_update_of_none (c := c) p hpackages)
    exact .inl (htable ▸ h)
  | some packages =>
    rw [rowsOf_update (appendOnly_of_log hc) p hpackages] at h
    rcases Nat.lt_or_ge i (rowsOf (p.tables.get c)).length with hlt | hge
    · exact .inl (List.getElem?_append_left hlt ▸ h)
    · rw [List.getElem?_append_right hge] at h
      exact .inr ⟨hge, leadsBelow_rows hc (List.mem_of_getElem? h)⟩

theorem length_eq_listLength (a : Arrival) (c : Category) : a.length c = a.report.listLength c := by
  unfold Arrival.length BuildReport.listLength
  cases a.report.packages <;> rfl

/-- A blank page takes over a report's whole list. -/
theorem length_rowsOf_update_new {c : Category} (hc : c.isAppendOnly) (window : RateWindow)
    (a : Arrival) :
    (rowsOf (((BuildPage.new window).update a.ctx a.report a.width a.wallClock).tables.get c)).length
      = a.report.listLength c := by
  have hlength := (grown_after window hc [a]).rowsOf_length
  rw [← length_eq_listLength, ← Nat.zero_max (a.length c)]
  exact hlength

/-! ## The rows after an event -/

theorem PageState.packageRows_of_laid {state state' : PageState} (h : state.Laid state')
    (c : Category) : state'.packageRows c = state.packageRows c := by
  rcases h with rfl | ⟨width, rfl⟩
  · rfl
  · cases state with
    | build p => exact congrArg (rowsOf ·.1) (slot_relayout p width)
    | _ => rfl

theorem PageState.packageRows_of_kind_ne {state : PageState} (h : state.kind ≠ .build)
    (c : Category) : state.packageRows c = [] := by
  cases state with
  | build p => exact absurd rfl h
  | _ => rfl

namespace Dashboard

variable {d : Dashboard} {e : Event} {c : Category}

theorem rowsOf_buildPage (d : Dashboard) (c : Category) :
    rowsOf (d.buildPage.tables.get c) = d.state.packageRows c := by
  unfold buildPage
  cases d.state with
  | build p => rfl
  | _ => exact congrArg rowsOf (PerCategory.get_all none c)

/-- A build's report is one more arrival at the page. -/
theorem packageRows_handle_of_build (h : d.Agrees) {r : BuildReport}
    (hreport : e.report? = some (.build r)) :
    ∃ a : Arrival, a.report = r ∧ a.ctx.dataUrl = d.ctx.dataUrl ∧ ∀ c,
      (d.handle e).state.packageRows c =
        rowsOf ((d.buildPage.update a.ctx a.report a.width a.wallClock).tables.get c) := by
  obtain ⟨ctx, hctx, width, wallClock, hlaid⟩ := state_handle_of_build h hreport
  exact ⟨⟨ctx, r, width, wallClock⟩, rfl, hctx, PageState.packageRows_of_laid hlaid⟩

theorem packageRows_handle_of_ne (h : d.Agrees) {report : Report}
    (hreport : e.report? = some report) (hkind : report.kind ≠ .build) (c : Category) :
    (d.handle e).state.packageRows c = [] :=
  PageState.packageRows_of_kind_ne (kind_handle_of_report h hreport ▸ hkind) c

/-- A row is one from before, or leads below the directory from before the event. -/
theorem leadsBelow_of_handle (h : d.Agrees) (e : Event) (hc : "Log" ∈ c.columns) {i : Nat}
    {row : List String} (hrow : ((d.handle e).state.packageRows c)[i]? = some row) :
    (d.state.packageRows c)[i]? = some row ∨
      (d.state.packageRows c).length ≤ i ∧
        (Grid.cellUnder? c.columns "Log" row).any (Link.leadsBelow d.ctx.dataUrl) := by
  cases hreport : e.report? with
  | none => exact .inl (PageState.packageRows_of_laid (state_handle_of_none hreport) c ▸ hrow)
  | some report =>
    cases report with
    | build r =>
      obtain ⟨a, -, hctx, hrows⟩ := packageRows_handle_of_build h hreport
      rw [hrows] at hrow
      rw [← rowsOf_buildPage, ← hctx]
      exact leadsBelow_of_update hc d.buildPage a hrow
    | _ =>
      rw [packageRows_handle_of_ne h hreport nofun] at hrow
      cases hrow

/-- Without a turn a table loses no rows. -/
theorem length_packageRows_handle (h : d.Agrees) (hturn : d.turn? e = none)
    (hc : c.isAppendOnly) :
    (d.state.packageRows c).length ≤ ((d.handle e).state.packageRows c).length := by
  cases hreport : e.report? with
  | none => rw [PageState.packageRows_of_laid (state_handle_of_none hreport) c]
  | some report =>
    cases report with
    | build r =>
      obtain ⟨a, -, -, hrows⟩ := packageRows_handle_of_build h hreport
      rw [hrows, ← rowsOf_buildPage]
      exact (rows_prefix_update hc d.buildPage a).length_le
    | _ =>
      -- the page has been of another kind already
      have hkind := h.trans (turn?_eq_none_iff.mp hturn _ hreport).symm
      rw [PageState.packageRows_of_kind_ne (hkind ▸ nofun)]
      exact Nat.zero_le _

/-- After a turn to a build the rows are those of its report. -/
theorem length_packageRows_turn (h : d.Agrees) {r : BuildReport}
    (hturn : d.turn? e = some (.build r)) (hc : c.isAppendOnly) :
    d.state.packageRows c = [] ∧ ((d.handle e).state.packageRows c).length = r.listLength c := by
  obtain ⟨hreport, hkind⟩ := turn?_eq_some_iff.mp hturn
  have hother : d.state.kind ≠ .build := fun hbuild => hkind (hbuild.symm.trans h)
  obtain ⟨a, rfl, -, hrows⟩ := packageRows_handle_of_build h hreport
  rw [hrows, buildPage_of_kind_ne hother]
  exact ⟨PageState.packageRows_of_kind_ne hother c, length_rowsOf_update_new hc _ a⟩

/-! ## Rows over a run -/

variable {es : List Event}

/-- Rows that are added after the last turn are written in the directory of the run's end. -/
theorem RowsLead.writtenIn_of_le (h : d.RowsLead es) (hc : "Log" ∈ c.columns) {i : Nat}
    (hi : ((d.after es).state.packageRows c).length ≤ i) :
    d.writtenIn es c i = (d.after es).ctx.dataUrl := by
  unfold writtenIn
  split
  · next before r hlast =>
    exact if_neg (Nat.not_lt.mpr (Nat.le_trans (h.turned before r hlast c hc) hi))
  · rfl

theorem writtenIn_concat_of_none (h : (d.after es).Agrees) (hturn : (d.after es).turn? e = none) :
    d.writtenIn (es ++ [e]) = d.writtenIn es := by
  funext c i
  have hdir := dataUrl_handle h e
  rw [hturn] at hdir
  simp only [writtenIn, lastTurn?_concat_of_none hturn, after_concat, hdir]

theorem RowsLead.concat_of_none (h : d.RowsLead es) (hagrees : (d.after es).Agrees)
    (hturn : (d.after es).turn? e = none) : d.RowsLead (es ++ [e]) := by
  constructor
  · intro c hc i row hrow
    rw [after_concat] at hrow
    rw [writtenIn_concat_of_none hagrees hturn]
    rcases leadsBelow_of_handle hagrees e hc hrow with hold | ⟨hi, hnew⟩
    · exact h.leads c hc i row hold
    · rw [h.writtenIn_of_le hc hi]
      exact hnew
  · intro before r hlast c hc
    rw [lastTurn?_concat_of_none hturn] at hlast
    rw [after_concat]
    exact Nat.le_trans (h.turned before r hlast c hc)
      (length_packageRows_handle hagrees hturn (appendOnly_of_log hc))

/-- A turn to a build begins with a blank page, whatever was there before. -/
theorem rowsLead_concat_of_build (hagrees : (d.after es).Agrees) {r : BuildReport}
    (hturn : (d.after es).turn? e = some (.build r)) : d.RowsLead (es ++ [e]) := by
  have hlast := lastTurn?_concat_of_some hturn
  constructor
  · intro c hc i row hrow
    rw [after_concat] at hrow
    obtain ⟨hnone, hlength⟩ := length_packageRows_turn hagrees hturn (appendOnly_of_log hc)
    have hi : i < r.listLength c := hlength ▸ (List.getElem?_eq_some_iff.mp hrow).1
    rcases leadsBelow_of_handle hagrees e hc hrow with hold | ⟨-, hnew⟩
    · rw [hnone] at hold
      cases hold
    · simp only [writtenIn, hlast, if_pos hi]
      exact hnew
  · intro before r' hbefore c hc
    obtain ⟨-, hlength⟩ := length_packageRows_turn hagrees hturn (appendOnly_of_log hc)
    obtain ⟨-, hr⟩ := Prod.mk.inj (Option.some.inj (hlast.symm.trans hbefore))
    obtain rfl := Report.build.inj hr
    rw [after_concat, hlength]

theorem rowsLead_concat_of_ne (hagrees : (d.after es).Agrees) {report : Report}
    (hturn : (d.after es).turn? e = some report) (hkind : report.kind ≠ .build) :
    d.RowsLead (es ++ [e]) := by
  constructor
  · intro c hc i row hrow
    rw [after_concat, packageRows_handle_of_ne hagrees (turn?_eq_some_iff.mp hturn).1 hkind] at hrow
    cases hrow
  · intro before r hbefore
    rw [lastTurn?_concat_of_some hturn] at hbefore
    cases hbefore
    exact absurd rfl hkind

theorem RowsLead.concat (h : d.RowsLead es) (hagrees : (d.after es).Agrees) (e : Event) :
    d.RowsLead (es ++ [e]) := by
  cases hturn : (d.after es).turn? e with
  | none => exact h.concat_of_none hagrees hturn
  | some report =>
    cases report with
    | build r => exact rowsLead_concat_of_build hagrees hturn
    | _ => exact rowsLead_concat_of_ne hagrees hturn nofun

theorem rowsLead_after (ctx : PageContext) (settings : DashboardSettings) (es : List Event) :
    (new ctx settings).RowsLead es := by
  induction es using List.reverseRecOn with
  | nil =>
    constructor
    · intro c hc i row hrow
      have hblank : (PageState.blank settings ctx.kind).packageRows c = [] := by
        cases ctx.kind with
        | build => exact congrArg rowsOf (PerCategory.get_all none c)
        | _ => rfl
      rw [show ((new ctx settings).after []).state = PageState.blank settings ctx.kind from rfl,
        hblank] at hrow
      cases hrow
    · intro before r hlast
      cases hlast
  | append_singleton es e ih => exact ih.concat (reachable_after ctx settings es).agrees e

end Dashboard

open Dashboard

/-- Where the log links of a page lead, after any run that ends in a build's report: those of
builders below the data directory of that moment, and those of package rows below the one that each
row was written in. -/
theorem log_links (ctx : PageContext) (settings : DashboardSettings) (es : List Event)
    {doc : Document} {r : BuildReport} (hdoc : Report.ofDocument doc = .ok (.build r))
    (wallClock : Int) :
    let start := new ctx settings
    let run := es ++ [.document doc wallClock]
    let d := start.after run
    ∃ p, d.state = .build p ∧
      (∀ e ∈ p.builders.entries, e.row.pkgname.isSome →
        (Grid.cellUnder? BuilderRow.columns "Status" (e.row.cells d.ctx)).any
          (Link.leadsBelow d.ctx.dataUrl)) ∧
      ∀ c, "Log" ∈ c.columns → ∀ i row, (rowsOf (p.tables.get c))[i]? = some row →
        (Grid.cellUnder? c.columns "Log" row).any (Link.leadsBelow (start.writtenIn run c i)) := by
  intro start run d
  have hreport : (Event.document doc wallClock).report? = some (.build r) := by
    rw [Event.report?, hdoc]
    rfl
  have hkind : d.state.kind = .build := by
    show (start.after (es ++ [_])).state.kind = _
    rw [after_concat]
    exact kind_handle_of_report (reachable_after ctx settings es).agrees hreport
  obtain ⟨p, hstate⟩ := PageState.eq_build_of_kind hkind
  refine ⟨p, hstate, ?_, ?_⟩
  · intro e _ hbusy
    obtain ⟨pkgname, hpkgname⟩ := Option.isSome_iff_exists.mp hbusy
    exact leadsBelow_statusCell hpkgname d.ctx
  · intro c hc i row hrow
    have hleads := (rowsLead_after ctx settings run).leads c hc i row
    rw [show (start.after run).state = .build p from hstate] at hleads
    exact hleads hrow

/-- A build's document with these packages among the built ones. -/
def builtDocument (pkgnames : List String) : Document :=
  .object [
    ("buildname", .text "b"),
    ("mastername", .text "m"),
    ("ports", .object [
      ("built", .array (pkgnames.map fun pkgname => .object [("pkgname", .text pkgname)]))])]

/-- An overview page that comes to these documents one by one. -/
def overviewGiven (docs : List Document) : Dashboard :=
  (new (PageContext.new .index .hosted none none) ⟨100, 1, 0, 1, none⟩).after
    (docs.map (.document · 0))

/-- The row that comes after a turn leads below the directory of the page. -/
theorem log_links_of_later_report :
    let docs := [builtDocument ["a-1"], builtDocument ["a-1", "b-1"]]
    (∃ r, Report.ofDocument (builtDocument ["a-1", "b-1"]) = .ok (.build r)) ∧
      ∃ p, (overviewGiven docs).state = .build p ∧
        ∃ row, (rowsOf (p.tables.get .built))[1]? = some row ∧
          (Grid.cellUnder? Category.built.columns "Log" row).any (Link.leadsBelow "data/m/b/") := by
  intro docs
  have hdoc : Report.ofDocument (builtDocument ["a-1", "b-1"]) = .ok (.build _) := rfl
  obtain ⟨p, hstate, -, hleads⟩ :=
    log_links (PageContext.new .index .hosted none none) ⟨100, 1, 0, 1, none⟩
      [.document (builtDocument ["a-1"]) 0] hdoc 0
  have hrow : ((overviewGiven docs).state.packageRows .built)[1]?.isSome := by decide +kernel
  obtain ⟨row, hrow⟩ := Option.isSome_iff_exists.mp hrow
  rw [show (overviewGiven docs).state = .build p from hstate] at hrow
  exact ⟨⟨_, hdoc⟩, p, hstate, row, hrow, hleads .built (by decide) 1 row hrow⟩

/-- The row that comes with a turn leads below the directory that was left, and not below that of
the page. -/
theorem log_link_left_behind :
    let d := overviewGiven [builtDocument ["a-1"]]
    d.state.kind = .build ∧ d.ctx.hosting = .hosted ∧ d.ctx.dataUrl = "data/m/b/" ∧
      ∃ row ∈ d.state.packageRows .built,
        (Grid.cellUnder? Category.built.columns "Log" row).any (Link.leadsBelow "data/") ∧
        ¬ (Grid.cellUnder? Category.built.columns "Log" row).any
          (Link.leadsBelow d.ctx.dataUrl) := by
  decide +kernel

end BuildBoard
