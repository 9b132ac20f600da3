import BuildBoard.Proofs.Page.Tables

/-!
# How long highlights last

A highlight is there for one poll. A table drops the highlights of the poll before when it takes a
report's rows over, and it does so only if the report has the section that the table is made of: a
report without jobs leaves the builders highlighted, and one without packages the package tables. So
after a report every highlight is its own, except in a table that it does not feed and that had
highlights before.

Results:
1. `marks_keyed_update`, `marks_packages_update`: the highlights of a table that a report feeds.
2. `own_highlights_iff`: when all highlights of a table are those of the last report.
3. `cameWith_of_mark`: which document a highlight came with.
4. `highlights_of_last_poll`: all of this after any run.
5. `highlights_outlast_poll`: highlights that are there for two polls.
-/

namespace BuildBoard

/-! ## Definitions -/

/-- A report changes the row at this position of its page's keyed table: when one of its rows comes
to its place there, another one stands there. -/
def Report.Changes (report : Report) (wallClock : Int) (state : PageState) (i : Nat) : Prop :=
  ∃ t rows, state.keyed? report.kind = some t ∧ report.rows? wallClock report.kind = some rows ∧
    t.Changes rows i

/-- What the highlight at this position of a table says is true of a report, given the page that the
report came to: a row that fades in was added by it, and one that flashes was changed by it. -/
structure Report.Accounts (report : Report) (wallClock : Int) (before : PageState)
    (name : TableName) (i : Nat) (mark : Highlight) : Prop where
  added : mark = .fadeIn → before.length name ≤ i
  changed : mark = .flash → name = .keyed ∧ report.Changes wallClock before i

/-- What a report that feeds a table does to highlights: the rows flash that it changed, and those
fade in that it added to others, unless the table is written anew. -/
structure Report.Marks (report : Report) (wallClock : Int) (before : PageState)
    (name : TableName) (i : Nat) (mark : Highlight) : Prop where
  fadeIn_iff : mark = .fadeIn ↔
    before.length name ≤ i ∧ 0 < before.length name ∧ name ≠ .packages .remaining
  flash_iff : mark = .flash ↔ name = .keyed ∧ report.Changes wallClock before i

theorem Report.Marks.accounts {report : Report} {wallClock : Int} {before : PageState}
    {name : TableName} {i : Nat} {mark : Highlight}
    (h : report.Marks wallClock before name i mark) :
    report.Accounts wallClock before name i mark where
  added hmark := (h.fadeIn_iff.mp hmark).1
  changed := h.flash_iff.mp

/-! ## A table that is fed -/

namespace PackageTables

/-- The rows fade in that are appended to others. -/
theorem fadeIn_update_iff {c : Category} (p : BuildPage) (a : Arrival) {packages : Packages}
    (ha : a.report.packages = some packages) (h : ∀ l, p.tables.get c = some l → Stands c l)
    {l : Listing} (hl : (p.update a.ctx a.report a.width a.wallClock).tables.get c = some l)
    {i : Nat} (hi : i < l.rows.length) :
    l.highlightAt i = .fadeIn ↔
      (rowsOf (p.tables.get c)).length ≤ i ∧ 0 < (rowsOf (p.tables.get c)).length ∧
        c ≠ .remaining := by
  cases hc : c.isAppendOnly with
  | true =>
    have hne : c ≠ .remaining := by
      rintro rfl
      cases hc
    have hvisible : ∀ l, p.tables.get c = some l → l.visible = true ∧ l.rows ≠ [] := by
      intro l hl
      cases h l hl with
      | appended _ hvisible hrows => exact ⟨hvisible, hrows⟩
      | replaced _ hreplaced => rw [hc] at hreplaced; cases hreplaced
    have hsome : (p.tables.get c).isSome ↔ 0 < (rowsOf (p.tables.get c)).length := by
      cases htable : p.tables.get c with
      | none => exact iff_of_false nofun (Nat.not_lt_zero 0)
      | some old => exact iff_of_true rfl (List.length_pos_iff.mpr (hvisible old htable).2)
    rw [highlightAt_of_took (fun l hl => (hvisible l hl).1) (took_update hc p ha) hl hi]
    split
    · next hnew => exact iff_of_true rfl ⟨hnew.2, hsome.mp hnew.1, hne⟩
    · next hold => exact iff_of_false nofun fun hnew => hold ⟨hsome.mpr hnew.2.1, hnew.1⟩
  | false =>
    obtain ⟨htable, -⟩ := Prod.mk.inj (replaced_update hc p ha)
    obtain rfl := Option.some.inj (htable.symm.trans hl)
    have hnone : (replaced a.ctx a.report packages c).highlightAt i = .none := if_pos hi
    rw [hnone]
    exact iff_of_false nofun fun hnew => hnew.2.2 (eq_remaining_of_replaced hc)

end PackageTables

namespace PageState

variable {state : PageState} {report : Report} {reports : List Report}

theorem getElem?_marks_keyed {kind : PageKind} {t : KeyedTable kind.Row}
    (ht : state.keyed? kind = some t) {i : Nat} {mark : Highlight} :
    (state.marks .keyed)[i]? = some mark ↔ ∃ e, t.entries[i]? = some e ∧ e.highlight = mark := by
  obtain ⟨-, hmarks, -⟩ := of_keyed? ht
  rw [hmarks, KeyedTable.marks, List.getElem?_map, Option.map_eq_some_iff]

theorem getElem?_marks_packages {c : Category} {i : Nat} {mark : Highlight} :
    (state.marks (.packages c))[i]? = some mark ↔
      ∃ l, state.listing? c = some l ∧ i < l.rows.length ∧ l.highlightAt i = mark := by
  rw [marks_packages]
  cases state.listing? c with
  | none => simp
  | some l =>
    simp only [Option.map_some, Option.getD_some, Listing.marks, List.getElem?_map,
      Listing.getElem?_marked, Option.map_map, Option.map_eq_some_iff, Option.some.injEq,
      exists_eq_left']
    constructor
    · rintro ⟨row, hrow, hmark⟩
      exact ⟨(List.getElem?_eq_some_iff.mp hrow).1, hmark⟩
    · rintro ⟨hlt, hmark⟩
      exact ⟨l.rows[i], List.getElem?_eq_getElem hlt, hmark⟩

theorem marks_keyed_update (hkind : state.kind = report.kind) (hindexed : state.Indexed)
    (hcarries : report.Carries .keyed) (width : Nat) (wallClock : Int) (ctx : PageContext) {i : Nat}
    {mark : Highlight}
    (hmark : ((Dashboard.update width wallClock ctx report state).2.2.marks .keyed)[i]? = some mark) :
    report.Marks wallClock state .keyed i mark := by
  obtain ⟨t, ht⟩ := exists_keyed? hkind
  obtain ⟨rows, hrows⟩ :=
    Option.isSome_iff_exists.mp ((report.isSome_rows?_iff wallClock).mpr hcarries)
  have hafter := keyed?_update hkind width wallClock ctx ht
  rw [hrows] at hafter
  obtain ⟨e, he, rfl⟩ := (getElem?_marks_keyed hafter).mp hmark
  obtain ⟨-, -, -, -, hiff, -⟩ := of_keyed? ht
  obtain ⟨hflash, hfadeIn⟩ := (hiff.mp hindexed).highlight_iff rows he
  refine ⟨?_, ?_⟩
  · rw [hfadeIn, length_keyed ht, List.ne_nil_iff_length_pos]
    exact ⟨fun hnew => ⟨hnew.1, hnew.2, nofun⟩, fun hnew => ⟨hnew.1, hnew.2.1⟩⟩
  · rw [hflash]
    constructor
    · intro hchanges
      exact ⟨rfl, t, rows, ht, hrows, hchanges⟩
    · rintro ⟨-, t', rows', ht', hrows', hchanges⟩
      obtain rfl := Option.some.inj (ht.symm.trans ht')
      obtain rfl := Option.some.inj (hrows.symm.trans hrows')
      exact hchanges

theorem marks_packages_update (hkind : state.kind = report.kind)
    (hshows : state.Shows reports) {c : Category} (hcarries : report.Carries (.packages c))
    (width : Nat) (wallClock : Int) (ctx : PageContext) {i : Nat} {mark : Highlight}
    (hmark : ((Dashboard.update width wallClock ctx report state).2.2.marks (.packages c))[i]? =
      some mark) :
    report.Marks wallClock state (.packages c) i mark := by
  obtain ⟨l, hl, hlt, rfl⟩ := getElem?_marks_packages.mp hmark
  have hflash : l.highlightAt i ≠ .flash := by
    unfold Listing.highlightAt
    split <;> exact nofun
  refine ⟨?_, iff_of_false hflash fun hkeyed => nomatch hkeyed.1⟩
  rcases Dashboard.update_build_or_ne hkind width wallClock ctx with ⟨r, p, rfl, rfl⟩ | hne
  · obtain ⟨packages, hpackages⟩ := Option.isSome_iff_exists.mp hcarries
    have hfadeIn := PackageTables.fadeIn_update_iff p
      ⟨Dashboard.adoptNames ctx (.build r), r, width, wallClock⟩ hpackages (hshows.stands c) hl hlt
    rw [hfadeIn, length_packages, ne_eq, ne_eq, TableName.packages.injEq]
    rfl
  · rw [listing?_of_kind_ne hne] at hl
    cases hl

end PageState

/-! ## One document -/

namespace Dashboard

variable {d : Dashboard} {doc : Document} {report : Report} {name : TableName}

theorem marks_of_carries (h : d.Agrees) {reports : List Report} (hshows : d.state.Shows reports)
    (hdoc : Report.ofDocument doc = .ok report) (hcarries : report.Carries name) (wallClock : Int)
    {i : Nat} {mark : Highlight}
    (hmark : ((d.process doc wallClock).2.state.marks name)[i]? = some mark) :
    report.Marks wallClock (d.ofKind report.kind).state name i mark := by
  have hkind := (ofKind_agrees h report.kind).1
  have hpage := shows_ofKind h hshows report.kind
  rw [(PageState.SameTable.of_laid (laid_process d hdoc wallClock) name).eq.1] at hmark
  cases name with
  | keyed => exact PageState.marks_keyed_update hkind hpage.rowIds_eq.1 hcarries _ _ _ hmark
  | packages c => exact PageState.marks_packages_update hkind hpage hcarries _ _ _ hmark

theorem marks_of_not_carries (h : d.Agrees) (hdoc : Report.ofDocument doc = .ok report)
    (hcarries : ¬ report.Carries name) (wallClock : Int) :
    (d.process doc wallClock).2.state.marks name = (d.ofKind report.kind).state.marks name := by
  have hkind := (ofKind_agrees h report.kind).1
  rw [(PageState.SameTable.of_laid (laid_process d hdoc wallClock) name).eq.1]
  exact (PageState.sameTable_update hkind _ wallClock _ hcarries).eq.1

/-- A report without the section of a table neither adds nor changes a row of it. -/
theorem eq_none_of_accounts {before : PageState} {wallClock : Int} (hcarries : ¬ report.Carries name)
    {i : Nat} (hi : i < before.length name) {mark : Highlight}
    (h : report.Accounts wallClock before name i mark) : mark = .none := by
  cases mark with
  | none => rfl
  | fadeIn => exact absurd (h.added rfl) (Nat.not_le.mpr hi)
  | flash =>
    obtain ⟨rfl, t, rows, -, hrows, -⟩ := h.changed rfl
    exact absurd ((report.isSome_rows?_iff wallClock).mp (Option.isSome_of_eq_some hrows)) hcarries

/-- All highlights of a table are those of the last report just if the report has the table's section
or there were none. -/
theorem own_highlights_iff (h : d.Agrees) {reports : List Report} (hshows : d.state.Shows reports)
    (hdoc : Report.ofDocument doc = .ok report) (wallClock : Int) (name : TableName) :
    let before := (d.ofKind report.kind).state
    (∀ i mark, ((d.process doc wallClock).2.state.marks name)[i]? = some mark →
      report.Accounts wallClock before name i mark) ↔
    report.Carries name ∨ ∀ mark ∈ before.marks name, mark = .none := by
  intro before
  constructor
  · intro hown
    by_cases hcarries : report.Carries name
    · exact .inl hcarries
    · right
      intro mark hmem
      obtain ⟨i, hi⟩ := List.getElem?_of_mem hmem
      have hmark := (marks_of_not_carries h hdoc hcarries wallClock).symm ▸ hi
      have hlt : i < before.length name := (List.getElem?_eq_some_iff.mp hi).1
      exact eq_none_of_accounts hcarries hlt (hown i mark hmark)
  · rintro hown i mark hmark
    by_cases hcarries : report.Carries name
    · exact (marks_of_carries h hshows hdoc hcarries wallClock hmark).accounts
    · rw [marks_of_not_carries h hdoc hcarries] at hmark
      obtain rfl := hown.resolve_left hcarries mark (List.mem_of_getElem? hmark)
      exact ⟨nofun, nofun⟩

/-! ## A run -/

/-- A highlight came with a document of this run: its report has the table's section and put the
highlight there, and every report since then is of the same kind and without that section. -/
def CameWith (ctx : PageContext) (settings : DashboardSettings) (es : List Event) (name : TableName)
    (i : Nat) (mark : Highlight) : Prop :=
  ∃ before doc wallClock later report,
    es = before ++ .document doc wallClock :: later ∧ Report.ofDocument doc = .ok report ∧
    report.Carries name ∧
    report.Marks wallClock (((new ctx settings).after before).ofKind report.kind).state name i mark ∧
    report.kind = ((new ctx settings).after es).state.kind ∧
    ∀ e ∈ later, ∀ other, e.report? = some other → other.kind = report.kind ∧ ¬ other.Carries name

variable {ctx : PageContext} {settings : DashboardSettings} {es : List Event} {i : Nat}
  {mark : Highlight}

/-- A highlight stays one event longer if the event brings no report, or one of the same kind without
the table's section. -/
theorem CameWith.concat (h : CameWith ctx settings es name i mark) {e : Event}
    (hkind : ((new ctx settings).after (es ++ [e])).state.kind =
      ((new ctx settings).after es).state.kind)
    (hother : ∀ other, e.report? = some other →
      other.kind = ((new ctx settings).after es).state.kind ∧ ¬ other.Carries name) :
    CameWith ctx settings (es ++ [e]) name i mark := by
  obtain ⟨before, doc, wallClock, later, report, hsplit, hdoc, hcarries, hmarks, hreport, hlater⟩ := h
  refine ⟨before, doc, wallClock, later ++ [e], report, ?_, hdoc, hcarries, hmarks,
    hreport.trans hkind.symm, ?_⟩
  · rw [hsplit, List.append_assoc, List.cons_append]
  · rw [List.forall_mem_append, List.forall_mem_singleton, hreport]
    exact ⟨hreport ▸ hlater, hother⟩

/-- What is highlighted, and what is not, came with some document. -/
theorem cameWith_of_mark (hmark : (((new ctx settings).after es).state.marks name)[i]? = some mark) :
    CameWith ctx settings es name i mark := by
  induction es using List.reverseRecOn with
  | nil =>
    rw [show ((new ctx settings).after []).state = PageState.blank settings ctx.kind from rfl,
      PageState.marks_blank] at hmark
    cases hmark
  | append_singleton es e ih =>
    have hagrees := (reachable_after ctx settings es).agrees
    have hshows := shows_after ctx settings es
    rw [after_concat] at hmark
    cases hreport : e.report? with
    | none =>
      have hlaid := state_handle_of_none (d := (new ctx settings).after es) hreport
      rw [(PageState.SameTable.of_laid hlaid name).eq.1] at hmark
      refine (ih hmark).concat ?_ (fun other hother => by rw [hreport] at hother; cases hother)
      rw [after_concat]
      exact PageState.kind_of_laid hlaid
    | some report =>
      have hkind := kind_handle_of_report hagrees hreport
      obtain ⟨doc, wallClock, rfl, hdoc⟩ := Event.report?_eq_some_iff.mp hreport
      by_cases hcarries : report.Carries name
      · -- the last report put all highlights of the table there
        refine ⟨es, doc, wallClock, [], report, rfl, hdoc, hcarries,
          marks_of_carries hagrees hshows hdoc hcarries wallClock hmark, ?_, List.forall_mem_nil _⟩
        rw [after_concat, hkind]
      · have hbefore : ((((new ctx settings).after es).ofKind report.kind).state.marks name)[i]? =
            some mark := (marks_of_not_carries hagrees hdoc hcarries wallClock) ▸ hmark
        unfold ofKind at hbefore
        split at hbefore
        · next heq =>
          have hsame : report.kind = ((new ctx settings).after es).state.kind :=
            heq.trans hagrees.symm
          refine (ih hbefore).concat ?_ (fun other hother => ?_)
          · rw [after_concat, hkind, hsame]
          · obtain rfl := Option.some.inj (hreport.symm.trans hother)
            exact ⟨hsame, hcarries⟩
        · -- a turn finds a page without rows
          rw [PageState.marks_blank] at hbefore
          cases hbefore

end Dashboard

open Dashboard

/-- The highlights after any run and a document that is processed at its end. Those of a table are all
true of that document just if its report has the section of the table or the table had no highlights
before. With the section they are exactly what the report changed and added; without it they stay as
they are. So each of them came with the last document that has the section. -/
theorem highlights_of_last_poll (ctx : PageContext) (settings : DashboardSettings) (es : List Event)
    {doc : Document} {report : Report} (hdoc : Report.ofDocument doc = .ok report)
    (wallClock : Int) :
    let d := (new ctx settings).after es
    let before := (d.ofKind report.kind).state
    let after := (d.process doc wallClock).2.state
    (∀ name,
      (∀ i mark, (after.marks name)[i]? = some mark →
        report.Accounts wallClock before name i mark) ↔
      report.Carries name ∨ ∀ mark ∈ before.marks name, mark = .none) ∧
    (∀ name, report.Carries name → ∀ i mark, (after.marks name)[i]? = some mark →
      report.Marks wallClock before name i mark) ∧
    (∀ name, ¬ report.Carries name → after.marks name = before.marks name) ∧
    ∀ name i mark, (after.marks name)[i]? = some mark →
      CameWith ctx settings (es ++ [.document doc wallClock]) name i mark := by
  intro d before after
  have hagrees : d.Agrees := (reachable_after ctx settings es).agrees
  have hshows : d.state.Shows (shown es) := shows_after ctx settings es
  refine ⟨own_highlights_iff hagrees hshows hdoc wallClock, ?_, ?_, ?_⟩
  · intro name hcarries i mark hmark
    exact marks_of_carries hagrees hshows hdoc hcarries wallClock hmark
  · intro name hcarries
    exact marks_of_not_carries hagrees hdoc hcarries wallClock
  · intro name i mark hmark
    refine cameWith_of_mark ?_
    rw [after_concat]
    exact hmark

/-- A build's document with one builder and these packages among the built ones. -/
def builderDocument (status : String) (pkgnames : List String) : Document :=
  .object [
    ("buildname", .text "b"),
    ("jobs", .array [.object [("id", .text "01"), ("status", .text status)]]),
    ("mastername", .text "m"),
    ("ports", .object [
      ("built", .array (pkgnames.map fun pkgname => .object [("pkgname", .text pkgname)]))])]

/-- A builder that changes and a package that is added. -/
theorem highlights_of_builder_and_package :
    let ctx := PageContext.new .build .hosted (some "m") (some "b")
    let d := (new ctx ⟨100, 1, 0, 1, none⟩).after [.document (builderDocument "idle:" ["a-1"]) 0]
    let doc := builderDocument "build:misc/b" ["a-1", "b-1"]
    ∃ report, Report.ofDocument doc = .ok report ∧
      (d.process doc 0).2.state.marks .keyed = [.flash] ∧ report.Changes 0 d.state 0 ∧
      (d.process doc 0).2.state.marks (.packages .built) = [.none, .fadeIn] ∧
      d.state.length (.packages .built) = 1 := by
  intro ctx d doc
  obtain ⟨r, hdoc, hjobs⟩ : ∃ r, Report.ofDocument doc = .ok (.build r) ∧ r.jobs.isSome :=
    ⟨_, rfl, rfl⟩
  have hmarks : (d.process doc 0).2.state.marks .keyed = [.flash] := by decide +kernel
  obtain ⟨-, hfed, -⟩ := highlights_of_last_poll ctx ⟨100, 1, 0, 1, none⟩
    [.document (builderDocument "idle:" ["a-1"]) 0] hdoc 0
  have hflash := (hfed .keyed hjobs 0 .flash (by rw [hmarks]; rfl)).flash_iff.mp rfl
  exact ⟨_, hdoc, hmarks, hflash.2, by decide +kernel, by decide +kernel⟩

/-- A report without jobs and packages leaves a builder flashing that it does not change, and a
package fading in that it does not add. -/
theorem highlights_outlast_poll :
    let d := (new (PageContext.new .build .hosted (some "m") (some "b")) ⟨100, 1, 0, 1, none⟩).after [
      .document (builderDocument "idle:" ["a-1"]) 0,
      .document (builderDocument "build:misc/b" ["a-1", "b-1"]) 0]
    let doc : Document := .object [
      ("buildname", .text "b"), ("mastername", .text "m"), ("status", .text "parallel_build:")]
    let after := (d.process doc 0).2.state
    ∃ report, Report.ofDocument doc = .ok report ∧
      after.marks .keyed = [.flash] ∧ ¬ report.Accounts 0 d.state .keyed 0 .flash ∧
      after.marks (.packages .built) = [.none, .fadeIn] ∧
      ¬ report.Accounts 0 d.state (.packages .built) 1 .fadeIn := by
  intro d doc after
  obtain ⟨r, hdoc, hjobs, hpackages⟩ : ∃ r,
      Report.ofDocument doc = .ok (.build r) ∧ r.jobs = none ∧ r.packages = none :=
    ⟨_, rfl, rfl, rfl⟩
  have hbuilders : ¬ (Report.build r).Carries .keyed := by
    show ¬ r.jobs.isSome = true
    rw [hjobs]
    exact nofun
  have hbuilt : ¬ (Report.build r).Carries (.packages .built) := by
    show ¬ r.packages.isSome = true
    rw [hpackages]
    exact nofun
  refine ⟨_, hdoc, by decide +kernel, fun haccounts => ?_, by decide +kernel, fun haccounts => ?_⟩
  · cases eq_none_of_accounts hbuilders (by decide +kernel) haccounts
  · cases eq_none_of_accounts hbuilt (by decide +kernel) haccounts

end BuildBoard
