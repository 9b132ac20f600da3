import BuildBoard.Proofs.RowIdentity
import BuildBoard.Proofs.Table.Poll

/-!
# The tables of a page

Every page has a keyed table. The page of a build has the package tables beside it, each of which
appears with its first rows. A report feeds a table if it has the section that the table is made of;
without that section the table is left alone, highlights included.

Results:
1. `keyed?_update`: a report is one poll of the keyed table, or leaves it alone.
2. `sameTable_update`: a table without its section is left alone.
3. `replaced_update`: the table of the remaining packages is written anew.
4. `Shows.forall_listing`, `Shows.keyed_of_polls`: what reports preserve of a table.
5. `Shows.shows_iff`: a table is shown just if it has rows.
6. `laid_process`: the page after a document.
-/

namespace BuildBoard

/-! ## Tables -/

/-- The tables of a page. -/
inductive TableName where
  /-- The table of builders, builds or masters. -/
  | keyed
  | packages (c : Category)
deriving DecidableEq

/-- The highlights of the rows, in their order. -/
def KeyedTable.marks {ρ : Type u} (t : KeyedTable ρ) : List Highlight :=
  t.entries.map MarkedRow.highlight

/-- The highlights of the rows, in their order. -/
def Listing.marks (l : Listing) : List Highlight := l.marked.map Prod.snd

/-! ## Keyed tables by kind -/

/-- The rows of the keyed table on a page of this kind. -/
def PageKind.Row : PageKind → Type
  | .build => BuilderRow
  | .jail => BuildRow
  | .index => MasterRow

instance : (kind : PageKind) → Keyed kind.Row
  | .build => inferInstanceAs (Keyed BuilderRow)
  | .jail => inferInstanceAs (Keyed BuildRow)
  | .index => inferInstanceAs (Keyed MasterRow)

instance : (kind : PageKind) → DecidableEq kind.Row
  | .build => inferInstanceAs (DecidableEq BuilderRow)
  | .jail => inferInstanceAs (DecidableEq BuildRow)
  | .index => inferInstanceAs (DecidableEq MasterRow)

/-- The cells of a row. -/
def PageKind.cells (ctx : PageContext) : (kind : PageKind) → kind.Row → List String
  | .build => BuilderRow.cells ctx
  | .jail => BuildRow.cells ctx
  | .index => MasterRow.cells ctx

/-- The rows that a report gives to the keyed table of a page of this kind. -/
def Report.rows? (wallClock : Int) : (kind : PageKind) → Report → Option (List kind.Row)
  | .build, .build r => r.jobs.map (BuildPage.builderRows r (BuildPage.clockOf r wallClock))
  | .jail, .history r => some (HistoryPage.rowsOf r)
  | .index, .overview r => some (OverviewPage.rowsOf r)
  | _, _ => none

/-- A report has the section that a table is made of. -/
def Report.Carries : Report → TableName → Prop
  | .build r, .keyed => r.jobs.isSome
  | .build r, .packages _ => r.packages.isSome
  | _, _ => True

instance : (report : Report) → (name : TableName) → Decidable (report.Carries name)
  | .build r, .keyed => inferInstanceAs (Decidable (r.jobs.isSome = true))
  | .build r, .packages _ => inferInstanceAs (Decidable (r.packages.isSome = true))
  | .history _, _ => inferInstanceAs (Decidable True)
  | .overview _, _ => inferInstanceAs (Decidable True)

namespace PageState

/-- The keyed table of a page, if the page is of this kind. -/
def keyed? : (kind : PageKind) → PageState → Option (KeyedTable kind.Row)
  | .build, .build p => some p.builders
  | .jail, .history p => some p.builds
  | .index, .overview p => some p.masters
  | _, _ => none

/-- The table of a category, where there is one. -/
def listing? (c : Category) : PageState → Option Listing
  | .build p => p.tables.get c
  | _ => none

/-- The highlights of a table's rows, in their order. -/
def marks : PageState → TableName → List Highlight
  | .build p, .keyed => p.builders.marks
  | .history p, .keyed => p.builds.marks
  | .overview p, .keyed => p.masters.marks
  | state, .packages c => ((state.listing? c).map Listing.marks).getD []

/-- The number of a table's rows. -/
def length (state : PageState) (name : TableName) : Nat := (state.marks name).length

/-- Whether a table is shown. -/
def shows : PageState → TableName → Bool
  | .build p, .keyed => p.builders.visible
  | .history p, .keyed => p.builds.visible
  | .overview p, .keyed => p.masters.visible
  | state, .packages c => ((state.listing? c).map Listing.visible).getD false

/-- The rows of a table as they are written. -/
def cells (ctx : PageContext) : PageState → TableName → List (List String)
  | .build p, .keyed => p.builders.entries.map fun e => e.row.cells ctx
  | .history p, .keyed => p.builds.entries.map fun e => e.row.cells ctx
  | .overview p, .keyed => p.masters.entries.map fun e => e.row.cells ctx
  | state, .packages c => ((state.listing? c).map Listing.rows).getD []

variable {state : PageState} {kind : PageKind} {c : Category}

theorem exists_keyed? (h : state.kind = kind) : ∃ t, state.keyed? kind = some t := by
  subst h
  cases state with
  | build p => exact ⟨p.builders, rfl⟩
  | history p => exact ⟨p.builds, rfl⟩
  | overview p => exact ⟨p.masters, rfl⟩

/-- What is said of a page's keyed table, said of the table. -/
theorem of_keyed? {t : KeyedTable kind.Row} (h : state.keyed? kind = some t) :
    state.kind = kind ∧ state.marks .keyed = t.marks ∧ state.shows .keyed = t.visible ∧
      (∀ ctx, state.cells ctx .keyed = t.entries.map fun e => kind.cells ctx e.row) ∧
      (state.Indexed ↔ t.Indexed) ∧ state.rowIds = t.ids := by
  cases state <;> cases kind
  case build.build => cases h; exact ⟨rfl, rfl, rfl, fun _ => rfl, Iff.rfl, rfl⟩
  case history.jail => cases h; exact ⟨rfl, rfl, rfl, fun _ => rfl, Iff.rfl, rfl⟩
  case overview.index => cases h; exact ⟨rfl, rfl, rfl, fun _ => rfl, Iff.rfl, rfl⟩
  all_goals cases h

/-- Only the page of a build has package tables. -/
theorem listing?_of_kind_ne (h : state.kind ≠ .build) (c : Category) : state.listing? c = none := by
  cases state with
  | build p => exact absurd rfl h
  | _ => rfl

theorem marks_packages (state : PageState) (c : Category) :
    state.marks (.packages c) = ((state.listing? c).map Listing.marks).getD [] := by
  cases state <;> rfl

theorem shows_packages (state : PageState) (c : Category) :
    state.shows (.packages c) = ((state.listing? c).map Listing.visible).getD false := by
  cases state <;> rfl

theorem cells_packages (state : PageState) (ctx : PageContext) (c : Category) :
    state.cells ctx (.packages c) = PackageTables.rowsOf (state.listing? c) := by
  cases state with
  | build p =>
    show ((p.tables.get c).map Listing.rows).getD [] = PackageTables.rowsOf (p.tables.get c)
    cases p.tables.get c <;> rfl
  | _ => rfl

theorem length_keyed {t : KeyedTable kind.Row} (h : state.keyed? kind = some t) :
    state.length .keyed = t.length := by
  obtain ⟨-, hmarks, -⟩ := of_keyed? h
  rw [length, hmarks, KeyedTable.marks, List.length_map]
  rfl

theorem length_packages (state : PageState) (c : Category) :
    state.length (.packages c) = (PackageTables.rowsOf (state.listing? c)).length := by
  rw [length, marks_packages]
  cases state.listing? c with
  | none => rfl
  | some l => simp [Listing.marks, Listing.marked, PackageTables.rowsOf]

theorem listing?_blank (settings : DashboardSettings) (kind : PageKind) (c : Category) :
    (blank settings kind).listing? c = none := by
  cases kind with
  | build => exact PerCategory.get_all none c
  | jail => rfl
  | index => rfl

theorem marks_blank (settings : DashboardSettings) (kind : PageKind) (name : TableName) :
    (blank settings kind).marks name = [] := by
  cases name with
  | keyed => cases kind <;> rfl
  | packages c =>
    rw [marks_packages, listing?_blank]
    rfl

/-! ## Layout -/

theorem kind_of_laid {state' : PageState} (h : state.Laid state') : state'.kind = state.kind := by
  rcases h with rfl | ⟨width, rfl⟩
  · rfl
  · exact kind_relayout width state

theorem listing?_relayout (state : PageState) (width : Nat) (c : Category) :
    (state.relayout width).listing? c = state.listing? c := by
  cases state with
  | build p => exact congrArg Prod.fst (PackageTables.slot_relayout (c := c) p width)
  | _ => rfl

theorem keyed?_relayout (state : PageState) (width : Nat) (kind : PageKind) :
    (state.relayout width).keyed? kind = state.keyed? kind := by
  cases state with
  | build p =>
    cases kind with
    | build => exact congrArg some (builders_relayout p width)
    | _ => rfl
  | _ => rfl

/-- Two pages that have the same table of this name. -/
def SameTable (state state' : PageState) (name : TableName) : Prop :=
  match name with
  | .keyed => ∀ kind, state'.keyed? kind = state.keyed? kind
  | .packages c => state'.listing? c = state.listing? c

theorem SameTable.of_laid {state' : PageState} (h : state.Laid state') (name : TableName) :
    state.SameTable state' name := by
  rcases h with rfl | ⟨width, rfl⟩
  · cases name with
    | keyed => exact fun _ => rfl
    | packages c => exact rfl
  · cases name with
    | keyed => exact keyed?_relayout state width
    | packages c => exact listing?_relayout state width c

theorem SameTable.eq {state' : PageState} {name : TableName} (h : state.SameTable state' name) :
    state'.marks name = state.marks name ∧ state'.shows name = state.shows name ∧
      ∀ ctx, state'.cells ctx name = state.cells ctx name := by
  cases name with
  | keyed =>
    obtain ⟨t, ht⟩ := exists_keyed? (Eq.refl state.kind)
    obtain ⟨-, hmarks, hshows, hcells, -⟩ := of_keyed? ht
    obtain ⟨-, hmarks', hshows', hcells', -⟩ := of_keyed? ((h state.kind).trans ht)
    exact ⟨hmarks'.trans hmarks.symm, hshows'.trans hshows.symm,
      fun ctx => (hcells' ctx).trans (hcells ctx).symm⟩
  | packages c =>
    have hlisting : state'.listing? c = state.listing? c := h
    refine ⟨?_, ?_, fun ctx => ?_⟩
    · rw [marks_packages, hlisting, marks_packages]
    · rw [shows_packages, hlisting, shows_packages]
    · rw [cells_packages, hlisting, cells_packages]

end PageState

/-! ## Reports -/

namespace Report

theorem isSome_rows?_iff (wallClock : Int) (report : Report) :
    (report.rows? wallClock report.kind).isSome ↔ report.Carries .keyed := by
  cases report with
  | build r => exact Eq.to_iff (congrArg (· = true) Option.isSome_map)
  | history r => exact iff_of_true rfl trivial
  | overview r => exact iff_of_true rfl trivial

end Report

/-! ## A report and its page -/

/-- A build's report comes to a build's page, and any other leaves a page of another kind. -/
theorem Dashboard.update_build_or_ne {state : PageState} {report : Report}
    (hkind : state.kind = report.kind) (width : Nat) (wallClock : Int) (ctx : PageContext) :
    (∃ r p, report = .build r ∧ state = .build p) ∨
      (update width wallClock ctx report state).2.2.kind ≠ .build := by
  by_cases hbuild : state.kind = .build
  · obtain ⟨p, rfl⟩ := PageState.eq_build_of_kind hbuild
    cases report with
    | build r => exact .inl ⟨r, p, rfl, rfl⟩
    | history r => cases hkind
    | overview r => cases hkind
  · obtain ⟨state', hupdate, hkind'⟩ := update_of_kind_eq width wallClock ctx hkind
    right
    rw [hupdate, hkind']
    exact hbuild

namespace PageState

variable {state : PageState} {report : Report}

/-- A report is one poll of the keyed table, or leaves it alone. -/
theorem keyed?_update (hkind : state.kind = report.kind) (width : Nat) (wallClock : Int)
    (ctx : PageContext) {t : KeyedTable report.kind.Row} (ht : state.keyed? report.kind = some t) :
    (Dashboard.update width wallClock ctx report state).2.2.keyed? report.kind =
      some ((report.rows? wallClock report.kind).elim t t.update) := by
  cases report <;> cases state
  case build.build r p =>
    cases ht
    refine congrArg some ((BuildPage.builders_update _ r width wallClock p).trans ?_)
    show _ = (r.jobs.map (BuildPage.builderRows r (BuildPage.clockOf r wallClock))).elim
      p.builders p.builders.update
    cases r.jobs <;> rfl
  case history.history r p =>
    cases ht
    rfl
  case overview.overview r p =>
    cases ht
    rfl
  all_goals cases hkind

/-- A table whose section is missing is left alone. -/
theorem sameTable_update (hkind : state.kind = report.kind) (width : Nat) (wallClock : Int)
    (ctx : PageContext) {name : TableName} (h : ¬ report.Carries name) :
    state.SameTable (Dashboard.update width wallClock ctx report state).2.2 name := by
  cases report with
  | history r => exact absurd trivial h
  | overview r => exact absurd trivial h
  | build r =>
    obtain ⟨p, rfl⟩ := eq_build_of_kind hkind
    cases name with
    | keyed =>
      have hjobs : r.jobs = none := Option.not_isSome_iff_eq_none.mp h
      intro kind
      cases kind with
      | build =>
        refine congrArg some ((BuildPage.builders_update _ r width wallClock p).trans ?_)
        rw [hjobs]
      | jail => rfl
      | index => rfl
    | packages c =>
      have hpackages : r.packages = none := Option.not_isSome_iff_eq_none.mp h
      exact congrArg Prod.fst (PackageTables.slot_update_of_none (c := c) p
        (a := ⟨Dashboard.adoptNames ctx (.build r), r, width, wallClock⟩) hpackages)

end PageState

namespace PackageTables

variable {ctx : PageContext} {r : BuildReport} {packages : Packages} {c : Category}

/-- Only the remaining packages leave their list again. -/
theorem eq_remaining_of_replaced (hc : c.isAppendOnly = false) : c = .remaining := by
  cases c with
  | remaining => rfl
  | _ => cases hc

/-- The table of a category that is not only appended to, with the packages of a report. -/
def replaced (ctx : PageContext) (r : BuildReport) (packages : Packages) (c : Category) : Listing :=
  Listing.ofRows (PackageRow.rows ctx r packages c 0 (packages.length c))

theorem slot_updateTable_of_replaced (hc : c.isAppendOnly = false) (p : BuildPage) :
    slot (p.updateTable ctx r packages c) c =
      (some (replaced ctx r packages c), p.cursors.get c) := by
  unfold BuildPage.updateTable
  dsimp only
  rw [if_neg (by rw [hc]; exact Bool.false_ne_true), slot, PerCategory.get_set_self]
  rfl

/-- Such a table is written anew by every report that has packages. -/
theorem replaced_update (hc : c.isAppendOnly = false) (p : BuildPage) {a : Arrival}
    (h : a.report.packages = some packages) :
    slot (p.update a.ctx a.report a.width a.wallClock) c =
      (some (replaced a.ctx a.report packages c), p.cursors.get c) := by
  obtain ⟨q, hq, heq⟩ := slot_update (c := c) p a
  obtain ⟨-, hcursor⟩ := Prod.mk.inj hq
  obtain ⟨turn, hturn, hafter⟩ := exists_turn a.ctx a.report packages
    (show Category.all.Nodup by decide) c.mem_all
    { q with tables := q.tables.map (Option.map Listing.settle) }
  rw [heq, BuildPage.updatePackages, h, ← hcursor]
  show slot (Category.all.foldl _ _) c = _
  rw [hafter, slot_updateTable_of_replaced hc, show turn.cursors.get c = q.cursors.get c from
    congrArg Prod.snd hturn]

/-- What a category's table is on any page: it appears with its first rows, or it is written anew. -/
inductive Stands (c : Category) : Listing → Prop
  | appended {l : Listing} : c.isAppendOnly → l.visible → l.rows ≠ [] → Stands c l
  | replaced (rows : List (List String)) : c.isAppendOnly = false → Stands c (Listing.ofRows rows)

theorem Stands.visible_iff {l : Listing} (h : Stands c l) : l.visible = true ↔ l.rows ≠ [] := by
  cases h with
  | appended _ hvisible hrows => exact iff_of_true hvisible hrows
  | replaced rows _ => cases rows <;> simp [Listing.ofRows]

/-- The rows that are appended are some. -/
theorem stands_of_took {table : Option Listing} {cursor : Option Nat}
    {after : Option Listing × Option Nat} (hc : c.isAppendOnly)
    (h : ∀ l, table = some l → Stands c l)
    (htook : Took ctx r packages c (table.map Listing.settle, cursor) after) {l : Listing}
    (hl : after.1 = some l) : Stands c l := by
  cases htook with
  | nothing =>
    obtain ⟨old, hold, rfl⟩ := Option.map_eq_some_iff.mp hl
    cases h old hold with
    | appended _ hvisible hrows => exact .appended hc hvisible hrows
    | replaced _ hreplaced => exact absurd hc (by rw [hreplaced]; exact Bool.false_ne_true)
  | rows hlt =>
    obtain rfl := Option.some.inj hl
    refine .appended hc (Listing.visible_append _ _) ?_
    rw [Listing.rows_append, List.ne_nil_iff_length_pos, List.length_append, length_rows]
    omega

theorem stands_update (p : BuildPage) (a : Arrival) (h : ∀ l, p.tables.get c = some l → Stands c l)
    {l : Listing} (hl : (p.update a.ctx a.report a.width a.wallClock).tables.get c = some l) :
    Stands c l := by
  cases ha : a.report.packages with
  | none =>
    obtain ⟨htable, -⟩ := Prod.mk.inj (slot_update_of_none (c := c) p ha)
    exact h l (htable ▸ hl)
  | some packages =>
    cases hc : c.isAppendOnly with
    | true => exact stands_of_took hc h (took_update hc p ha) hl
    | false =>
      obtain ⟨htable, -⟩ := Prod.mk.inj (replaced_update hc p ha)
      obtain rfl := Option.some.inj (htable.symm.trans hl)
      exact .replaced _ hc

end PackageTables

/-! ## Tables that are shown -/

namespace PageState

variable {state : PageState} {reports : List Report}

/-- What every report preserves of the table of a category holds of it on any page. -/
theorem Shows.forall_listing {P : Listing → Prop}
    (hupdate : ∀ (p : BuildPage) (a : Arrival), (∀ l, p.tables.get c = some l → P l) →
      ∀ l, (p.update a.ctx a.report a.width a.wallClock).tables.get c = some l → P l)
    (h : Shows reports state) : ∀ l, state.listing? c = some l → P l := by
  induction h with
  | blank settings kind =>
    intro l hl
    rw [listing?_blank] at hl
    cases hl
  | relayout width _ ih =>
    intro l hl
    exact ih l ((listing?_relayout _ width c).symm.trans hl)
  | @update reports state report width wallClock ctx _ hkind ih =>
    intro l hl
    rcases Dashboard.update_build_or_ne hkind width wallClock ctx with ⟨r, p, rfl, rfl⟩ | hne
    · exact hupdate p ⟨Dashboard.adoptNames ctx (.build r), r, width, wallClock⟩ ih l hl
    · rw [listing?_of_kind_ne hne] at hl
      cases hl

/-- What holds of an empty keyed table, and what every poll with the rows of a report preserves, holds
of the keyed table of any page and its reports. -/
theorem Shows.keyed_of_polls {P : List Report → (kind : PageKind) → KeyedTable kind.Row → Prop}
    (hempty : ∀ kind, P [] kind KeyedTable.empty)
    (hpoll : ∀ reports (report : Report) wallClock (t : KeyedTable report.kind.Row),
      P reports report.kind t →
      P (reports ++ [report]) report.kind ((report.rows? wallClock report.kind).elim t t.update))
    (h : Shows reports state) {kind : PageKind} {t : KeyedTable kind.Row}
    (ht : state.keyed? kind = some t) : P reports kind t := by
  induction h generalizing kind with
  | blank settings blankKind =>
    obtain ⟨hkind, -⟩ := of_keyed? ht
    obtain rfl := (kind_blank settings blankKind).symm.trans hkind
    cases blankKind <;> cases ht <;> exact hempty _
  | relayout width _ ih => exact ih ((keyed?_relayout _ width kind).symm.trans ht)
  | @update reports state report width wallClock ctx _ hkind ih =>
    obtain ⟨hkindEq, -⟩ := of_keyed? ht
    obtain ⟨state', hupdate, hkind'⟩ := Dashboard.update_of_kind_eq width wallClock ctx hkind
    obtain rfl : report.kind = kind := by rw [← hkindEq, hupdate, hkind', hkind]
    obtain ⟨before, hbefore⟩ := exists_keyed? hkind
    rw [keyed?_update hkind width wallClock ctx hbefore] at ht
    obtain rfl := Option.some.inj ht
    exact hpoll reports report wallClock before (ih hbefore)

theorem Shows.stands (h : Shows reports state) (c : Category) :
    ∀ l, state.listing? c = some l → PackageTables.Stands c l :=
  h.forall_listing fun p a hold _ => PackageTables.stands_update p a hold

theorem Shows.revealed_keyed (h : Shows reports state) {kind : PageKind} {t : KeyedTable kind.Row}
    (ht : state.keyed? kind = some t) : t.Revealed := by
  refine h.keyed_of_polls (P := fun _ _ t => t.Revealed) (fun kind => ?_) ?_ ht
  · exact iff_of_false nofun fun hrows => hrows rfl
  · intro reports report wallClock t hold
    cases report.rows? wallClock report.kind with
    | none => exact hold
    | some rows => exact hold.update rows

/-- A table is shown if it has rows, and else it is not. -/
theorem Shows.shows_iff (h : Shows reports state) (ctx : PageContext) (name : TableName) :
    state.shows name = true ↔ state.cells ctx name ≠ [] := by
  cases name with
  | keyed =>
    obtain ⟨t, ht⟩ := exists_keyed? (Eq.refl state.kind)
    obtain ⟨-, -, hshows, hcells, -⟩ := of_keyed? ht
    rw [hshows, hcells, ne_eq, List.map_eq_nil_iff]
    exact h.revealed_keyed ht
  | packages c =>
    rw [shows_packages, cells_packages]
    cases hl : state.listing? c with
    | none => exact iff_of_false nofun fun hrows => hrows rfl
    | some l => exact (h.stands c l hl).visible_iff

end PageState

/-! ## The page after a document -/

namespace Dashboard

theorem ofKind_scrollTo (d : Dashboard) (scrollTo : Option String) (kind : PageKind) :
    ({ d with scrollTo }).ofKind kind = { d.ofKind kind with scrollTo } := by
  unfold ofKind
  split <;> rfl

/-- An accepted document updates the page of its kind, which is then laid out at most. -/
theorem laid_process (d : Dashboard) {doc : Document} {report : Report}
    (hdoc : Report.ofDocument doc = .ok report) (wallClock : Int) :
    let page := d.ofKind report.kind
    (update page.barWidth wallClock page.ctx report page.state).2.2.Laid
      (d.process doc wallClock).2.state := by
  intro page
  simp only [process, hdoc, accept, ofKind_scrollTo]
  exact laid_firstLoad _

end Dashboard

end BuildBoard
