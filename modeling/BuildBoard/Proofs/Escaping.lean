import BuildBoard.Proofs.Coherence
import BuildBoard.Proofs.Page.Markup

/-!
# Escaped pages

Whatever documents say is escaped before it becomes part of a page: at once, where a page keeps the
cells of a table as markup, or when the page is drawn. The one thing that is put into links as it is
is the data directory, so a page is safe as long as that is.

Results:
1. `tagged_markupLiterals`: pages themselves write the tags of known elements and no others.
2. `keepsMarkup_handle`: what a page keeps as markup stays markup.
3. `around_render`: a page is markup around its percent label.
4. `body_is_markup`: the body of the page after any run.
-/

namespace BuildBoard

open Html PackageTables

/-! ## Definitions -/

namespace PageState

/-- The percent label as it is shown; only a build has one. -/
def percentLabel : PageState → String
  | .build p => p.percentLabel
  | _ => ""

/-- What the page keeps as markup is markup: the times in its rows, and the cells of packages. -/
def KeepsMarkup : PageState → Prop
  | .build p =>
    (∀ e ∈ p.builders.entries, Inert e.row.elapsed) ∧
      ∀ c, ∀ row ∈ rowsOf (p.tables.get c), ∀ cell ∈ row, IsMarkup cell
  | .history p => ∀ e ∈ p.builds.entries, Inert e.row.elapsed
  | .overview p => ∀ e ∈ p.masters.entries, Inert e.row.elapsed

end PageState

/-! ## What a page keeps -/

namespace BuildPage

/-- The rows of a category's table are those from before, and rows of the report. -/
theorem mem_rowsOf_update (p : BuildPage) (a : Arrival) {c : Category} {row : List String}
    (h : row ∈ rowsOf ((p.update a.ctx a.report a.width a.wallClock).tables.get c)) :
    row ∈ rowsOf (p.tables.get c) ∨
      ∃ packages first last, row ∈ PackageRow.rows a.ctx a.report packages c first last := by
  cases hpackages : a.report.packages with
  | none =>
    obtain ⟨htable, -⟩ := Prod.mk.inj (slot_update_of_none (c := c) p hpackages)
    exact .inl (htable ▸ h)
  | some packages =>
    cases hc : c.isAppendOnly with
    | true =>
      rw [rowsOf_update hc p hpackages] at h
      exact (List.mem_append.mp h).imp_right fun hnew => ⟨packages, _, _, hnew⟩
    | false =>
      obtain ⟨htable, -⟩ := Prod.mk.inj (replaced_update hc p hpackages)
      rw [htable] at h
      exact .inr ⟨packages, _, _, h⟩

theorem inert_elapsed_builderRows (r : BuildReport) (now : Int) (jobs : List Job) :
    ∀ row ∈ builderRows r now jobs, Inert row.elapsed := by
  intro row hrow
  unfold builderRows at hrow
  obtain ⟨job, -, rfl⟩ := List.mem_map.mp (List.mem_filter.mp hrow).1
  exact inert_between job.started (some now)

theorem keepsMarkup_update {p : BuildPage} (h : (PageState.build p).KeepsMarkup)
    {ctx : PageContext} (hdata : IsMarkup ctx.dataUrl) (r : BuildReport) (width : Nat)
    (wallClock : Int) : (PageState.build (p.update ctx r width wallClock)).KeepsMarkup := by
  obtain ⟨helapsed, hcells⟩ := h
  constructor
  · rw [builders_update]
    cases r.jobs with
    | none => exact helapsed
    | some jobs =>
      exact KeyedTable.forall_row_update (P := fun row : BuilderRow => Inert row.elapsed) helapsed
        (inert_elapsed_builderRows r _ jobs)
  · intro c row hrow
    rcases mem_rowsOf_update p ⟨ctx, r, width, wallClock⟩ hrow with hold | ⟨packages, _, _, hnew⟩
    · exact hcells c row hold
    · exact PackageRow.isMarkup_rows hdata r packages c _ _ row hnew

end BuildPage

namespace PageState

variable {state : PageState}

theorem keepsMarkup_blank (settings : DashboardSettings) (kind : PageKind) :
    (blank settings kind).KeepsMarkup := by
  cases kind with
  | build =>
    refine ⟨List.forall_mem_nil _, fun c => ?_⟩
    rw [show (BuildPage.new settings.window).tables.get c = none from PerCategory.get_all none c]
    exact List.forall_mem_nil _
  | jail => exact List.forall_mem_nil _
  | index => exact List.forall_mem_nil _

theorem KeepsMarkup.of_laid {state' : PageState} (h : state.KeepsMarkup)
    (hlaid : state.Laid state') : state'.KeepsMarkup := by
  rcases hlaid with rfl | ⟨width, rfl⟩
  · exact h
  · cases state with
    | build p =>
      obtain ⟨percent, bar, heq⟩ := BuildPage.relayout_eq p width
      show (PageState.build (p.relayout width)).KeepsMarkup
      rw [heq]
      exact h
    | _ => exact h

/-- A report in a safe data directory adds nothing but markup. -/
theorem KeepsMarkup.update (h : state.KeepsMarkup) {ctx : PageContext}
    (hdata : IsMarkup ctx.dataUrl) (report : Report) (width : Nat) (wallClock : Int) :
    (Dashboard.update width wallClock ctx report state).2.2.KeepsMarkup := by
  cases report <;> cases state
  case build.build r p =>
    refine BuildPage.keepsMarkup_update h ?_ r width wallClock
    rw [Dashboard.dataUrl_adoptNames]
    exact hdata
  case history.history r p =>
    refine KeyedTable.forall_row_update (P := fun row : BuildRow => Inert row.elapsed) h
      fun row hrow => ?_
    obtain ⟨build, -, rfl⟩ := List.mem_map.mp hrow
    exact inert_ofDocument? _
  case overview.overview r p =>
    refine KeyedTable.forall_row_update (P := fun row : MasterRow => Inert row.elapsed) h
      fun row hrow => ?_
    obtain ⟨⟨key, latest⟩, -, hlatest⟩ := List.mem_filterMap.mp hrow
    obtain ⟨summary, -, rfl⟩ := Option.map_eq_some_iff.mp hlatest
    exact inert_ofDocument? _
  all_goals exact h

end PageState

namespace Dashboard

variable {d : Dashboard}

theorem keepsMarkup_ofKind (h : d.state.KeepsMarkup) (kind : PageKind) :
    (d.ofKind kind).state.KeepsMarkup := by
  unfold ofKind
  split
  · exact h
  · exact PageState.keepsMarkup_blank _ _

theorem keepsMarkup_handle (h : d.state.KeepsMarkup) (hdata : IsMarkup d.ctx.dataUrl) (e : Event) :
    (d.handle e).state.KeepsMarkup := by
  cases hreport : e.report? with
  | none => exact h.of_laid (state_handle_of_none hreport)
  | some report =>
    obtain ⟨doc, wallClock, rfl, hdoc⟩ := Event.report?_eq_some_iff.mp hreport
    refine ((keepsMarkup_ofKind h report.kind).update ?_ report _ wallClock).of_laid
      (laid_process d hdoc wallClock)
    rw [ctx_ofKind]
    exact hdata

theorem keepsMarkup_after (ctx : PageContext) (settings : DashboardSettings) {es : List Event}
    (h : ∀ es', es' <+: es → Inert ((new ctx settings).after es').ctx.dataUrl) :
    ((new ctx settings).after es).state.KeepsMarkup := by
  induction es using List.reverseRecOn with
  | nil => exact PageState.keepsMarkup_blank settings ctx.kind
  | append_singleton es e ih =>
    have hprefix : es <+: es ++ [e] := List.prefix_append es [e]
    rw [after_concat]
    exact keepsMarkup_handle (ih fun es' hes' => h es' (hes'.trans hprefix))
      (.inert (h es hprefix)) e

/-- A page is markup around its percent label. -/
theorem around_render (h : d.state.KeepsMarkup) (hdata : IsMarkup d.ctx.dataUrl)
    (hcoherent : d.Coherent) : MarkupAround d.state.percentLabel d.render := by
  have hmetered := hcoherent.metered
  unfold render PageState.render PageState.percentLabel
  cases hstate : d.state with
  | build p =>
    rw [hstate] at h
    refine BuildPage.around_render hdata (fun bar hbar => ?_) h.1 fun c table htable => ?_
    · rw [(hmetered p hstate).bar] at hbar
      obtain ⟨stats, -, hlayout⟩ := Option.bind_eq_some_iff.mp hbar
      exact Progress.inert_color_of_layout hlayout
    · have hcells := h.2 c
      rw [htable] at hcells
      exact hcells
  | history p =>
    rw [hstate] at h
    exact .of_isMarkup (HistoryPage.isMarkup_render _ h)
  | overview p =>
    rw [hstate] at h
    exact .of_isMarkup (OverviewPage.isMarkup_render _ h)

end Dashboard

/-! ## Tags -/

/-- All tags in the literals are those of known elements. -/
theorem tagged_markupLiterals : ∀ literal ∈ markupLiterals, Tagged literal := by
  simp only [markupLiterals, List.forall_mem_cons]
  and_intros
  all_goals first
    | exact List.forall_mem_nil _
    | exact tagged_ofList (by decide +kernel)

theorem PageState.percentLabel_cases (state : PageState) :
    Inert state.percentLabel ∨ state.percentLabel = "< 1%" := by
  have hempty : Inert "" := by decide
  cases state with
  | build p =>
    show Inert p.percentLabel ∨ p.percentLabel = "< 1%"
    unfold BuildPage.percentLabel
    cases p.stats with
    | none => exact .inl hempty
    | some stats =>
      cases p.percent with
      | none => exact .inl hempty
      | some percent => exact Progress.percentText_cases percent
  | _ => exact .inl hempty

/-- The one `<` that is not the begin of a tag is that of the label. -/
theorem opensTag_or_label {front label back : String} (hfront : IsMarkup front)
    (hback : IsMarkup back) (hlabel : Inert label ∨ label = "< 1%") {rest : List Char}
    (h : '<' :: rest <:+ (front ++ label ++ back).toList) :
    OpensTag rest ∨ label = "< 1%" ∧ '<' :: rest = (label ++ back).toList := by
  have htagged : ∀ s, IsMarkup s → Tagged s := fun _ hs => hs.tagged tagged_markupLiterals
  rcases suffix_append_cases h with ⟨rest, rfl, hbefore⟩ | hafter
  · rcases suffix_append_cases hbefore with ⟨rest, rfl, hplace⟩ | hplace
    · exact .inl (((htagged front hfront rest hplace).append _).append _)
    · rcases hlabel with hinert | rfl
      · exact .inl ((tagged_of_inert hinert rest hplace).append _)
      · -- the label has no other `<` than the first one
        have hfirst : ∀ place ∈ "< 1%".toList.tails, place.head? = some '<' →
            place = "< 1%".toList := by decide +kernel
        refine .inr ⟨rfl, ?_⟩
        rw [String.toList_append, ← hfirst _ ((List.mem_tails _ _).mpr hplace) rfl]
        rfl
  · exact .inl (htagged back hback rest hafter)

open Dashboard

/-- The body of the page after any run in which the data directory is safe all along, whatever the
documents say: it is put together from literals of the page and from text without markup, and each
`<` in it is the begin of a tag of a known element, but for the one of a percent label `< 1%`. -/
theorem body_is_markup (ctx : PageContext) (settings : DashboardSettings) {es : List Event}
    (h : ∀ es', es' <+: es → Inert ((new ctx settings).after es').ctx.dataUrl) :
    let d := (new ctx settings).after es
    MadeOf ("< 1%" :: markupLiterals) d.render ∧
    ∃ front back, d.render = front ++ d.state.percentLabel ++ back ∧
      ∀ rest, '<' :: rest <:+ d.render.toList → OpensTag rest ∨
        d.state.percentLabel = "< 1%" ∧ '<' :: rest = (d.state.percentLabel ++ back).toList := by
  intro d
  obtain ⟨front, back, hrender, hfront, hback⟩ := around_render (keepsMarkup_after ctx settings h)
    (.inert (h es (List.prefix_refl es))) (reachable_after ctx settings es).coherent
  have hlabel := d.state.percentLabel_cases
  refine ⟨?_, front, back, hrender, fun rest hrest => ?_⟩
  · rw [hrender]
    refine .append (.append (hfront.mono (List.subset_cons_self _ _)) ?_)
      (hback.mono (List.subset_cons_self _ _))
    rcases hlabel with hinert | hpercent
    · exact .inert hinert
    · exact .literal (hpercent ▸ List.mem_cons_self)
  · rw [hrender] at hrest
    exact opensTag_or_label hfront hback hlabel hrest

/-- A build whose texts are made of markup, and that has done less than one percent. -/
theorem hostile_build_escaped :
    let start := new (PageContext.new .build .hosted (some "m") (some "b")) ⟨356, 1, 0, 1, none⟩
    let hostile : Document := .text "\"><script>x='&'</script>"
    let e : Event := .document (.object [("buildname", hostile), ("mastername", hostile),
      ("status", hostile), ("jobs", .array [.object [("id", hostile), ("pkgname", hostile)]]),
      ("ports", .object [("built", .array [.object [("pkgname", hostile), ("origin", hostile)]])]),
      ("stats", .object [("queued", .int 1000), ("built", .int 1)])]) 0
    let d := start.after [e]
    (∀ es', es' <+: [e] → Inert (start.after es').ctx.dataUrl) ∧
      d.state.percentLabel = "< 1%" ∧
      ∃ front back, d.render = front ++ "< 1%" ++ back ∧
        ∀ rest, '<' :: rest <:+ d.render.toList →
          OpensTag rest ∨ '<' :: rest = ("< 1%" ++ back).toList := by
  intro start hostile e d
  have hdata : ∀ es', es' <+: [e] → Inert (start.after es').ctx.dataUrl := by
    intro es' hes'
    rcases List.prefix_cons_iff.mp hes' with rfl | ⟨rest, rfl, hrest⟩
    · decide +kernel
    · obtain rfl := List.prefix_nil.mp hrest
      decide +kernel
  have hlabel : d.state.percentLabel = "< 1%" := by decide +kernel
  obtain ⟨-, front, back, hrender, htags⟩ := body_is_markup _ _ hdata
  refine ⟨hdata, hlabel, front, back, ?_, fun rest hrest => ?_⟩
  · rw [← hlabel]
    exact hrender
  · rw [← hlabel]
    exact (htags rest hrest).imp_right And.right

end BuildBoard
