import BuildBoard.Proofs.Dashboard.Step
import BuildBoard.Proofs.Text.Inert

/-!
# Names in the data directory

The data directory is put into links as it is. It is made of the names that the page was asked for,
until a turn: from then on it is made of the names that the context had at the turn, which come from
documents and are not escaped.

Results:
1. `inert_relocate_iff`: a directory holds no markup where the names that it is made of hold none.
2. `namesInert_ctxAfter`: a report puts nothing but its own names into the context.
3. `inert_dataUrl_after_iff`: when the directory after a run holds markup.
4. `markup_in_dataUrl`: a build's name that becomes markup.
-/

namespace BuildBoard

open Html (Inert inert_append)

/-! ## Definitions -/

/-- The names that the data directory of a context is made of. -/
def PageContext.directoryNames (ctx : PageContext) : List String :=
  match ctx.hosting, ctx.kind with
  | .hosted, .build => [ctx.mastername.getD "", ctx.buildname.getD ""]
  | .hosted, .jail => [ctx.mastername.getD ""]
  | _, _ => []

/-- The names that a report gives to the context. -/
def Report.names : Report → List String
  | .build r => [r.mastername, r.buildname]
  | .history r => [r.mastername]
  | .overview _ => []

/-- Neither name in the context holds markup. -/
structure PageContext.NamesInert (ctx : PageContext) : Prop where
  mastername : ∀ name ∈ ctx.mastername, Inert name
  buildname : ∀ name ∈ ctx.buildname, Inert name

/-! ## Directories -/

theorem inert_getD_iff (name : Option String) :
    Inert (name.getD "") ↔ ∀ s ∈ name, Inert s := by
  cases name with
  | some s => simp
  | none => simpa using (by decide : Inert "")

theorem PageContext.inert_relocate_iff (ctx : PageContext) :
    Inert ctx.relocate.dataUrl ↔ ∀ name ∈ ctx.directoryNames, Inert name := by
  have hroot : Inert "data/" := by decide
  have hslash : Inert "/" := by decide
  have hempty : Inert "" := by decide
  unfold relocate dataUrlOf directoryNames
  cases ctx.hosting <;> cases ctx.kind <;> simp [inert_append, hroot, hslash, hempty]

theorem PageContext.NamesInert.directoryNames {ctx : PageContext} (h : ctx.NamesInert) :
    ∀ name ∈ ctx.directoryNames, Inert name := by
  have hmaster := (inert_getD_iff ctx.mastername).mpr h.mastername
  have hbuild := (inert_getD_iff ctx.buildname).mpr h.buildname
  unfold PageContext.directoryNames
  cases ctx.hosting <;> cases ctx.kind <;> simp [hmaster, hbuild]

/-! ## Names from reports -/

namespace Dashboard

variable {ctx : PageContext} {report : Report}

theorem inert_orKeep {name : String} {kept : Option String} (hname : Inert name)
    (hkept : ∀ s ∈ kept, Inert s) : ∀ s ∈ orKeep name kept, Inert s := by
  unfold orKeep
  split
  · exact hkept
  · rintro s ⟨⟩
    exact hname

theorem namesInert_adoptNames (h : ctx.NamesInert) (hreport : ∀ name ∈ report.names, Inert name) :
    (adoptNames ctx report).NamesInert := by
  cases report with
  | build r =>
    refine ⟨inert_orKeep (hreport _ (by simp [Report.names])) h.mastername, ?_⟩
    rintro name ⟨⟩
    exact hreport _ (by simp [Report.names])
  | history r => exact ⟨inert_orKeep (hreport _ (by simp [Report.names])) h.mastername, h.buildname⟩
  | overview r => exact h

/-- A report puts nothing but its own names into the context. -/
theorem namesInert_ctxAfter (h : ctx.NamesInert) (hreport : ∀ name ∈ report.names, Inert name) :
    (ctxAfter ctx report).NamesInert := by
  unfold ctxAfter
  split
  · exact namesInert_adoptNames h hreport
  · have hnames : (adoptNames { ctx with kind := report.kind } report).NamesInert :=
      namesInert_adoptNames ⟨h.mastername, h.buildname⟩ hreport
    exact ⟨hnames.mastername, hnames.buildname⟩

/-- After a turn the directory is made of the names in the context. -/
theorem inert_dataUrl_ctxAfter_iff (h : report.kind ≠ ctx.kind) :
    Inert (ctxAfter ctx report).dataUrl ↔
      ∀ name ∈ (ctxAfter ctx report).directoryNames, Inert name := by
  rw [ctxAfter, if_neg h]
  exact PageContext.inert_relocate_iff _

/-! ## Runs -/

theorem inert_handle {d : Dashboard} (h : d.Agrees) {e : Event} (hnames : d.ctx.NamesInert)
    (hdataUrl : Inert d.ctx.dataUrl)
    (hreport : ∀ report, e.report? = some report → ∀ name ∈ report.names, Inert name) :
    (d.handle e).ctx.NamesInert ∧ Inert (d.handle e).ctx.dataUrl := by
  constructor
  · rw [ctx_handle h]
    split
    · next report he => exact namesInert_ctxAfter hnames (hreport report he)
    · exact hnames
  · rw [dataUrl_handle h]
    split
    · next report hturn =>
      obtain ⟨he, hkind⟩ := turn?_eq_some_iff.mp hturn
      refine (inert_dataUrl_ctxAfter_iff hkind).mpr ?_
      exact (namesInert_ctxAfter hnames (hreport report he)).directoryNames
    · exact hdataUrl

theorem inert_after {ctx : PageContext} (hnames : ctx.NamesInert) (hdataUrl : Inert ctx.dataUrl)
    (settings : DashboardSettings) {es : List Event}
    (hreports : ∀ e ∈ es, ∀ report, e.report? = some report → ∀ name ∈ report.names, Inert name) :
    ((new ctx settings).after es).ctx.NamesInert ∧
      Inert ((new ctx settings).after es).ctx.dataUrl := by
  induction es using List.reverseRecOn with
  | nil => exact ⟨hnames, hdataUrl⟩
  | append_singleton es e ih =>
    obtain ⟨hes, he⟩ := List.forall_mem_append.mp hreports
    obtain ⟨hnames, hdataUrl⟩ := ih hes
    rw [after_concat]
    exact inert_handle (reachable_after ctx settings es).agrees hnames hdataUrl
      (he e (List.mem_singleton_self e))

end Dashboard

open Dashboard

/-- The directory of a page that was asked for by names without markup. After a run it holds none
exactly if the names hold none that the context had at the last turn, as it is where no document
gives a name with markup. -/
theorem inert_dataUrl_after_iff (kind : PageKind) (hosting : Hosting)
    {mastername buildname : Option String} (hmaster : ∀ name ∈ mastername, Inert name)
    (hbuild : ∀ name ∈ buildname, Inert name) (settings : DashboardSettings) (es : List Event) :
    let start := new (.new kind hosting mastername buildname) settings
    (Inert (start.after es).ctx.dataUrl ↔
      ∀ before report, start.lastTurn? es = some (before, report) →
        ∀ name ∈ (ctxAfter before.ctx report).directoryNames, Inert name) ∧
    ((∀ e ∈ es, ∀ report, e.report? = some report → ∀ name ∈ report.names, Inert name) →
      Inert (start.after es).ctx.dataUrl) := by
  intro start
  have hnames : (PageContext.new kind hosting mastername buildname).NamesInert := ⟨hmaster, hbuild⟩
  have hasked : Inert (PageContext.new kind hosting mastername buildname).dataUrl :=
    (PageContext.inert_relocate_iff _).mpr hnames.directoryNames
  refine ⟨?_, fun hreports => (inert_after hnames hasked settings hreports).2⟩
  rw [dataUrl_after]
  cases hlast : start.lastTurn? es with
  | none =>
    refine iff_of_true hasked ?_
    intro before report hturn
    cases hturn
  | some turn =>
    obtain ⟨before, report⟩ := turn
    obtain ⟨-, e, -, -, -, hturn⟩ := turn_of_lastTurn? hlast
    refine (inert_dataUrl_ctxAfter_iff (turn?_eq_some_iff.mp hturn).2).trans ?_
    constructor
    · rintro hinert _ _ ⟨⟩
      exact hinert
    · exact fun hinert => hinert before report rfl

/-- A build's document with nothing in it but names. -/
def namingDocument (mastername buildname : String) : Document :=
  .object [("buildname", .text buildname), ("mastername", .text mastername)]

/-- A history page that comes to the document of a build of another master. -/
theorem inert_dataUrl_after_plain_names :
    let start := new (.new .jail .hosted (some "m") none) ⟨100, 1, 0, 1, none⟩
    let d := start.after [.document (namingDocument "n" "b") 0]
    (∀ name ∈ some "m", Inert name) ∧ (∀ name ∈ none, Inert name) ∧
      d.ctx.dataUrl = "data/n/b/" ∧ Inert d.ctx.dataUrl := by
  intro start d
  have hmaster : ∀ name ∈ some "m", Inert name := by
    rintro _ ⟨⟩
    decide
  have hbuild : ∀ name ∈ none, Inert name := nofun
  obtain ⟨-, hinert⟩ := inert_dataUrl_after_iff .jail .hosted hmaster hbuild ⟨100, 1, 0, 1, none⟩
    [.document (namingDocument "n" "b") 0]
  refine ⟨hmaster, hbuild, by decide +kernel, hinert ?_⟩
  intro e he report hreport
  obtain rfl := List.mem_singleton.mp he
  have hbuildReport : (Event.document (namingDocument "n" "b") 0).report? = some (.build _) := rfl
  obtain rfl := Option.some.inj (hbuildReport.symm.trans hreport)
  decide +kernel

/-- A build's name that opens a tag, after a turn from a page that was asked for without names. -/
theorem markup_in_dataUrl :
    let d := (new (.new .index .hosted none none) ⟨100, 1, 0, 1, none⟩).after
      [.document (namingDocument "m" "\"><script>") 0]
    d.ctx.dataUrl = "data/m/\"><script>/" ∧ ¬ Inert d.ctx.dataUrl := by
  decide +kernel

end BuildBoard
