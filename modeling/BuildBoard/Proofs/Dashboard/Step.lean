import BuildBoard.Proofs.Dashboard.Reachable
import Mathlib.Data.List.Induction

/-!
# Runs of a dashboard

A document that is not refused gives its names to the context and its contents to the page. One of
another kind than the page is a turn: it finds a blank page of its own kind, and the data directory
moves after the page has taken the report over. Nothing else that happens changes the context, or
the page beyond its layout.

Results:
1. `ctx_handle`: the context after an event.
2. `state_handle_of_none`, `state_handle_of_build`: the page after an event.
3. `lastTurn?_concat`: the last turn of a longer run.
4. `dataUrl_after`: the data directory after a run is that of its last turn.
-/

namespace BuildBoard

/-! ## Pages -/

/-- The same page, maybe laid out at another width. -/
def PageState.Laid (state state' : PageState) : Prop :=
  state' = state ∨ ∃ width, state' = state.relayout width

theorem PageState.eq_build_of_kind {state : PageState} (h : state.kind = .build) :
    ∃ p, state = .build p := by
  cases state with
  | build p => exact ⟨p, rfl⟩
  | history p => cases h
  | overview p => cases h

namespace Dashboard

/-! ## Definitions -/

/-- The report of an event: that of a document which is not refused. -/
def Event.report? : Event → Option Report
  | .document doc _ => (Report.ofDocument doc).toOption
  | .resize => none

/-- The dashboard after these events. -/
def after (d : Dashboard) (es : List Event) : Dashboard := es.foldl handle d

/-- The context after a report. -/
def ctxAfter (ctx : PageContext) (report : Report) : PageContext :=
  if report.kind = ctx.kind then adoptNames ctx report
  else (adoptNames { ctx with kind := report.kind } report).relocate

/-- The report of an event that turns the dashboard to another kind of page. -/
def turn? (d : Dashboard) (e : Event) : Option Report :=
  e.report?.filter fun report => report.kind ≠ d.ctx.kind

/-- The last turn of a run: the dashboard before it, and the report that made it. -/
def lastTurn? (d : Dashboard) : List Event → Option (Dashboard × Report)
  | [] => none
  | e :: es => ((d.handle e).lastTurn? es).or ((d.turn? e).map (d, ·))

variable {d : Dashboard} {e : Event} {report : Report}

theorem Event.report?_eq_some_iff :
    e.report? = some report ↔
      ∃ doc wallClock, e = .document doc wallClock ∧ Report.ofDocument doc = .ok report := by
  constructor
  · intro h
    cases e with
    | resize => cases h
    | document doc wallClock =>
      refine ⟨doc, wallClock, rfl, ?_⟩
      simp only [Event.report?] at h
      cases hdoc : Report.ofDocument doc with
      | error => rw [hdoc] at h; cases h
      | ok accepted =>
        rw [hdoc] at h
        rw [Option.some.inj h]
  · rintro ⟨doc, wallClock, rfl, hdoc⟩
    rw [Event.report?, hdoc]
    rfl

/-! ## The context -/

theorem dataUrl_adoptNames (ctx : PageContext) (report : Report) :
    (adoptNames ctx report).dataUrl = ctx.dataUrl := by
  cases report <;> rfl

theorem ctx_ofKind (d : Dashboard) (kind : PageKind) :
    (d.ofKind kind).ctx = { d.ctx with kind } := by
  unfold ofKind
  split
  · next h => rw [h]
  · rfl

theorem ctx_firstLoad (d : Dashboard) : d.firstLoad.ctx = d.ctx := by
  unfold firstLoad
  split <;> rfl

theorem ctx_accept (h : d.Agrees) (report : Report) (wallClock : Int) :
    (d.accept report wallClock).2.ctx = ctxAfter d.ctx report := by
  obtain ⟨state', hupdate, -⟩ := update_of_kind_eq (d.ofKind report.kind).barWidth wallClock
    (d.ofKind report.kind).ctx (ofKind_agrees h report.kind).1
  simp only [accept, hupdate, ctx_firstLoad]
  rw [ctx_ofKind, ctxAfter, ite_not]
  -- without a turn the kind that is set is the one there is
  split
  · next heq => rw [heq]
  · rfl

/-- A report changes the context, and nothing else does. -/
theorem ctx_handle (h : d.Agrees) (e : Event) :
    (d.handle e).ctx =
      match e.report? with
      | some report => ctxAfter d.ctx report
      | none => d.ctx := by
  cases e with
  | resize => rfl
  | document doc wallClock =>
    simp only [handle, process, Event.report?]
    cases Report.ofDocument doc with
    | error => rfl
    | ok report => exact ctx_accept (d := { d with scrollTo := none }) h report wallClock

theorem kind_ctxAfter (ctx : PageContext) (report : Report) :
    (ctxAfter ctx report).kind = report.kind := by
  unfold ctxAfter
  split
  · next heq => exact (kind_adoptNames ctx report).trans heq.symm
  · exact kind_adoptNames { ctx with kind := report.kind } report

/-! ## The page -/

/-- The page is of the kind of the last report. -/
theorem kind_handle_of_report (h : d.Agrees) (hreport : e.report? = some report) :
    (d.handle e).state.kind = report.kind := by
  have hkind : (d.handle e).state.kind = (d.handle e).ctx.kind := agrees_handle h e
  rw [hkind, ctx_handle h, hreport]
  exact kind_ctxAfter d.ctx report

theorem laid_firstLoad (d : Dashboard) : d.state.Laid d.firstLoad.state := by
  unfold firstLoad
  split
  · exact .inr ⟨_, rfl⟩
  · exact .inl rfl

/-- Without a report the page is at most laid out again. -/
theorem state_handle_of_none (h : e.report? = none) : d.state.Laid (d.handle e).state := by
  cases e with
  | resize => exact .inr ⟨_, rfl⟩
  | document doc wallClock =>
    simp only [Event.report?] at h
    simp only [handle, process]
    cases hdoc : Report.ofDocument doc with
    | error => exact .inl rfl
    | ok report =>
      rw [hdoc] at h
      cases h

/-- The page that a build's report finds: the one there is, or a blank one on a turn. -/
def buildPage (d : Dashboard) : BuildPage :=
  match d.state with
  | .build p => p
  | _ => BuildPage.new d.settings.window

theorem buildPage_of_kind_ne (h : d.state.kind ≠ .build) :
    d.buildPage = BuildPage.new d.settings.window := by
  unfold buildPage
  cases hstate : d.state with
  | build p => exact absurd (hstate ▸ rfl) h
  | _ => rfl

theorem state_ofKind_build (h : d.Agrees) : (d.ofKind .build).state = .build d.buildPage := by
  unfold ofKind
  rw [← show d.state.kind = d.ctx.kind from h, buildPage]
  cases hstate : d.state with
  | build p => exact hstate
  | history p => rfl
  | overview p => rfl

/-- A build's report is taken over in the data directory from before it. -/
theorem laid_accept_build (h : d.Agrees) (r : BuildReport) (wallClock : Int) :
    ∃ ctx, ctx.dataUrl = d.ctx.dataUrl ∧ ∃ width,
      PageState.Laid (.build (d.buildPage.update ctx r width wallClock))
        (d.accept (.build r) wallClock).2.state := by
  refine ⟨adoptNames (d.ofKind .build).ctx (.build r), ?_, (d.ofKind .build).barWidth, ?_⟩
  · rw [dataUrl_adoptNames, ctx_ofKind]
  · simp only [accept, Report.kind, state_ofKind_build h]
    exact laid_firstLoad _

theorem state_handle_of_build (h : d.Agrees) {r : BuildReport}
    (hreport : e.report? = some (.build r)) :
    ∃ ctx, ctx.dataUrl = d.ctx.dataUrl ∧ ∃ width wallClock,
      PageState.Laid (.build (d.buildPage.update ctx r width wallClock)) (d.handle e).state := by
  obtain ⟨doc, wallClock, rfl, hdoc⟩ := Event.report?_eq_some_iff.mp hreport
  obtain ⟨ctx, hctx, width, hlaid⟩ :=
    laid_accept_build (d := { d with scrollTo := none }) h r wallClock
  refine ⟨ctx, hctx, width, wallClock, ?_⟩
  simp only [handle, process, hdoc]
  exact hlaid

/-! ## Runs -/

theorem after_concat (d : Dashboard) (es : List Event) (e : Event) :
    d.after (es ++ [e]) = (d.after es).handle e := List.foldl_append

theorem reachable_after (ctx : PageContext) (settings : DashboardSettings) (es : List Event) :
    Reachable ((new ctx settings).after es) := by
  induction es using List.reverseRecOn with
  | nil => exact .new ctx settings
  | append_singleton es e ih => exact after_concat _ es e ▸ .handle e ih

theorem lastTurn?_concat (d : Dashboard) (es : List Event) (e : Event) :
    d.lastTurn? (es ++ [e]) =
      (((d.after es).turn? e).map (d.after es, ·)).or (d.lastTurn? es) := by
  induction es generalizing d with
  | nil => exact (Option.or_none).symm
  | cons first es ih =>
    simp only [List.cons_append, lastTurn?, ih, Option.or_assoc]
    rfl

theorem turn?_eq_some_iff :
    d.turn? e = some report ↔ e.report? = some report ∧ report.kind ≠ d.ctx.kind := by
  rw [turn?, Option.filter_eq_some_iff, decide_eq_true_iff]

theorem turn?_eq_none_iff :
    d.turn? e = none ↔ ∀ report, e.report? = some report → report.kind = d.ctx.kind := by
  simp only [turn?, Option.filter_eq_none_iff, decide_eq_true_iff, ne_eq, Decidable.not_not]

theorem lastTurn?_concat_of_none {es : List Event} (h : (d.after es).turn? e = none) :
    d.lastTurn? (es ++ [e]) = d.lastTurn? es := by
  rw [lastTurn?_concat, h]
  rfl

theorem lastTurn?_concat_of_some {es : List Event} (h : (d.after es).turn? e = some report) :
    d.lastTurn? (es ++ [e]) = some (d.after es, report) := by
  rw [lastTurn?_concat, h]
  rfl

/-- The last turn is a turn at some point of the run. -/
theorem turn_of_lastTurn? {es : List Event} {before : Dashboard}
    (h : d.lastTurn? es = some (before, report)) :
    ∃ es' e rest, es = es' ++ e :: rest ∧ before = d.after es' ∧ before.turn? e = some report := by
  induction es using List.reverseRecOn with
  | nil => cases h
  | append_singleton es e ih =>
    cases hturn : (d.after es).turn? e with
    | some last =>
      rw [lastTurn?_concat_of_some hturn] at h
      cases h
      exact ⟨es, e, [], rfl, rfl, hturn⟩
    | none =>
      rw [lastTurn?_concat_of_none hturn] at h
      obtain ⟨es', e', rest, rfl, hbefore, hreport⟩ := ih h
      exact ⟨es', e', rest ++ [e], by simp, hbefore, hreport⟩

/-- Without a turn the data directory is what it was. -/
theorem dataUrl_handle (h : d.Agrees) (e : Event) :
    (d.handle e).ctx.dataUrl =
      match d.turn? e with
      | some report => (ctxAfter d.ctx report).dataUrl
      | none => d.ctx.dataUrl := by
  rw [ctx_handle h]
  cases hturn : d.turn? e with
  | some report => rw [(turn?_eq_some_iff.mp hturn).1]
  | none =>
    split
    · next report hreport =>
      rw [ctxAfter, if_pos (turn?_eq_none_iff.mp hturn report hreport), dataUrl_adoptNames]
    · rfl

/-- The data directory after a run is that of its last turn. -/
theorem dataUrl_after (ctx : PageContext) (settings : DashboardSettings) (es : List Event) :
    ((new ctx settings).after es).ctx.dataUrl =
      match (new ctx settings).lastTurn? es with
      | some (d, report) => (ctxAfter d.ctx report).dataUrl
      | none => ctx.dataUrl := by
  induction es using List.reverseRecOn with
  | nil => rfl
  | append_singleton es e ih =>
    rw [after_concat, dataUrl_handle (reachable_after ctx settings es).agrees, lastTurn?_concat]
    cases ((new ctx settings).after es).turn? e with
    | some report => rfl
    | none => exact ih

end Dashboard

end BuildBoard
