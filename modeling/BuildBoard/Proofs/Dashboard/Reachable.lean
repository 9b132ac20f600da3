import BuildBoard.Dashboard

/-!
# Reachable dashboards

A dashboard changes with the documents that it is given, accepted or refused, and when it is
resized. It starts blank, on a page of any kind.

Results:
1. `accept_fst`: what a report means for polling, on a page of the kind that the context names.
2. `agrees_handle`: nothing that happens sets page and context apart.
3. `Reachable.agrees`: page and context agree in every reachable dashboard.
-/

namespace BuildBoard

/-! ## Kinds -/

namespace PageState

@[simp] theorem kind_relayout (width : Nat) (state : PageState) :
    (state.relayout width).kind = state.kind := by
  cases state <;> rfl

end PageState

/-- What a report means for polling, on a page of its kind. -/
def Report.verdict : Report → Verdict
  | .build r => BuildPage.verdict r
  | _ => .proceed

namespace Dashboard

/-- What can happen to a dashboard. -/
inductive Event where
  | document (doc : Document) (wallClock : Int)
  | resize

/-- The dashboard after an event. -/
def handle (d : Dashboard) : Event → Dashboard
  | .document doc wallClock => (d.process doc wallClock).2
  | .resize => d.resize

/-- A dashboard that events lead to. -/
inductive Reachable : Dashboard → Prop
  | new (ctx : PageContext) (settings : DashboardSettings) : Reachable (new ctx settings)
  | handle {d : Dashboard} (e : Event) : Reachable d → Reachable (d.handle e)

/-- The page is of the kind that the context names. -/
def Agrees (d : Dashboard) : Prop := d.state.kind = d.ctx.kind

variable {d : Dashboard}

theorem kind_adoptNames (ctx : PageContext) (report : Report) :
    (adoptNames ctx report).kind = ctx.kind := by
  cases report <;> rfl

/-- A report is taken over by a page of its own kind. -/
theorem update_of_kind_eq (width : Nat) (wallClock : Int) (ctx : PageContext) {report : Report}
    {state : PageState} (h : state.kind = report.kind) :
    ∃ state',
      update width wallClock ctx report state = (report.verdict, adoptNames ctx report, state') ∧
        state'.kind = state.kind := by
  cases report <;> cases state
  case build.build => exact ⟨_, rfl, rfl⟩
  case history.history => exact ⟨_, rfl, rfl⟩
  case overview.overview => exact ⟨_, rfl, rfl⟩
  all_goals exact nomatch h

theorem ofKind_agrees (h : d.Agrees) (kind : PageKind) :
    (d.ofKind kind).state.kind = kind ∧ (d.ofKind kind).ctx.kind = kind := by
  unfold ofKind
  split
  · next heq => exact ⟨h.trans heq.symm, heq.symm⟩
  · exact ⟨PageState.kind_blank _ _, rfl⟩

theorem agrees_resize (h : d.Agrees) : d.resize.Agrees :=
  (PageState.kind_relayout _ d.state).trans h

theorem agrees_firstLoad (h : d.Agrees) : d.firstLoad.Agrees := by
  unfold firstLoad
  split
  · exact agrees_resize h
  · exact h

theorem accept_fst (h : d.Agrees) (report : Report) (wallClock : Int) :
    (d.accept report wallClock).1 = report.verdict := by
  obtain ⟨state', hupdate, -⟩ := update_of_kind_eq (d.ofKind report.kind).barWidth wallClock
    (d.ofKind report.kind).ctx (ofKind_agrees h report.kind).1
  simp only [accept, hupdate]

theorem agrees_accept (h : d.Agrees) (report : Report) (wallClock : Int) :
    (d.accept report wallClock).2.Agrees := by
  obtain ⟨hstate, hctx⟩ := ofKind_agrees h report.kind
  obtain ⟨state', hupdate, hkind⟩ := update_of_kind_eq (d.ofKind report.kind).barWidth wallClock
    (d.ofKind report.kind).ctx hstate
  have hnames := (kind_adoptNames (d.ofKind report.kind).ctx report).trans hctx
  simp only [accept, hupdate]
  refine agrees_firstLoad ?_
  refine (hkind.trans hstate).trans ?_
  dsimp only
  -- moving the data directory keeps the kind
  split
  · exact hnames.symm
  · exact hnames.symm

theorem agrees_process (h : d.Agrees) (doc : Document) (wallClock : Int) :
    (d.process doc wallClock).2.Agrees := by
  unfold process
  dsimp only
  split
  · exact h
  · next report _ => exact agrees_accept (d := { d with scrollTo := none }) h report wallClock

theorem agrees_handle (h : d.Agrees) (e : Event) : (d.handle e).Agrees := by
  cases e with
  | document doc wallClock => exact agrees_process h doc wallClock
  | resize => exact agrees_resize h

theorem Reachable.agrees (h : Reachable d) : d.Agrees := by
  induction h with
  | new ctx settings => exact PageState.kind_blank settings ctx.kind
  | handle e _ ih => exact agrees_handle ih e

end Dashboard

end BuildBoard
