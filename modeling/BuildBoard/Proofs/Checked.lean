import BuildBoard.Poll
import BuildBoard.Proofs.Dashboard.Step
import BuildBoard.Proofs.Page.Parts

/-!
# Checked calculations

A checked calculation makes one figure after the other and breaks off at the first that fits no
word. As long as none does, the words that it goes on with are the exact figures, so its figures can
be told from the plain calculation: they are listed here for everything that calculates, in the
order in which they are made, and each checked form is shown to be its plain one under these figures.

Results:
1. `outcome_eq_ok_iff`, `outcome_eq_error_iff`: what comes of a list of figures.
2. `outcome_bind`, `mapM_eq_outcome`: the figures of calculations one after the other.
3. `Stats.checkedRemaining_eq`, `Progress.checkedPercent_eq`, `RateWindow.checkedRecord_eq`,
   `Duration.checkedBetween_eq`: the calculations.
4. `BuildPage.checkedUpdate_eq`, `Dashboard.checkedProcess_eq`: a page and a document.
5. `Dashboard.checkedAfter_eq`, `Poller.checkedRun_eq`: runs.
-/

namespace BuildBoard

/-! ## Figures one after the other -/

namespace Checked

/-- What comes of a calculation with this result and these figures. -/
def outcome (a : α) : List Figure → Checked α
  | [] => pure a
  | f :: rest => if f.Fits then outcome a rest else throw f

variable {a b : α} {l : List Figure} {f : Figure}

theorem outcome_eq_ok_iff : outcome a l = .ok b ↔ (∀ f ∈ l, f.Fits) ∧ a = b := by
  induction l with
  | nil => exact ⟨fun h => ⟨nofun, Except.ok.inj h⟩, fun ⟨_, h⟩ => congrArg Except.ok h⟩
  | cons f rest ih =>
    rw [outcome, List.forall_mem_cons]
    split
    · next hfits => rw [ih, and_iff_right hfits]
    · next hfits => exact iff_of_false nofun fun h => hfits h.1.1

/-- It breaks off at the first figure that does not fit. -/
theorem outcome_eq_error_iff :
    outcome a l = .error f ↔
      ∃ before after, l = before ++ f :: after ∧ (∀ g ∈ before, g.Fits) ∧ ¬ f.Fits := by
  induction l with
  | nil => exact iff_of_false nofun fun ⟨before, after, h, _⟩ => by simp at h
  | cons first rest ih =>
    rw [outcome]
    split
    · next hfits =>
      rw [ih]
      constructor
      · rintro ⟨before, after, rfl, hbefore, hf⟩
        exact ⟨first :: before, after, rfl, List.forall_mem_cons.mpr ⟨hfits, hbefore⟩, hf⟩
      · rintro ⟨before, after, h, hbefore, hf⟩
        obtain ⟨rfl, -⟩ | ⟨before, rfl, hrest⟩ := List.cons_eq_append_iff.mp h
        · cases h
          exact absurd hfits hf
        · exact ⟨before, after, hrest, (List.forall_mem_cons.mp hbefore).2, hf⟩
    · next hfits =>
      constructor
      · intro h
        obtain rfl : first = f := Except.error.inj h
        exact ⟨[], rest, rfl, nofun, hfits⟩
      · rintro ⟨before, after, h, hbefore, -⟩
        obtain ⟨rfl, h⟩ | ⟨before, rfl, -⟩ := List.cons_eq_append_iff.mp h
        · cases h
          rfl
        · exact absurd (hbefore first List.mem_cons_self) hfits

/-- Where it breaks off is not a question of its result. -/
theorem outcome_error {b : β} (h : outcome a l = .error f) : outcome b l = .error f :=
  outcome_eq_error_iff.mpr (outcome_eq_error_iff.mp h)

/-- The figures of two calculations one after the other. -/
theorem outcome_bind {l' : List Figure} {b : β} {next : α → Checked β}
    (h : next a = outcome b l') : (outcome a l >>= next) = outcome b (l ++ l') := by
  induction l with
  | nil => exact h
  | cons f rest ih =>
    rw [List.cons_append, outcome, outcome]
    split
    · exact ih
    · rfl

theorem outcome_append {l' : List Figure} :
    outcome a (l ++ l') = outcome () l >>= fun _ => outcome a l' := by
  have hbind : (outcome () l >>= fun _ => outcome a l') = outcome a (l ++ l') := outcome_bind rfl
  exact hbind.symm

theorem outcome_map {next : α → Checked β} {b : β} (h : next a = pure b) :
    (outcome a l >>= next) = outcome b l := by
  have hbind : (outcome a l >>= next) = outcome b (l ++ []) := outcome_bind h
  rwa [List.append_nil] at hbind

theorem mapM_eq_outcome {checked : α → Checked β} {plain : α → β} {figures : α → List Figure}
    (h : ∀ a, checked a = outcome (plain a) (figures a)) (as : List α) :
    as.mapM checked = outcome (as.map plain) (as.flatMap figures) := by
  induction as with
  | nil => rfl
  | cons a as ih =>
    rw [List.mapM_cons, h, ih]
    exact outcome_bind (outcome_map rfl)

end Checked

open Checked

theorem Figure.checked_eq (f : Figure) : f.checked = outcome (word f.value) [f] := by
  rw [checked, outcome]
  split
  · next hfits => rw [(word_eq_self_iff _).mpr hfits]; rfl
  · rfl

/-- A calculation that begins with a figure goes on with it as a word. -/
theorem Figure.checked_bind {f : Figure} {l : List Figure} {b : β} {next : Int → Checked β}
    (h : next (word f.value) = outcome b l) : (f.checked >>= next) = outcome b (f :: l) := by
  rw [checked_eq]
  exact outcome_bind h

/-! ## Counters -/

namespace Stats

/-- The differences when one number after the other is taken away. -/
def differences (left : Int) : List Int → List Figure
  | [] => []
  | n :: rest => .difference left n :: differences (word (left - n)) rest

/-- For the packages that remain: one difference for each outcome. -/
def remainingFigures (s : Stats) : List Figure := differences s.queued s.outcomes

/-- For the packages that do not remain. -/
def percentFigures (s : Stats) : List Figure :=
  if s.queued = 0 then [] else s.remainingFigures ++ [.difference s.queued s.remaining]

/-- For percentage and bar. A bar that is too narrow is not laid out. -/
def barFigures (s : Stats) (width : Nat) : List Figure :=
  s.percentFigures ++ if width < 3 then [] else s.remainingFigures ++ s.percentFigures

theorem foldlM_difference (left : Int) (outcomes : List Int) :
    outcomes.foldlM (fun left n => (Figure.difference left n).checked) left =
      outcome (outcomes.foldl (fun left n => word (left - n)) left)
        (differences left outcomes) := by
  induction outcomes generalizing left with
  | nil => rfl
  | cons n rest ih =>
    rw [List.foldlM_cons]
    exact Figure.checked_bind (ih _)

variable (s : Stats)

theorem checkedRemaining_eq : s.checkedRemaining = outcome s.remaining s.remainingFigures :=
  foldlM_difference s.queued s.outcomes

theorem checkedCount_eq (c : Category) :
    s.checkedCount c =
      outcome (s.count c) (if c = .remaining then s.remainingFigures else []) := by
  cases c
  case remaining => exact s.checkedRemaining_eq
  all_goals rfl

theorem checkedAttempted_eq :
    s.checkedAttempted = outcome s.attempted [.sum s.built s.failed] := Figure.checked_eq _

theorem checkedCounterCells_eq (stats : Option Stats) :
    checkedCounterCells stats =
      outcome (counterCells stats) (stats.toList.flatMap remainingFigures) := by
  cases stats with
  | none => rfl
  | some s =>
    rw [checkedCounterCells, checkedRemaining_eq, Option.toList_some, List.flatMap_singleton]
    exact outcome_map rfl

end Stats

namespace Progress

variable (stats : Stats)

theorem checkedPercent_eq :
    checkedPercent stats = outcome (percent stats) stats.percentFigures := by
  unfold checkedPercent percent Stats.percentFigures
  split
  · rfl
  · rw [stats.checkedRemaining_eq]
    exact outcome_bind (Figure.checked_bind rfl)

theorem checkedLayout_eq (width : Nat) :
    checkedLayout stats width =
      outcome (layout stats width)
        (if width < 3 then [] else stats.remainingFigures ++ stats.percentFigures) := by
  unfold checkedLayout layout
  split
  · rfl
  · rw [stats.checkedRemaining_eq, checkedPercent_eq]
    exact outcome_bind (outcome_map rfl)

end Progress

/-! ## Samples and durations -/

namespace RateWindow

/-- For the rate between two samples: packages and time, where both have a time. -/
def rateFigures (newest oldest : Sample) : List Figure :=
  match newest.elapsed, oldest.elapsed with
  | some now, some before =>
    [.difference newest.attempted oldest.attempted, .difference now before]
  | _, _ => []

/-- For the rate of a sample, taken from the oldest one that is kept. -/
def figures (w : RateWindow) (sample : Sample) : List Figure :=
  if w.recorded < w.firstPoll then []
  else ((w.place sample)[w.tailIndex]?).toList.flatMap (rateFigures sample)

theorem perHour_word (pkgs secs : Int) : Rate.perHour (word pkgs) (word secs) =
    Rate.perHour pkgs secs := by
  unfold Rate.perHour
  rw [word_word, word_word]

theorem checkedRateBetween_eq (newest oldest : Sample) :
    checkedRateBetween newest oldest =
      outcome (rateBetween newest oldest) (rateFigures newest oldest) := by
  unfold checkedRateBetween rateBetween rateFigures
  cases newest.elapsed with
  | none => rfl
  | some now =>
    cases oldest.elapsed with
    | none => rfl
    | some before =>
      exact Figure.checked_bind (Figure.checked_bind (congrArg pure (perHour_word _ _)))

theorem checkedReading_eq (w : RateWindow) (sample : Sample) :
    w.checkedReading sample = outcome (w.reading sample) (w.figures sample) := by
  unfold checkedReading reading figures
  split
  · rfl
  · cases (w.place sample)[w.tailIndex]? with
    | none => rfl
    | some oldest =>
      rw [Option.toList_some, List.flatMap_singleton]
      dsimp only
      rw [checkedRateBetween_eq]
      exact outcome_map rfl

theorem checkedRecord_eq (w : RateWindow) (sample : Sample) :
    w.checkedRecord sample = outcome (w.record sample) (w.figures sample) := by
  rw [checkedRecord, checkedReading_eq]
  exact outcome_map rfl

end RateWindow

/-- For the time between two moments, where both are known. -/
def Duration.figures (start stop : Option Int) : List Figure :=
  match start, stop with
  | some start, some stop => if start = 0 then [] else [.difference stop start]
  | _, _ => []

theorem Duration.checkedBetween_eq (start stop : Option Int) :
    checkedBetween start stop = outcome (between start stop) (figures start stop) := by
  unfold checkedBetween between figures
  cases start with
  | none => rfl
  | some start =>
    cases stop with
    | none => dsimp only; split <;> rfl
    | some stop =>
      dsimp only
      split
      · rfl
      · exact Figure.checked_bind rfl

/-! ## Pages -/

namespace BuildPage

/-- For the bar of a page that is drawn at a width. -/
def relayoutFigures (p : BuildPage) (width : Nat) : List Figure :=
  p.stats.toList.flatMap fun stats => stats.barFigures width

/-- For the counters of a report. -/
def statsFigures (r : BuildReport) (width : Nat) : List Figure :=
  r.stats.toList.flatMap fun stats => stats.barFigures width

/-- For the times of a report's builders. -/
def builderFigures (r : BuildReport) (now : Int) : List Figure :=
  (r.jobs.getD []).flatMap fun job => Duration.figures job.started (some now)

/-- For the rates of a report, from a window of samples. -/
def snapFigures (r : BuildReport) (w : RateWindow) : List Figure :=
  match r.stats, r.snap with
  | some stats, some snap =>
    .sum stats.built stats.failed :: w.figures ⟨stats.attempted, snap.stats.elapsed⟩
  | _, _ => []

/-- For a report that the page takes over. -/
def figures (p : BuildPage) (r : BuildReport) (width : Nat) (wallClock : Int) : List Figure :=
  statsFigures r width ++ (builderFigures r (clockOf r wallClock) ++ snapFigures r p.window)

theorem checkedRelayout_eq (p : BuildPage) (width : Nat) :
    p.checkedRelayout width = outcome (p.relayout width) (p.relayoutFigures width) := by
  unfold checkedRelayout relayout relayoutFigures
  cases p.stats with
  | none => rfl
  | some stats =>
    dsimp only
    rw [Progress.checkedPercent_eq, Progress.checkedLayout_eq, Option.toList_some,
      List.flatMap_singleton]
    exact outcome_bind (outcome_map rfl)

variable (r : BuildReport)

theorem checkedUpdateStats_eq (p : BuildPage) (width : Nat) :
    p.checkedUpdateStats r width = outcome (p.updateStats r width) (statsFigures r width) := by
  unfold checkedUpdateStats updateStats statsFigures
  cases r.stats with
  | none => rfl
  | some stats => exact checkedRelayout_eq { p with stats := some stats } width

theorem checkedOfJob_eq (now : Int) (job : Job) :
    BuilderRow.checkedOfJob now job =
      outcome (BuilderRow.ofJob now job) (Duration.figures job.started (some now)) := by
  rw [BuilderRow.checkedOfJob, Duration.checkedBetween_eq]
  exact outcome_map rfl

theorem checkedBuilderRows_eq (now : Int) (jobs : List Job) :
    checkedBuilderRows r now jobs =
      outcome (builderRows r now jobs)
        (jobs.flatMap fun job => Duration.figures job.started (some now)) := by
  rw [checkedBuilderRows, mapM_eq_outcome (checkedOfJob_eq now)]
  exact outcome_map rfl

theorem checkedUpdateBuilders_eq (p : BuildPage) (now : Int) :
    p.checkedUpdateBuilders r now = outcome (p.updateBuilders r now) (builderFigures r now) := by
  unfold checkedUpdateBuilders updateBuilders builderFigures
  cases r.jobs with
  | none => rfl
  | some jobs =>
    dsimp only [Option.getD_some]
    rw [checkedBuilderRows_eq]
    exact outcome_map rfl

theorem checkedUpdateSnap_eq (p : BuildPage) :
    p.checkedUpdateSnap r = outcome (p.updateSnap r) (snapFigures r p.window) := by
  unfold checkedUpdateSnap updateSnap snapFigures
  cases r.stats with
  | none => rfl
  | some stats =>
    cases r.snap with
    | none => rfl
    | some snap =>
      dsimp only
      rw [stats.checkedAttempted_eq]
      refine outcome_bind ?_
      rw [RateWindow.checkedRecord_eq]
      exact outcome_map rfl

theorem checkedUpdate_eq (ctx : PageContext) (p : BuildPage) (width : Nat) (wallClock : Int) :
    p.checkedUpdate ctx r width wallClock =
      outcome (p.update ctx r width wallClock) (p.figures r width wallClock) := by
  have hwindow : ((updateInfo r (p.updateStats r width)).updateBuilders r
      (clockOf r wallClock)).window = p.window := by
    obtain ⟨stats, percent, bar, hstats⟩ := updateStats_eq r p width
    obtain ⟨builders, hbuilders⟩ := updateBuilders_eq r (updateInfo r (p.updateStats r width))
      (clockOf r wallClock)
    rw [hbuilders, hstats]
    rfl
  rw [checkedUpdate, checkedUpdateStats_eq]
  refine outcome_bind ?_
  rw [checkedUpdateBuilders_eq]
  refine outcome_bind ?_
  rw [checkedUpdateSnap_eq, hwindow]
  exact outcome_map rfl

/-- For the counters that are drawn. -/
def renderFigures (p : BuildPage) : List Figure := p.stats.toList.flatMap Stats.remainingFigures

theorem checkedRender_eq (ctx : PageContext) (p : BuildPage) :
    p.checkedRender ctx = outcome (p.render ctx) p.renderFigures := by
  have hcounters (stats : Stats) :
      (counterOrder.flatMap fun c => if c = .remaining then stats.remainingFigures else []) =
        stats.remainingFigures := List.append_nil _
  unfold checkedRender renderFigures
  cases p.stats with
  | none => rfl
  | some stats =>
    dsimp only
    rw [mapM_eq_outcome stats.checkedCount_eq, hcounters, Option.toList_some,
      List.flatMap_singleton]
    exact outcome_map rfl

end BuildPage

/-- For a listed build: the packages that remain. -/
def BuildSummary.figures (b : BuildSummary) : List Figure :=
  b.stats.toList.flatMap Stats.remainingFigures

def HistoryReport.figures (r : HistoryReport) : List Figure :=
  r.builds.flatMap fun build => build.2.figures

def OverviewReport.figures (r : OverviewReport) : List Figure :=
  r.built.flatMap fun master => master.2.figures

theorem HistoryPage.checkedUpdate_eq (r : HistoryReport) (p : HistoryPage) :
    p.checkedUpdate r = outcome (p.update r) r.figures := by
  have hrow (build : String × BuildSummary) : BuildRow.checkedOfSummary r.mastername build =
      outcome (BuildRow.ofSummary r.mastername build) build.2.figures := by
    rw [BuildRow.checkedOfSummary, Stats.checkedCounterCells_eq]
    exact outcome_map rfl
  rw [checkedUpdate, mapM_eq_outcome hrow]
  exact outcome_map rfl

theorem OverviewPage.checkedUpdate_eq (r : OverviewReport) (p : OverviewPage) :
    p.checkedUpdate r = outcome (p.update r) r.figures := by
  have hrow (master : String × BuildSummary) :
      MasterRow.checkedOfSummary master.1 master.2 =
        outcome (MasterRow.ofSummary master.1 master.2) master.2.figures := by
    rw [MasterRow.checkedOfSummary, Stats.checkedCounterCells_eq]
    exact outcome_map rfl
  have hrows : r.built.map (fun master => MasterRow.ofSummary master.1 master.2) = rowsOf r := by
    simp [OverviewReport.built, rowsOf, List.map_filterMap, Function.comp_def]
  rw [checkedUpdate, mapM_eq_outcome hrow, hrows]
  exact outcome_map rfl

/-! ## Dashboards -/

def PageState.relayoutFigures (width : Nat) : PageState → List Figure
  | .build p => p.relayoutFigures width
  | _ => []

theorem PageState.checkedRelayout_eq (width : Nat) (state : PageState) :
    state.checkedRelayout width = outcome (state.relayout width) (state.relayoutFigures width) := by
  cases state with
  | build p =>
    rw [checkedRelayout, p.checkedRelayout_eq]
    exact outcome_map rfl
  | history p => rfl
  | overview p => rfl

namespace Dashboard

/-- For the bar, when it is drawn again. -/
def resizeFigures (d : Dashboard) : List Figure :=
  d.state.relayoutFigures (Progress.barWidth d.settings.columnWidth)

/-- For the bar, at the end of loading. -/
def firstLoadFigures (d : Dashboard) : List Figure := if d.loading then d.resizeFigures else []

/-- For a report that a page takes over. -/
def updateFigures (width : Nat) (wallClock : Int) : Report → PageState → List Figure
  | .build r, .build p => p.figures r width wallClock
  | .history r, .history _ => r.figures
  | .overview r, .overview _ => r.figures
  | _, _ => []

def acceptFigures (d : Dashboard) (report : Report) (wallClock : Int) : List Figure :=
  let page := d.ofKind report.kind
  let (_, ctx, state) := update page.barWidth wallClock page.ctx report page.state
  updateFigures page.barWidth wallClock report page.state ++
    { page with ctx, state }.firstLoadFigures

/-- For a document; nothing is calculated from one that is refused. -/
def processFigures (d : Dashboard) (doc : Document) (wallClock : Int) : List Figure :=
  match Report.ofDocument doc with
  | .error _ => []
  | .ok report => { d with scrollTo := none }.acceptFigures report wallClock

/-- For the page, when it is drawn. -/
def renderFigures (d : Dashboard) : List Figure :=
  match d.state with
  | .build p => p.renderFigures
  | _ => []

variable (d : Dashboard)

theorem checkedRender_eq : d.checkedRender = outcome d.render d.renderFigures := by
  unfold checkedRender render renderFigures
  cases d.state with
  | build p => exact BuildPage.checkedRender_eq d.ctx p
  | history p => rfl
  | overview p => rfl

theorem checkedResize_eq : d.checkedResize = outcome d.resize d.resizeFigures := by
  rw [checkedResize, PageState.checkedRelayout_eq]
  exact outcome_map rfl

theorem checkedFirstLoad_eq : d.checkedFirstLoad = outcome d.firstLoad d.firstLoadFigures := by
  unfold checkedFirstLoad firstLoad firstLoadFigures
  split
  · rw [checkedResize_eq]
    exact outcome_map rfl
  · rfl

theorem checkedUpdate_eq (width : Nat) (wallClock : Int) (ctx : PageContext) (report : Report)
    (state : PageState) :
    checkedUpdate width wallClock ctx report state =
      outcome (update width wallClock ctx report state)
        (updateFigures width wallClock report state) := by
  cases report <;> cases state
  case build.build r p =>
    rw [checkedUpdate, BuildPage.checkedUpdate_eq]
    exact outcome_map rfl
  case history.history r p =>
    rw [checkedUpdate, HistoryPage.checkedUpdate_eq]
    exact outcome_map rfl
  case overview.overview r p =>
    rw [checkedUpdate, OverviewPage.checkedUpdate_eq]
    exact outcome_map rfl
  all_goals rfl

theorem checkedAccept_eq (report : Report) (wallClock : Int) :
    d.checkedAccept report wallClock =
      outcome (d.accept report wallClock) (d.acceptFigures report wallClock) := by
  rw [checkedAccept, checkedUpdate_eq]
  refine outcome_bind ?_
  dsimp only
  rw [checkedFirstLoad_eq]
  exact outcome_map rfl

theorem checkedProcess_eq (doc : Document) (wallClock : Int) :
    d.checkedProcess doc wallClock =
      outcome (d.process doc wallClock) (d.processFigures doc wallClock) := by
  unfold checkedProcess process processFigures
  cases Report.ofDocument doc with
  | error e => rfl
  | ok report =>
    dsimp only
    rw [checkedAccept_eq]
    exact outcome_map rfl

/-! ## Runs -/

def checkedHandle : Event → Checked Dashboard
  | .document doc wallClock => return (← d.checkedProcess doc wallClock).2
  | .resize => d.checkedResize

def figures : Event → List Figure
  | .document doc wallClock => d.processFigures doc wallClock
  | .resize => d.resizeFigures

/-- The dashboard after these events, unless one of them breaks off. -/
def checkedAfter (es : List Event) : Checked Dashboard := es.foldlM checkedHandle d

/-- All figures of a run. -/
def runFigures : Dashboard → List Event → List Figure
  | _, [] => []
  | d, e :: es => d.figures e ++ runFigures (d.handle e) es

theorem checkedHandle_eq (e : Event) :
    d.checkedHandle e = outcome (d.handle e) (d.figures e) := by
  cases e with
  | document doc wallClock =>
    rw [checkedHandle, checkedProcess_eq]
    exact outcome_map rfl
  | resize => exact d.checkedResize_eq

theorem checkedAfter_eq (es : List Event) :
    d.checkedAfter es = outcome (d.after es) (d.runFigures es) := by
  induction es generalizing d with
  | nil => rfl
  | cons e es ih =>
    rw [checkedAfter, List.foldlM_cons, checkedHandle_eq]
    exact outcome_bind (ih _)

end Dashboard

def Frame.figures : Frame → List Figure
  | .loading | .failed _ => []
  | .live d | .final d => d.renderFigures

theorem Frame.checkedPage_eq (style : PageStyle) (updated : String) (frame : Frame) :
    frame.checkedPage style updated = outcome (frame.page style updated) frame.figures := by
  cases frame with
  | loading => rfl
  | failed message => rfl
  | live d | final d =>
    rw [checkedPage, Dashboard.checkedRender_eq]
    exact outcome_map rfl

namespace Poller

def roundFigures (p : Poller) (fetched : Option Document) (wallClock : Int) : List Figure :=
  match fetched with
  | some doc => p.dashboard.processFigures doc wallClock
  | none => []

/-- All figures of a run, up to its end. -/
def figures (p : Poller) : List (Option Document × Int) → List Figure
  | [] => []
  | (fetched, wallClock) :: outcomes =>
    p.roundFigures fetched wallClock ++
      match (p.round fetched wallClock).1.next with
      | .inl _ => []
      | .inr p => p.figures outcomes

theorem checkedRound_eq (p : Poller) (fetched : Option Document) (wallClock : Int) :
    p.checkedRound fetched wallClock =
      outcome (p.round fetched wallClock) (p.roundFigures fetched wallClock) := by
  cases fetched with
  | none => rfl
  | some doc =>
    rw [checkedRound, Dashboard.checkedProcess_eq]
    exact outcome_map rfl

theorem checkedRounds_eq (p : Poller) (outcomes : List (Option Document × Int)) :
    p.checkedRounds outcomes = outcome (p.rounds outcomes) (p.figures outcomes) := by
  induction outcomes generalizing p with
  | nil => rfl
  | cons first outcomes ih =>
    obtain ⟨fetched, wallClock⟩ := first
    rw [checkedRounds, checkedRound_eq]
    refine outcome_bind ?_
    rw [rounds]
    dsimp only
    cases (p.round fetched wallClock).1.next with
    | inl t => rfl
    | inr p =>
      dsimp only
      rw [ih]
      exact outcome_map rfl

theorem checkedRun_eq (p : Poller) (outcomes : List (Option Document × Int)) :
    p.checkedRun outcomes = outcome (p.run outcomes) (p.figures outcomes) := by
  rw [checkedRun, checkedRounds_eq]
  exact outcome_map rfl

end Poller

end BuildBoard
