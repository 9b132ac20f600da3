import BuildBoard.Proofs.Checked

/-!
# Runs that break off, and runs that do not

Counters and times are words, and documents may give any word for them: nothing looks at a counter
or a time before it is calculated with. So there are documents that a dashboard breaks off at.

In a run whose documents keep to moderate numbers every figure fits, however long the run is. The
window of samples is the only part of a page that a later document is calculated with, and holds
moderate samples only.

Results:
1. `Stats.remaining_eq`: where every difference fits, the packages that remain are the exact ones.
2. `Stats.Moderate.barFigures_fit`, `BuildReport.Moderate.figures_fit`: the figures of moderate
   reports.
3. `Dashboard.moderate_handle`, `Dashboard.figures_fit`: what a moderate event leaves, and its
   figures.
4. `checked_run`: when a run breaks off and what comes of it if it does not; moderate ones do not.
5. `breaks_off_at_least_queued`: a document that is not moderate.
-/

namespace BuildBoard

open Checked

/-! ## Moderate numbers -/

/-- The number is at most `bound`, with either sign. -/
def Within (bound n : Int) : Prop := -bound ≤ n ∧ n ≤ bound

/-- The greatest moderate counter, two to the 60th. -/
def countBound : Int := 1152921504606846976

/-- Moderate times lie below this one, two to the 62nd. -/
def timeBound : Int := 4611686018427387904

def IsCount (n : Int) : Prop := Within countBound n

def IsTime (n : Int) : Prop := -timeBound ≤ n ∧ n < timeBound

instance (n : Int) : Decidable (IsCount n) := inferInstanceAs (Decidable (_ ∧ _))

instance (n : Int) : Decidable (IsTime n) := inferInstanceAs (Decidable (_ ∧ _))

structure Stats.Moderate (s : Stats) : Prop where
  queued : IsCount s.queued
  outcomes : ∀ n ∈ s.outcomes, IsCount n

structure Sample.Moderate (s : Sample) : Prop where
  attempted : Within (2 * countBound) s.attempted
  elapsed : ∀ n, s.elapsed = some n → IsTime n

structure BuildReport.Moderate (r : BuildReport) : Prop where
  stats : ∀ s, r.stats = some s → s.Moderate
  elapsed : ∀ snap n, r.snap = some snap → snap.stats.elapsed = some n → IsTime n
  now : ∀ snap n, r.snap = some snap → snap.now = some n → IsTime n
  started : ∀ jobs, r.jobs = some jobs → ∀ job ∈ jobs, ∀ n, job.started = some n → IsTime n

def BuildSummary.Moderate (b : BuildSummary) : Prop := ∀ s, b.stats = some s → s.Moderate

def Report.Moderate : Report → Prop
  | .build r => r.Moderate
  | .history r => ∀ build ∈ r.builds, build.2.Moderate
  | .overview r => ∀ master ∈ r.masters, ∀ latest, master.2 = some latest → latest.Moderate

/-- The document is refused or gives a moderate report, and the clock is moderate. -/
def Dashboard.Event.Moderate : Event → Prop
  | .document doc wallClock =>
    IsTime wallClock ∧ ∀ report, Report.ofDocument doc = .ok report → report.Moderate
  | .resize => True

theorem Checked.fits_of_option {o : Option α} {figures : α → List Figure}
    (h : ∀ a, o = some a → ∀ f ∈ figures a, f.Fits) : ∀ f ∈ o.toList.flatMap figures, f.Fits := by
  intro f hf
  obtain ⟨a, ha, hf⟩ := List.mem_flatMap.mp hf
  exact h a (Option.mem_toList.mp ha) f hf

/-! ## Counters -/

namespace Stats

/-- Where every difference fits, the last one is exact. -/
theorem foldl_word_eq {outcomes : List Int} {left : Int}
    (h : ∀ f ∈ differences left outcomes, f.Fits) :
    outcomes.foldl (fun left n => word (left - n)) left =
      outcomes.foldl (fun left n => left - n) left := by
  induction outcomes generalizing left with
  | nil => rfl
  | cons n rest ih =>
    obtain ⟨hfits, hrest⟩ := List.forall_mem_cons.mp h
    have hword : word (left - n) = left - n := (word_eq_self_iff _).mpr hfits
    rw [List.foldl_cons, ih hrest, hword, List.foldl_cons]

/-- Moderate numbers may be taken away one after the other from one that counts as `k` of them, as
long as there are no more than seven of them together. -/
theorem differences_fit {outcomes : List Int} (houtcomes : ∀ n ∈ outcomes, IsCount n) {left : Int}
    {k : Nat} (hleft : Within (k * countBound) left) (hk : k + outcomes.length ≤ 7) :
    ∀ f ∈ differences left outcomes, f.Fits := by
  induction outcomes generalizing left k with
  | nil => exact nofun
  | cons n rest ih =>
    obtain ⟨hn, hrest⟩ := List.forall_mem_cons.mp houtcomes
    rw [List.length_cons] at hk
    have hleft' : Within ((k + 1 : Nat) * countBound) (left - n) := by
      simp only [Within, IsCount, countBound] at *
      omega
    have hfits : FitsWord (left - n) := by
      simp only [Within, FitsWord, countBound, int64Min, int64Max] at *
      omega
    rw [differences, (word_eq_self_iff _).mpr hfits]
    exact List.forall_mem_cons.mpr ⟨hfits, ih hrest hleft' (by omega)⟩

theorem remaining_eq {s : Stats} (h : ∀ f ∈ s.remainingFigures, f.Fits) :
    s.remaining = s.queued - s.built - s.failed - s.skipped - s.ignored - s.fetched :=
  foldl_word_eq h

namespace Moderate

variable {s : Stats} (h : s.Moderate)
include h

theorem remainingFigures_fit : ∀ f ∈ s.remainingFigures, f.Fits := by
  have hqueued : Within ((1 : Nat) * countBound) s.queued := by
    show Within (1 * countBound) s.queued
    rw [Int.one_mul]
    exact h.queued
  exact differences_fit h.outcomes hqueued (Nat.le_of_ble_eq_true rfl)

theorem percentFigures_fit : ∀ f ∈ s.percentFigures, f.Fits := by
  unfold percentFigures
  split
  · exact nofun
  · refine List.forall_mem_append.mpr ⟨h.remainingFigures_fit, List.forall_mem_singleton.mpr ?_⟩
    show FitsWord (s.queued - s.remaining)
    have houtcomes := h.outcomes
    rw [remaining_eq h.remainingFigures_fit]
    simp only [Stats.outcomes, List.forall_mem_cons, IsCount, Within, countBound] at houtcomes
    unfold FitsWord int64Min int64Max
    omega

theorem barFigures_fit (width : Nat) : ∀ f ∈ s.barFigures width, f.Fits := by
  refine List.forall_mem_append.mpr ⟨h.percentFigures_fit, ?_⟩
  split
  · exact nofun
  · exact List.forall_mem_append.mpr ⟨h.remainingFigures_fit, h.percentFigures_fit⟩

theorem attempted_fits : FitsWord (s.built + s.failed) ∧ Within (2 * countBound) s.attempted := by
  have houtcomes := h.outcomes
  simp only [Stats.outcomes, List.forall_mem_cons, IsCount] at houtcomes
  obtain ⟨hbuilt, hfailed, -⟩ := houtcomes
  have hsum : Within (2 * countBound) (s.built + s.failed) := by
    unfold Within at *
    omega
  have hfits : FitsWord (s.built + s.failed) := by
    unfold Within FitsWord countBound int64Min int64Max at *
    omega
  exact ⟨hfits, by rwa [attempted, (word_eq_self_iff _).mpr hfits]⟩

end Moderate

end Stats

/-! ## Samples and jobs -/

/-- All samples of a window that are kept come from the window or are new. -/
theorem RateWindow.mem_of_mem_place {w : RateWindow} {sample kept : Sample}
    (h : kept ∈ w.place sample) : kept = sample ∨ kept ∈ w.slots := by
  unfold place at h
  split at h
  · exact (List.mem_or_eq_of_mem_set h).symm
  · rcases List.mem_append.mp h with h | h
    · exact .inr h
    · exact .inl (List.mem_singleton.mp h)

theorem IsTime.sub_fits {m n : Int} (hm : IsTime m) (hn : IsTime n) : FitsWord (m - n) := by
  unfold IsTime FitsWord timeBound int64Min int64Max at *
  omega

theorem RateWindow.rateFigures_fit {newest oldest : Sample} (hnewest : newest.Moderate)
    (holdest : oldest.Moderate) : ∀ f ∈ rateFigures newest oldest, f.Fits := by
  unfold rateFigures
  split
  · next now before hnow hbefore =>
    have hpackages : FitsWord (newest.attempted - oldest.attempted) := by
      have hnew := hnewest.attempted
      have hold := holdest.attempted
      unfold Within FitsWord countBound int64Min int64Max at *
      omega
    have htime : FitsWord (now - before) :=
      (hnewest.elapsed now hnow).sub_fits (holdest.elapsed before hbefore)
    exact List.forall_mem_cons.mpr ⟨hpackages, List.forall_mem_singleton.mpr htime⟩
  · exact nofun

theorem RateWindow.figures_fit {w : RateWindow} (hslots : ∀ s ∈ w.slots, s.Moderate)
    {sample : Sample} (hsample : sample.Moderate) : ∀ f ∈ w.figures sample, f.Fits := by
  unfold figures
  split
  · exact nofun
  · refine fits_of_option fun oldest holdest => rateFigures_fit hsample ?_
    rcases mem_of_mem_place (List.mem_of_getElem? holdest) with rfl | hold
    · exact hsample
    · exact hslots oldest hold

theorem Duration.figures_fit {start stop : Option Int} (hstart : ∀ n, start = some n → IsTime n)
    (hstop : ∀ n, stop = some n → IsTime n) : ∀ f ∈ figures start stop, f.Fits := by
  unfold figures
  split
  · next start stop =>
    split
    · exact nofun
    · exact List.forall_mem_singleton.mpr ((hstop stop rfl).sub_fits (hstart start rfl))
  · exact nofun

/-! ## Pages -/

/-- Counters and samples of a page are moderate. -/
structure BuildPage.Moderate (p : BuildPage) : Prop where
  stats : ∀ s, p.stats = some s → s.Moderate
  slots : ∀ s ∈ p.window.slots, s.Moderate

theorem BuildSummary.Moderate.figures_fit {b : BuildSummary} (h : b.Moderate) :
    ∀ f ∈ b.figures, f.Fits :=
  fits_of_option fun stats hstats => (h stats hstats).remainingFigures_fit

def PageState.Moderate (state : PageState) : Prop := ∀ p, state = .build p → p.Moderate

namespace BuildReport.Moderate

variable {r : BuildReport} (h : r.Moderate)
include h

theorem sample {stats : Stats} {snap : Snap} (hstats : r.stats = some stats)
    (hsnap : r.snap = some snap) : Sample.Moderate ⟨stats.attempted, snap.stats.elapsed⟩ where
  attempted := (h.stats stats hstats).attempted_fits.2
  elapsed n hn := h.elapsed snap n hsnap hn

theorem clockOf {wallClock : Int} (hclock : IsTime wallClock) :
    IsTime (BuildPage.clockOf r wallClock) := by
  unfold BuildPage.clockOf
  split
  · next now hnow =>
    obtain ⟨snap, hsnap, hnow⟩ := Option.bind_eq_some_iff.mp hnow
    split
    · exact hclock
    · exact h.now snap now hsnap hnow
  · exact hclock

/-- What the page of a build calculates from a moderate report fits. -/
theorem figures_fit {p : BuildPage} (hp : p.Moderate) {wallClock : Int}
    (hclock : IsTime wallClock) (width : Nat) : ∀ f ∈ p.figures r width wallClock, f.Fits := by
  refine List.forall_mem_append.mpr
    ⟨fits_of_option fun stats hstats => (h.stats stats hstats).barFigures_fit width,
      List.forall_mem_append.mpr ⟨fun f hf => ?_, ?_⟩⟩
  · obtain ⟨job, hjob, hf⟩ := List.mem_flatMap.mp hf
    cases hjobs : r.jobs with
    | none => simp [hjobs] at hjob
    | some jobs =>
      rw [hjobs] at hjob
      refine Duration.figures_fit (h.started jobs hjobs job hjob) ?_ f hf
      rintro _ ⟨⟩
      exact h.clockOf hclock
  · unfold BuildPage.snapFigures
    split
    · next stats snap hstats hsnap =>
      exact List.forall_mem_cons.mpr ⟨(h.stats stats hstats).attempted_fits.1,
        RateWindow.figures_fit hp.slots (h.sample hstats hsnap)⟩
    · exact nofun

end BuildReport.Moderate

namespace BuildPage

variable {p : BuildPage} (h : p.Moderate)
include h

theorem Moderate.relayout (width : Nat) : (p.relayout width).Moderate := by
  obtain ⟨percent, bar, heq⟩ := relayout_eq p width
  rw [heq]
  exact ⟨h.stats, h.slots⟩

theorem Moderate.update {r : BuildReport} (hr : r.Moderate) (ctx : PageContext) (width : Nat)
    (wallClock : Int) : (p.update ctx r width wallClock).Moderate where
  stats s hs := by
    obtain ⟨_, _, _, _, _, hupdate⟩ := update_shape ctx r p width wallClock
    rw [hupdate] at hs
    have hstats : (p.updateStats r width).stats = some s := hs
    unfold updateStats at hstats
    split at hstats
    · next stats hreport =>
      obtain rfl : stats = s := Option.some.inj hstats
      exact hr.stats stats hreport
    · exact h.stats s hstats
  slots s hs := by
    rw [window_update] at hs
    split at hs
    · next stats snap hstats hsnap =>
      rcases RateWindow.mem_of_mem_place hs with rfl | hold
      · exact hr.sample hstats hsnap
      · exact h.slots s hold
    · exact h.slots s hs

end BuildPage

namespace PageState

theorem moderate_blank (settings : DashboardSettings) (kind : PageKind) :
    (blank settings kind).Moderate := by
  cases kind with
  | build =>
    rintro _ ⟨⟩
    exact ⟨nofun, nofun⟩
  | jail => rintro _ ⟨⟩
  | index => rintro _ ⟨⟩

variable {state : PageState} (h : state.Moderate)
include h

theorem Moderate.relayout (width : Nat) : (state.relayout width).Moderate := by
  cases state with
  | build p =>
    rintro _ ⟨⟩
    exact (h p rfl).relayout width
  | history p => rintro _ ⟨⟩
  | overview p => rintro _ ⟨⟩

/-- A moderate report leaves a moderate page. -/
theorem Moderate.update {report : Report} (hreport : report.Moderate) (width : Nat)
    (wallClock : Int) (ctx : PageContext) :
    (Dashboard.update width wallClock ctx report state).2.2.Moderate := by
  cases report <;> cases state
  case build.build r p =>
    rintro _ ⟨⟩
    exact (h p rfl).update hreport _ width wallClock
  case history.history => rintro _ ⟨⟩
  case overview.overview => rintro _ ⟨⟩
  all_goals exact h

theorem relayoutFigures_fit (width : Nat) : ∀ f ∈ state.relayoutFigures width, f.Fits := by
  cases state with
  | build p => exact fits_of_option fun s hs => ((h p rfl).stats s hs).barFigures_fit width
  | history p => exact nofun
  | overview p => exact nofun

theorem updateFigures_fit {report : Report} (hreport : report.Moderate) {wallClock : Int}
    (hclock : IsTime wallClock) (width : Nat) :
    ∀ f ∈ Dashboard.updateFigures width wallClock report state, f.Fits := by
  cases report <;> cases state
  case build.build r p => exact BuildReport.Moderate.figures_fit hreport (h p rfl) hclock width
  case history.history r p =>
    intro f hf
    obtain ⟨build, hbuild, hf⟩ := List.mem_flatMap.mp hf
    exact (hreport build hbuild).figures_fit f hf
  case overview.overview r p =>
    intro f hf
    obtain ⟨master, hmaster, hf⟩ := List.mem_flatMap.mp hf
    obtain ⟨⟨key, entry⟩, hentry, hbuilt⟩ := List.mem_filterMap.mp hmaster
    obtain ⟨latest, hlatest, rfl⟩ := Option.map_eq_some_iff.mp hbuilt
    exact (hreport _ hentry latest hlatest).figures_fit f hf
  all_goals exact nofun

end PageState

/-! ## Runs -/

namespace Dashboard

variable {d : Dashboard}

theorem moderate_ofKind (h : d.state.Moderate) (kind : PageKind) :
    (d.ofKind kind).state.Moderate := by
  unfold ofKind
  split
  · exact h
  · exact PageState.moderate_blank d.settings kind

theorem moderate_firstLoad (h : d.state.Moderate) : d.firstLoad.state.Moderate := by
  unfold firstLoad
  split
  · exact h.relayout _
  · exact h

theorem firstLoadFigures_fit (h : d.state.Moderate) : ∀ f ∈ d.firstLoadFigures, f.Fits := by
  unfold firstLoadFigures
  split
  · exact PageState.relayoutFigures_fit h _
  · exact nofun

theorem renderFigures_fit (h : d.state.Moderate) : ∀ f ∈ d.renderFigures, f.Fits := by
  unfold renderFigures
  split
  · next p hp => exact fits_of_option fun s hs => ((h p hp).stats s hs).remainingFigures_fit
  · exact nofun

/-- A moderate event leaves a moderate page. -/
theorem moderate_handle (h : d.state.Moderate) {e : Event} (he : e.Moderate) :
    (d.handle e).state.Moderate := by
  cases e with
  | resize => exact h.relayout _
  | document doc wallClock =>
    simp only [handle, process]
    split
    · exact h
    · next report hreport =>
      have hpage := moderate_ofKind (d := { d with scrollTo := none }) h report.kind
      exact moderate_firstLoad (hpage.update (he.2 report hreport) _ _ _)

theorem figures_fit (h : d.state.Moderate) {e : Event} (he : e.Moderate) :
    ∀ f ∈ d.figures e, f.Fits := by
  cases e with
  | resize => exact PageState.relayoutFigures_fit h _
  | document doc wallClock =>
    show ∀ f ∈ d.processFigures doc wallClock, f.Fits
    unfold processFigures
    split
    · exact nofun
    · next report hreport =>
      have hpage := moderate_ofKind (d := { d with scrollTo := none }) h report.kind
      have hmoderate := he.2 report hreport
      exact List.forall_mem_append.mpr ⟨PageState.updateFigures_fit hpage hmoderate he.1 _,
        firstLoadFigures_fit (hpage.update hmoderate _ _ _)⟩

theorem moderate_after (h : d.state.Moderate) {es : List Event} (hes : ∀ e ∈ es, e.Moderate) :
    (d.after es).state.Moderate := by
  induction es generalizing d with
  | nil => exact h
  | cons e es ih =>
    obtain ⟨he, hes⟩ := List.forall_mem_cons.mp hes
    exact ih (moderate_handle h he) hes

theorem runFigures_fit (h : d.state.Moderate) {es : List Event} (hes : ∀ e ∈ es, e.Moderate) :
    ∀ f ∈ d.runFigures es, f.Fits := by
  induction es generalizing d with
  | nil => exact nofun
  | cons e es ih =>
    obtain ⟨he, hes⟩ := List.forall_mem_cons.mp hes
    exact List.forall_mem_append.mpr ⟨figures_fit h he, ih (moderate_handle h he) hes⟩

end Dashboard

open Dashboard

/-- A run comes to its end if all figures that are made on the way fit a word, and to the same
dashboard then as without checks. Otherwise it breaks off at the first figure that does not. A run
of moderate documents comes to its end, and the packages that remain there are the exact ones. -/
theorem checked_run (ctx : PageContext) (settings : DashboardSettings) (es : List Event) :
    let start := new ctx settings
    (∀ d, start.checkedAfter es = .ok d ↔
      (∀ f ∈ start.runFigures es, f.Fits) ∧ start.after es = d) ∧
    (∀ f, start.checkedAfter es = .error f ↔
      ∃ before after, start.runFigures es = before ++ f :: after ∧ (∀ g ∈ before, g.Fits) ∧
        ¬ f.Fits) ∧
    ((∀ e ∈ es, e.Moderate) →
      start.checkedAfter es = .ok (start.after es) ∧
      ∀ p stats, (start.after es).state = .build p → p.stats = some stats →
        stats.remaining =
          stats.queued - stats.built - stats.failed - stats.skipped - stats.ignored -
            stats.fetched) := by
  intro start
  have hstart : start.state.Moderate := PageState.moderate_blank settings ctx.kind
  rw [checkedAfter_eq]
  refine ⟨fun d => outcome_eq_ok_iff, fun f => outcome_eq_error_iff, fun hes => ⟨?_, ?_⟩⟩
  · exact outcome_eq_ok_iff.mpr ⟨runFigures_fit hstart hes, rfl⟩
  · intro p stats hp hstats
    have hmoderate := (moderate_after hstart hes p hp).stats stats hstats
    exact Stats.remaining_eq hmoderate.remainingFigures_fit

/-! ## Two runs -/

/-- A build document with these counters, its clock and one builder. -/
def clockedDocument (queued built elapsed now started : Int) : Document :=
  .object [
    ("buildname", .text "b"),
    ("jobs", .array [.object [("id", .text "01"), ("started", .int started)]]),
    ("mastername", .text "m"),
    ("snap", .object [("elapsed", .int elapsed), ("now", .int now)]),
    ("stats", .object [("built", .int built), ("queued", .int queued)])]

/-- A dashboard that shows a rate from the first poll on. -/
def clockedDashboard : Dashboard :=
  new (PageContext.new .build .hosted (some "m") (some "b")) ⟨356, 60, 0, 600, none⟩

/-- Two polls with an hour between them. -/
theorem two_polls_go_on :
    let first : Event := .document (clockedDocument 10 4 3600 3700 3000) 0
    let second : Event := .document (clockedDocument 10 7 7200 7300 7000) 0
    let d := clockedDashboard.after [first]
    (d.figures second).map Figure.value =
        [3, 3, 3, 3, 3, 7, 3, 3, 3, 3, 3, 3, 3, 3, 3, 3, 7, 300, 7, 3, 3600] ∧
      clockedDashboard.checkedAfter [first, second] = .ok (d.handle second) := by
  intro first second d
  refine ⟨by decide +kernel, ?_⟩
  have hmoderate : ∀ e ∈ [first, second], e.Moderate := by
    refine List.forall_mem_cons.mpr
      ⟨⟨by decide, ?_⟩, List.forall_mem_cons.mpr ⟨⟨by decide, ?_⟩, nofun⟩⟩
    all_goals
      rintro report h
      obtain rfl := Except.ok.inj h
      exact {
        stats := by
          rintro _ ⟨⟩
          exact ⟨by decide, by decide⟩
        elapsed := by
          rintro _ _ ⟨⟩ ⟨⟩
          decide
        now := by
          rintro _ _ ⟨⟩ ⟨⟩
          decide
        started := by
          rintro _ ⟨⟩
          decide }
  exact ((checked_run _ _ _).2.2 hmoderate).1

/-- With as few packages queued as a word can say and one of them built, the packages that remain
are below every word: the program breaks off. -/
theorem breaks_off_at_least_queued :
    let e : Event := .document (clockedDocument int64Min 1 0 0 0) 0
    let below : Figure := ⟨.subtract, int64Min - 1⟩
    e.report?.map Report.kind = some .build ∧ ¬ below.Fits ∧
      below.message = "attempt to subtract with overflow" ∧
      clockedDashboard.checkedAfter [e] = .error below := by
  intro e below
  refine ⟨by decide +kernel, by decide, rfl, ?_⟩
  rfl

end BuildBoard
