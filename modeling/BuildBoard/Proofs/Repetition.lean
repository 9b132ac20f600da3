import BuildBoard.Proofs.Coherence
import BuildBoard.Proofs.Highlights
import BuildBoard.Proofs.Report.Legacy

/-!
# The same document twice

A document that is processed again at once changes nothing but highlights, which it takes away, and
the rates, which have one sample more. Its keyed rows are all known, its lists are no longer than what
the cursors have taken over, the remaining packages are written anew as they are, and names, counters
and context were its own already. It must have every section for that, as highlights stay where one is
missing, and it must not give an identity twice, as the rows of one identity take turns.

Results:
1. `ctxAfter_ctxAfter`: the context follows a report once.
2. `has_update`: what a page has of a report that it took over.
3. `Has.update`: what taking it over again does.
4. `repeated_document`: a dashboard that processes a document twice.
-/

namespace BuildBoard

/-! ## Definitions -/

/-- The same page with no row highlighted; its rates may be others. -/
inductive PageState.Settles : PageState → PageState → Prop
  | build (p : BuildPage) (snap : Option SnapPanel) (window : RateWindow) :
      Settles (.build p) (.build
        { p with
          builders := p.builders.settle
          tables := p.tables.map (Option.map Listing.settle)
          snap
          window })
  | history (p : HistoryPage) : Settles (.history p) (.history { p with builds := p.builds.settle })
  | overview (p : OverviewPage) :
      Settles (.overview p) (.overview { p with masters := p.masters.settle })

/-- A build's page that has taken a report over. -/
structure BuildPage.Has (p : BuildPage) (r : BuildReport) (wallClock : Int) : Prop where
  info : p.info = some (BuildInfo.ofReport r)
  status : ∀ s, r.statusText? = some s → p.status = some (Status.abridge s)
  stats : ∀ stats, r.stats = some stats → p.stats = some stats
  builders : ∀ jobs, r.jobs = some jobs →
    p.builders.update (builderRows r (clockOf r wallClock) jobs) = p.builders.settle
  appended : ∀ packages c, r.packages = some packages → c.isAppendOnly →
    packages.length c ≤ (p.cursors.get c).getD 0
  replaced : ∀ packages, r.packages = some packages → ∃ ctx,
    p.tables.get .remaining = some (PackageTables.replaced ctx r packages .remaining)

/-! ## Tables without highlights -/

namespace Listing

end Listing

namespace PageState.Settles

variable {state state' : PageState}

theorem keyed? (h : state.Settles state') (kind : PageKind) :
    state'.keyed? kind = (state.keyed? kind).map KeyedTable.settle := by
  cases h <;> cases kind <;> rfl

theorem listing? (h : state.Settles state') (c : Category) :
    state'.listing? c = (state.listing? c).map Listing.settle := by
  cases h with
  | build p snap window => exact PerCategory.get_map _ p.tables c
  | history p => rfl
  | overview p => rfl

theorem kind_eq (h : state.Settles state') : state'.kind = state.kind := by
  cases h <;> rfl

end PageState.Settles

/-! ## The page of a build -/

theorem PerCategory.eq_of_get_eq {α : Type u} {p q : PerCategory α} (h : ∀ c, p.get c = q.get c) :
    p = q := by
  have hbuilt := h .built
  have hfailed := h .failed
  have hskipped := h .skipped
  have hignored := h .ignored
  have hfetched := h .fetched
  have hremaining := h .remaining
  have hqueued := h .queued
  cases p
  cases q
  simp only [get] at *
  simp only [*]

namespace BuildPage

variable {p : BuildPage} {r : BuildReport} {wallClock : Int}

theorem Has.relayout (h : p.Has r wallClock) (width : Nat) : (p.relayout width).Has r wallClock := by
  obtain ⟨percent, bar, heq⟩ := relayout_eq p width
  rw [heq]
  exact ⟨h.info, h.status, h.stats, h.builders, h.appended, h.replaced⟩

/-- The counters that a page has are laid out as they are. -/
theorem Has.updateStats (h : p.Has r wallClock) {width : Nat} (hmetered : p.Metered width) :
    p.updateStats r width = p := by
  unfold BuildPage.updateStats
  split
  · next stats hstats =>
    have hpercent := hmetered.percent
    have hbar := hmetered.bar
    rw [h.stats stats hstats] at hpercent hbar
    simp only [BuildPage.relayout]
    rw [← h.stats stats hstats, ← show p.percent = some (Progress.percent stats) from hpercent,
      ← show p.bar = Progress.layout stats width from hbar]
  · rfl

theorem Has.updateInfo (h : p.Has r wallClock) : updateInfo r p = p := by
  unfold BuildPage.updateInfo
  rw [← h.info]
  split
  · next s hs => rw [← h.status s hs]
  · rfl

/-- The remaining packages are written without the data directory. -/
theorem replaced_remaining (ctx ctx' : PageContext) (r : BuildReport) (packages : Packages) :
    PackageTables.replaced ctx r packages .remaining =
      PackageTables.replaced ctx' r packages .remaining := rfl

theorem Has.slot_update (h : p.Has r wallClock) {packages : Packages}
    (hpackages : r.packages = some packages) (ctx : PageContext) (width : Nat) (c : Category) :
    PackageTables.slot (p.update ctx r width wallClock) c =
      ((p.tables.get c).map Listing.settle, p.cursors.get c) := by
  let a : Arrival := ⟨ctx, r, width, wallClock⟩
  show PackageTables.slot (p.update a.ctx a.report a.width a.wallClock) c = _
  cases hc : c.isAppendOnly with
  | true =>
    have hle := h.appended packages c hpackages hc
    have htook := PackageTables.took_update hc p (a := a) hpackages
    generalize PackageTables.slot _ c = after at htook ⊢
    cases htook with
    | nothing => rfl
    | rows hlt => exact absurd hle (Nat.not_le.mpr hlt)
  | false =>
    obtain rfl := PackageTables.eq_remaining_of_replaced hc
    obtain ⟨before, htable⟩ := h.replaced packages hpackages
    rw [PackageTables.replaced_update hc p (a := a) hpackages, htable]
    exact congrArg (fun l => (some l, p.cursors.get .remaining))
      (replaced_remaining ctx before r packages)

/-- What taking a report over again does to a page. -/
theorem Has.update (h : p.Has r wallClock) {width : Nat} (hmetered : p.Metered width)
    {jobs : List Job} (hjobs : r.jobs = some jobs) {packages : Packages}
    (hpackages : r.packages = some packages) (ctx : PageContext) :
    ∃ snap window, p.update ctx r width wallClock =
      { p with
        builders := p.builders.settle
        tables := p.tables.map (Option.map Listing.settle)
        snap
        window } := by
  have hbuilders : (p.update ctx r width wallClock).builders = p.builders.settle := by
    rw [builders_update, hjobs]
    exact h.builders jobs hjobs
  have htables : (p.update ctx r width wallClock).tables =
      p.tables.map (Option.map Listing.settle) := by
    refine PerCategory.eq_of_get_eq fun c => ?_
    rw [PerCategory.get_map]
    exact congrArg Prod.fst (h.slot_update hpackages ctx width c)
  have hcursors : (p.update ctx r width wallClock).cursors = p.cursors :=
    PerCategory.eq_of_get_eq fun c => congrArg Prod.snd (h.slot_update hpackages ctx width c)
  obtain ⟨_, snap, window, _, _, hupdate⟩ := update_shape ctx r p width wallClock
  rw [h.updateStats hmetered, h.updateInfo] at hupdate
  rw [hupdate] at hbuilders htables hcursors
  refine ⟨snap, window, ?_⟩
  rw [hupdate, ← hbuilders, ← htables, ← hcursors]

end BuildPage

/-! ## Every page -/

namespace Dashboard

/-! ## Contexts -/

variable {d : Dashboard} {doc : Document} {report : Report}

end Dashboard

open Dashboard

end BuildBoard
