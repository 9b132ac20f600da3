import BuildBoard.Proofs.Dashboard.Results

/-!
# The jump to the anchor

The first document that is not refused ends loading and makes the page jump to the anchor, and the
next document ends the jump. Refused documents before that keep the anchor for later; resizing
changes nothing about it, and neither does a page of another kind.

Results:
1. `firstAccepted_concat`: a result is the first verdict where all before it are refusals.
2. `Anchored.handle`: what an event does to the anchor.
3. `anchor_shown_once`: when a dashboard jumps, after any run.
-/

namespace BuildBoard

namespace Dashboard

/-! ## Definitions -/

/-- The last of these results is a verdict, and all before it are refusals. -/
def FirstAccepted (results : List (Except ReportError Verdict)) : Prop :=
  ∃ refused verdict, results = refused ++ [.ok verdict] ∧ ∀ result ∈ refused, ¬ result.isOk

/-- Where the anchor is after these results: with the dashboard as long as it is loading, and shown
after the first verdict. -/
structure Anchored (anchor : Option String) (results : List (Except ReportError Verdict))
    (d : Dashboard) : Prop where
  loading : d.loading = true ↔ ∀ result ∈ results, ¬ result.isOk
  pending : d.loading = true → d.pendingAnchor = anchor
  scrollTo : ∀ a, d.scrollTo = some a ↔ anchor = some a ∧ FirstAccepted results

/-! ## First verdicts -/

variable {results more : List (Except ReportError Verdict)} {result : Except ReportError Verdict}

theorem firstAccepted_concat :
    FirstAccepted (results ++ [result]) ↔ result.isOk ∧ ∀ earlier ∈ results, ¬ earlier.isOk := by
  constructor
  · rintro ⟨refused, verdict, heq, hrefused⟩
    obtain ⟨rfl, hlast⟩ := List.append_inj' heq rfl
    obtain rfl := List.singleton_inj.mp hlast
    exact ⟨rfl, hrefused⟩
  · rintro ⟨hok, hrefused⟩
    cases result with
    | error cause => cases hok
    | ok verdict => exact ⟨results, verdict, rfl, hrefused⟩

/-- There is no second first verdict. -/
theorem FirstAccepted.eq_nil (h : FirstAccepted results) (hmore : FirstAccepted (results ++ more)) :
    more = [] := by
  rcases List.eq_nil_or_concat more with rfl | ⟨rest, last, rfl⟩
  · rfl
  · rw [List.concat_eq_append, ← List.append_assoc, firstAccepted_concat] at hmore
    obtain ⟨refused, verdict, rfl, -⟩ := h
    exact absurd rfl (hmore.2 (.ok verdict) (by simp))

/-! ## One event -/

variable {anchor : Option String} {d : Dashboard}

theorem anchored_new (ctx : PageContext) (settings : DashboardSettings) :
    Anchored settings.anchor [] (new ctx settings) where
  loading := iff_of_true rfl (List.forall_mem_nil _)
  pending := fun _ => rfl
  scrollTo := fun _ => iff_of_false nofun fun ⟨_, refused, _, heq, _⟩ =>
    List.append_ne_nil_of_right_ne_nil refused (List.cons_ne_nil _ _) heq.symm

/-- The anchor and the jump depend on loading alone, whatever the report is. -/
theorem anchor_accept (d : Dashboard) (report : Report) (wallClock : Int) :
    (d.accept report wallClock).2.loading = false ∧
      (d.accept report wallClock).2.scrollTo = if d.loading then d.pendingAnchor else d.scrollTo := by
  simp only [accept, firstLoad, ofKind]
  cases hloading : d.loading <;> split <;> simp [hloading, resize]

theorem Anchored.refuse (h : Anchored anchor results d) (cause : ReportError) :
    Anchored anchor (results ++ [.error cause]) d.still where
  loading := by
    rw [List.forall_mem_append, List.forall_mem_singleton]
    exact h.loading.trans (and_iff_left nofun).symm
  pending := h.pending
  scrollTo := fun a => iff_of_false nofun fun ⟨_, hfirst⟩ => nomatch (firstAccepted_concat.mp hfirst).1

theorem Anchored.accept (h : Anchored anchor results d) (report : Report) (wallClock : Int)
    (verdict : Verdict) :
    Anchored anchor (results ++ [.ok verdict]) (d.still.accept report wallClock).2 := by
  obtain ⟨hloading, hscroll⟩ := anchor_accept d.still report wallClock
  refine ⟨?_, fun hload => ?_, fun a => ?_⟩
  · rw [hloading]
    exact iff_of_false nofun fun hall => hall (.ok verdict) (by simp) rfl
  · rw [hloading] at hload
    cases hload
  · rw [hscroll, firstAccepted_concat, ← h.loading]
    show (if d.loading then d.pendingAnchor else none) = some a ↔ _
    cases hload : d.loading with
    | true =>
      rw [if_pos rfl, h.pending hload]
      exact (and_iff_left ⟨rfl, rfl⟩).symm
    | false => exact iff_of_false nofun fun hshown => nomatch hshown.2.2

theorem Anchored.handle (h : Anchored anchor results d) (e : Event) :
    Anchored anchor (results ++ (d.result? e).toList) (d.handle e) := by
  cases e with
  | resize =>
    rw [result?, Option.toList_none, List.append_nil]
    exact ⟨h.loading, h.pending, h.scrollTo⟩
  | document doc wallClock =>
    simp only [result?, Dashboard.handle, process]
    cases Report.ofDocument doc with
    | error cause => exact h.refuse cause
    | ok report => exact h.accept report wallClock _

/-! ## Runs -/

theorem anchored_after (ctx : PageContext) (settings : DashboardSettings) (es : List Event) :
    Anchored settings.anchor ((new ctx settings).results es) ((new ctx settings).after es) := by
  induction es using List.reverseRecOn with
  | nil => exact anchored_new ctx settings
  | append_singleton es e ih =>
    rw [results_concat, after_concat]
    exact ih.handle e

end Dashboard

open Dashboard

/-- When a dashboard jumps, after any run of documents and resizing: it jumps to the anchor that it is
set to, just if the last document is the first one that was not refused. Wherever it jumps in the
course of a run, it has come to as many documents. -/
theorem anchor_shown_once (ctx : PageContext) (settings : DashboardSettings) (es : List Event) :
    let start := new ctx settings
    (∀ a, (start.after es).scrollTo = some a ↔
      settings.anchor = some a ∧ FirstAccepted (start.results es)) ∧
    ∀ early late, early <+: es → late <+: es →
      (start.after early).scrollTo.isSome → (start.after late).scrollTo.isSome →
      (start.results early).length = (start.results late).length := by
  intro start
  have hshown : ∀ run, (start.after run).scrollTo.isSome → FirstAccepted (start.results run) := by
    intro run hrun
    obtain ⟨a, ha⟩ := Option.isSome_iff_exists.mp hrun
    exact (((anchored_after ctx settings run).scrollTo a).mp ha).2
  -- of two runs the longer one adds no document
  have hsame : ∀ run more, (start.after run).scrollTo.isSome →
      (start.after (run ++ more)).scrollTo.isSome →
      (start.results run).length = (start.results (run ++ more)).length := by
    intro run more hrun hlonger
    have hfirst := hshown _ hlonger
    rw [results_append] at hfirst ⊢
    rw [(hshown run hrun).eq_nil hfirst, List.append_nil]
  refine ⟨(anchored_after ctx settings es).scrollTo, fun early late hearly hlate hshow hshow' => ?_⟩
  rcases List.prefix_or_prefix_of_prefix hearly hlate with ⟨more, rfl⟩ | ⟨more, rfl⟩
  · exact hsame early more hshow hshow'
  · exact (hsame late more hshow' hshow).symm

/-- A build's page that comes to a refused document, is resized and turns to a history: it jumps then,
and still does after it is resized, but no more after the next document. -/
theorem jump_after_refusal :
    let ctx := PageContext.new .build .hosted (some "m") (some "b")
    let start := new ctx ⟨100, 1, 0, 1, some "builds"⟩
    let history : Event := .document (.object [("builds", .object [])]) 0
    let early := [.document (.object [("status", .text "idle:")]) 0, .resize, history]
    let es := early ++ [.resize]
    (start.after es).scrollTo = some "builds" ∧ FirstAccepted (start.results es) ∧
      (start.results early).length = (start.results es).length ∧
      (start.after (es ++ [history])).scrollTo = none := by
  intro ctx start history early es
  have hjump : (start.after es).scrollTo = some "builds" := by decide +kernel
  obtain ⟨hshown, honce⟩ := anchor_shown_once ctx ⟨100, 1, 0, 1, some "builds"⟩ es
  exact ⟨hjump, ((hshown "builds").mp hjump).2,
    honce early es (List.prefix_append _ _) (List.prefix_refl _) (by decide +kernel)
      (by decide +kernel), by decide +kernel⟩

end BuildBoard
