import BuildBoard.Proofs.Dashboard.Step

/-!
# Results of documents

Each document of a run has a result: what it means for polling, or the cause for which it is refused.
A refused document ends a jump to the anchor, as any document does, and leaves no other trace: what
comes after it goes on as if it had not come.

Results:
1. `results_concat`: the results of a longer run.
2. `isOk_process`: whether a document is refused depends on nothing but the document.
3. `refused_document`: what refused documents leave behind, one by one and over any run.
-/

namespace BuildBoard

namespace Dashboard

/-! ## Definitions -/

/-- The result of an event, if it is a document. -/
def result? (d : Dashboard) : Event → Option (Except ReportError Verdict)
  | .document doc wallClock => some (d.process doc wallClock).1
  | .resize => none

/-- The results of the documents of a run, in their order. -/
def results (d : Dashboard) : List Event → List (Except ReportError Verdict)
  | [] => []
  | e :: es => (d.result? e).toList ++ (d.handle e).results es

/-- A document that gives no report. -/
def Event.isRefused : Event → Bool
  | .document doc _ => !(Report.ofDocument doc).isOk
  | .resize => false

/-- The same dashboard without a jump. -/
def still (d : Dashboard) : Dashboard := { d with scrollTo := none }

variable {d : Dashboard} {e : Event} {es : List Event}

/-! ## Results -/

theorem results_append (d : Dashboard) (es later : List Event) :
    d.results (es ++ later) = d.results es ++ (d.after es).results later := by
  induction es generalizing d with
  | nil => rfl
  | cons e es ih =>
    rw [List.cons_append, results, ih, results, List.append_assoc]
    rfl

theorem results_concat (d : Dashboard) (es : List Event) (e : Event) :
    d.results (es ++ [e]) = d.results es ++ ((d.after es).result? e).toList := by
  rw [results_append]
  exact congrArg _ (List.append_nil _)

theorem isOk_process (d : Dashboard) (doc : Document) (wallClock : Int) :
    (d.process doc wallClock).1.isOk = (Report.ofDocument doc).isOk := by
  simp only [process]
  cases Report.ofDocument doc <;> rfl

/-! ## Refused documents -/

theorem process_of_refused {doc : Document} {wallClock : Int} {cause : ReportError}
    (h : (d.process doc wallClock).1 = .error cause) : (d.process doc wallClock).2 = d.still := by
  simp only [process] at h ⊢
  cases hdoc : Report.ofDocument doc with
  | error => rfl
  | ok report =>
    rw [hdoc] at h
    cases h

theorem handle_of_isRefused (h : e.isRefused) : d.handle e = d.still := by
  cases e with
  | resize => cases h
  | document doc wallClock =>
    simp only [Event.isRefused] at h
    simp only [handle, process]
    cases hdoc : Report.ofDocument doc with
    | error => rfl
    | ok report =>
      rw [hdoc] at h
      cases h

/-- A refused document is the one event whose result is no verdict. -/
theorem filter_isOk_result? (d : Dashboard) (e : Event) :
    (d.result? e).toList.filter (·.isOk) = if e.isRefused then [] else (d.result? e).toList := by
  cases e with
  | resize => rfl
  | document doc wallClock =>
    simp only [result?, Event.isRefused, Option.toList_some, ← isOk_process d doc wallClock]
    by_cases hok : (d.process doc wallClock).1.isOk = true
    · rw [List.filter_cons_of_pos hok, hok]
      rfl
    · rw [List.filter_cons_of_neg hok, (Bool.not_eq_true _).mp hok]
      rfl

/-! ## Jumps -/

/-- No document sees whether there was a jump before it. -/
theorem process_still (d : Dashboard) (doc : Document) (wallClock : Int) :
    d.still.process doc wallClock = d.process doc wallClock := rfl

theorem still_handle_still (d : Dashboard) (e : Event) :
    (d.still.handle e).still = (d.handle e).still := by
  cases e <;> rfl

theorem still_after_still (d : Dashboard) (es : List Event) :
    (d.still.after es).still = (d.after es).still := by
  induction es using List.reverseRecOn with
  | nil => rfl
  | append_singleton es e ih =>
    rw [after_concat, ← still_handle_still, ih, still_handle_still, after_concat]

theorem results_still (d : Dashboard) (es : List Event) : d.still.results es = d.results es := by
  induction es using List.reverseRecOn with
  | nil => rfl
  | append_singleton es e ih =>
    have hresult : ∀ d : Dashboard, d.still.result? e = d.result? e := fun d => by cases e <;> rfl
    rw [results_concat, results_concat, ih, ← hresult, still_after_still, hresult]

/-! ## Runs -/

/-- A run without its refused documents comes to the same dashboard, but for a jump. -/
theorem still_after_filter (d : Dashboard) (es : List Event) :
    (d.after (es.filter (!·.isRefused))).still = (d.after es).still := by
  induction es generalizing d with
  | nil => rfl
  | cons e es ih =>
    cases h : e.isRefused with
    | true =>
      rw [List.filter_cons_of_neg (by simp [h]), ih, ← still_after_still,
        ← handle_of_isRefused (d := d) h]
      rfl
    | false =>
      rw [List.filter_cons_of_pos (by simp [h])]
      exact ih (d.handle e)

theorem results_filter (d : Dashboard) (es : List Event) :
    d.results (es.filter (!·.isRefused)) = (d.results es).filter (·.isOk) := by
  induction es generalizing d with
  | nil => rfl
  | cons e es ih =>
    rw [results, List.filter_append, filter_isOk_result?]
    cases h : e.isRefused with
    | true =>
      rw [List.filter_cons_of_neg (by simp [h]), ih, handle_of_isRefused h, results_still]
      rfl
    | false =>
      rw [List.filter_cons_of_pos (by simp [h]), results, ih]
      rfl

end Dashboard

open Dashboard

/-- A document that is refused ends a jump and leaves the rest of the dashboard as it is, so that the
next document has the same result and comes to the same dashboard as without it. A whole run comes to
the same dashboard without its refused documents, but for a jump, and with the same verdicts. -/
theorem refused_document (d : Dashboard) :
    (∀ doc wallClock cause, (d.process doc wallClock).1 = .error cause →
      (d.process doc wallClock).2 = { d with scrollTo := none } ∧
      ∀ next clock, (d.process doc wallClock).2.process next clock = d.process next clock) ∧
    ∀ es : List Event,
      (d.after (es.filter (!·.isRefused))).still = (d.after es).still ∧
      d.results (es.filter (!·.isRefused)) = (d.results es).filter (·.isOk) := by
  refine ⟨fun doc wallClock cause hrefused => ?_, fun es => ?_⟩
  · have hafter := process_of_refused hrefused
    exact ⟨hafter, fun next clock => by rw [hafter, process_still]⟩
  · exact ⟨still_after_filter d es, results_filter d es⟩

/-- A history page that jumps to its anchor and then comes to a document without a kind. -/
theorem refused_after_jump :
    let ctx := PageContext.new .jail .hosted (some "m") none
    let d := (new ctx ⟨100, 1, 0, 1, some "builds"⟩).after
      [.document (.object [("builds", .object [("b1", .object [])])]) 0]
    let doc : Document := .object [("status", .text "stopped:done:")]
    ∃ cause, (d.process doc 0).1 = .error cause ∧ d.scrollTo = some "builds" ∧
      (d.process doc 0).2 = { d with scrollTo := none } ∧
      ∀ next clock, (d.process doc 0).2.process next clock = d.process next clock := by
  intro ctx d doc
  obtain ⟨cause, hrefused⟩ : ∃ cause, (d.process doc 0).1 = .error cause := ⟨_, rfl⟩
  exact ⟨cause, hrefused, by decide +kernel, (refused_document d).1 doc 0 cause hrefused⟩

end BuildBoard
