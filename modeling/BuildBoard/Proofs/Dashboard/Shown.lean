import BuildBoard.Proofs.Dashboard.Step

/-!
# The reports behind a page

A page is made by the reports of its kind that came since it was blank. Whatever is to be said of it
follows from them, by induction on how the page came about: it was blank, it was laid out again, or
it took over a report of its kind.

Results:
1. `shown_concat_of_some`: a report joins those of its kind and ends the page of another kind.
2. `Shows.kind_eq`: the reports of a page are of its kind.
3. `shows_after`: after any run the page shown is made by the reports shown.
-/

namespace BuildBoard

/-- An element of a list with one more at its end is that one, or an element of the list. -/
theorem concat_eq_append_cons_iff {α : Type u} {l before after : List α} {a x : α} :
    l ++ [a] = before ++ x :: after ↔
      (before = l ∧ x = a ∧ after = []) ∨ ∃ rest, after = rest ++ [a] ∧ l = before ++ x :: rest := by
  constructor
  · intro h
    rcases List.eq_nil_or_concat after with rfl | ⟨rest, last, rfl⟩
    · obtain ⟨rfl, hlast⟩ := List.append_inj' h rfl
      exact .inl ⟨rfl, (List.cons.inj hlast).1.symm, rfl⟩
    · rw [List.concat_eq_append, ← List.cons_append, ← List.append_assoc] at h
      obtain ⟨rfl, hlast⟩ := List.append_inj' h rfl
      obtain rfl := List.singleton_inj.mp hlast
      exact .inr ⟨rest, List.concat_eq_append, rfl⟩
  · rintro (⟨rfl, rfl, rfl⟩ | ⟨rest, rfl, rfl⟩)
    · rfl
    · rw [List.append_assoc, List.cons_append]

/-- How a page came about, and the reports that it has taken over. -/
inductive PageState.Shows : List Report → PageState → Prop
  | blank (settings : DashboardSettings) (kind : PageKind) : Shows [] (.blank settings kind)
  | relayout {reports : List Report} {state : PageState} (width : Nat) :
      Shows reports state → Shows reports (state.relayout width)
  | update {reports : List Report} {state : PageState} {report : Report} (width : Nat)
      (wallClock : Int) (ctx : PageContext) :
      Shows reports state → state.kind = report.kind →
      Shows (reports ++ [report]) (Dashboard.update width wallClock ctx report state).2.2

theorem PageState.Shows.kind_eq {reports : List Report} {state : PageState}
    (h : Shows reports state) : ∀ report ∈ reports, report.kind = state.kind := by
  induction h with
  | blank => exact List.forall_mem_nil _
  | relayout width _ ih => simpa using ih
  | update width wallClock ctx _ hkind ih =>
    obtain ⟨state', hupdate, hkind'⟩ := Dashboard.update_of_kind_eq width wallClock ctx hkind
    rw [hupdate, hkind']
    intro report hreport
    rcases List.mem_append.mp hreport with hold | hlast
    · exact ih report hold
    · rw [List.mem_singleton.mp hlast, hkind]

namespace Dashboard

/-- The reports that the page after these events has taken over: those of the last kind, since it
was another one. -/
def shown (es : List Event) : List Report :=
  (es.filterMap Event.report?).foldl
    (fun reports report => reports.filter (fun old => decide (old.kind = report.kind)) ++ [report])
    []

variable {es : List Event} {e : Event} {report : Report}

theorem shown_concat_of_none (h : e.report? = none) : shown (es ++ [e]) = shown es := by
  simp [shown, List.filterMap_append, h]

theorem shown_concat_of_some (h : e.report? = some report) :
    shown (es ++ [e]) =
      (shown es).filter (fun old => decide (old.kind = report.kind)) ++ [report] := by
  simp [shown, List.filterMap_append, h]

/-- Every report of a page came with an event. -/
theorem exists_event_of_mem_shown (h : report ∈ shown es) : ∃ e ∈ es, e.report? = some report := by
  induction es using List.reverseRecOn with
  | nil => exact absurd h List.not_mem_nil
  | append_singleton es e ih =>
    have hearlier : report ∈ shown es → ∃ e' ∈ es ++ [e], e'.report? = some report := by
      intro hold
      obtain ⟨e', he', hreport⟩ := ih hold
      exact ⟨e', List.mem_append_left _ he', hreport⟩
    cases hreport : e.report? with
    | none => exact hearlier (shown_concat_of_none hreport ▸ h)
    | some last =>
      rw [shown_concat_of_some hreport] at h
      rcases List.mem_append.mp h with hold | hlast
      · exact hearlier (List.mem_filter.mp hold).1
      · obtain rfl := List.mem_singleton.mp hlast
        exact ⟨e, List.mem_append_right _ (List.mem_singleton_self e), hreport⟩

/-- A report reaches the page that there is, or a blank one if it is of another kind. -/
theorem shows_ofKind {d : Dashboard} (h : d.Agrees) {reports : List Report}
    (hshows : d.state.Shows reports) (kind : PageKind) :
    (d.ofKind kind).state.Shows (reports.filter fun old => decide (old.kind = kind)) := by
  have hkinds := hshows.kind_eq
  rw [show d.state.kind = d.ctx.kind from h] at hkinds
  unfold ofKind
  split
  · next heq =>
    rw [List.filter_eq_self.mpr fun old hold => decide_eq_true ((hkinds old hold).trans heq.symm)]
    exact hshows
  · next hne =>
    rw [List.filter_eq_nil_iff.mpr fun old hold =>
      Bool.not_eq_true _ ▸ decide_eq_false fun hkind => hne (hkind.symm.trans (hkinds old hold))]
    exact .blank _ _

theorem shows_firstLoad {d : Dashboard} {reports : List Report} (h : d.state.Shows reports) :
    d.firstLoad.state.Shows reports := by
  rcases laid_firstLoad d with heq | ⟨width, heq⟩
  · exact heq ▸ h
  · exact heq ▸ h.relayout width

theorem shows_accept {d : Dashboard} (h : d.Agrees) {reports : List Report}
    (hshows : d.state.Shows reports) (report : Report) (wallClock : Int) :
    (d.accept report wallClock).2.state.Shows
      (reports.filter (fun old => decide (old.kind = report.kind)) ++ [report]) := by
  have hpage := (shows_ofKind h hshows report.kind).update (d.ofKind report.kind).barWidth wallClock
    (d.ofKind report.kind).ctx (ofKind_agrees h report.kind).1
  exact shows_firstLoad hpage

theorem shows_handle {d : Dashboard} (h : d.Agrees) (hshows : d.state.Shows (shown es)) (e : Event) :
    (d.handle e).state.Shows (shown (es ++ [e])) := by
  cases hreport : e.report? with
  | none =>
    rw [shown_concat_of_none hreport]
    rcases state_handle_of_none (d := d) hreport with heq | ⟨width, heq⟩
    · exact heq ▸ hshows
    · exact heq ▸ hshows.relayout width
  | some report =>
    rw [shown_concat_of_some hreport]
    obtain ⟨doc, wallClock, rfl, hdoc⟩ := Event.report?_eq_some_iff.mp hreport
    simp only [handle, process, hdoc]
    exact shows_accept (d := { d with scrollTo := none }) h hshows report wallClock

theorem shows_after (ctx : PageContext) (settings : DashboardSettings) (es : List Event) :
    ((new ctx settings).after es).state.Shows (shown es) := by
  induction es using List.reverseRecOn with
  | nil => exact .blank settings ctx.kind
  | append_singleton es e ih =>
    rw [after_concat]
    exact shows_handle (reachable_after ctx settings es).agrees ih e

end Dashboard

end BuildBoard
