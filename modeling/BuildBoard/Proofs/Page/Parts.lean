import BuildBoard.Page.Build

/-!
# The parts of a page that a report changes

A report changes a page in steps, and each step has fields of its own: the counters with the bar, the
names with the status, the builders, the rates, the package tables with their cursors. Whatever is to
be said of one field needs the step that owns it and, of the others, only that they do not.

Results:
1. `relayout_eq`, `updateStats_eq`, `updateBuilders_eq`, `updateSnap_eq`, `updatePackages_eq`: the
   fields of each step.
2. `update_eq`: a report's names are on the page that its packages come to.
3. `update_shape`: counters and names after a report do not depend on the rest of it.
4. `builders_update`, `window_update`: the table of builders and the rate window after a report.
-/

namespace BuildBoard

namespace BuildPage

variable (ctx : PageContext) (r : BuildReport)

theorem relayout_eq (p : BuildPage) (width : Nat) :
    ∃ percent bar, p.relayout width = { p with percent, bar } := by
  unfold relayout
  split <;> exact ⟨_, _, rfl⟩

theorem updateStats_eq (p : BuildPage) (width : Nat) :
    ∃ stats percent bar, p.updateStats r width = { p with stats, percent, bar } := by
  unfold updateStats
  split
  · obtain ⟨percent, bar, heq⟩ := relayout_eq _ width
    exact ⟨_, percent, bar, heq⟩
  · exact ⟨_, _, _, rfl⟩

theorem updateBuilders_eq (p : BuildPage) (now : Int) :
    ∃ builders, p.updateBuilders r now = { p with builders } := by
  unfold updateBuilders
  split <;> exact ⟨_, rfl⟩

theorem updateSnap_eq (p : BuildPage) :
    ∃ snap window, p.updateSnap r = { p with snap, window } := by
  unfold updateSnap
  split <;> exact ⟨_, _, rfl⟩

theorem updateTable_eq (packages : Packages) (p : BuildPage) (c : Category) :
    ∃ tables cursors, p.updateTable ctx r packages c = { p with tables, cursors } := by
  unfold updateTable
  dsimp only
  split
  · split
    · exact ⟨_, _, rfl⟩
    · split <;> exact ⟨_, _, rfl⟩
  · exact ⟨_, _, rfl⟩

theorem foldl_updateTable_eq (packages : Packages) (cs : List Category) (p : BuildPage) :
    ∃ tables cursors, cs.foldl (updateTable ctx r packages) p = { p with tables, cursors } := by
  induction cs generalizing p with
  | nil => exact ⟨_, _, rfl⟩
  | cons c cs ih =>
    obtain ⟨tables, cursors, heq⟩ := updateTable_eq ctx r packages p c
    rw [List.foldl_cons, heq]
    exact ih _

theorem updatePackages_eq (p : BuildPage) :
    ∃ tables cursors, p.updatePackages ctx r = { p with tables, cursors } := by
  unfold updatePackages
  split
  · exact foldl_updateTable_eq ctx r _ Category.all _
  · exact ⟨_, _, rfl⟩

/-- The packages of a report come to a page that has its names, and tables and cursors from
before. -/
theorem update_eq (p : BuildPage) (width : Nat) (wallClock : Int) :
    ∃ q : BuildPage, p.update ctx r width wallClock = q.updatePackages ctx r ∧
      q.tables = p.tables ∧ q.cursors = p.cursors ∧ q.info = some (BuildInfo.ofReport r) := by
  refine ⟨_, rfl, ?_⟩
  obtain ⟨stats, percent, bar, hstats⟩ := updateStats_eq r p width
  rw [hstats]
  obtain ⟨builders, hbuilders⟩ := updateBuilders_eq r
    (updateInfo r { p with stats, percent, bar }) (clockOf r wallClock)
  rw [hbuilders]
  obtain ⟨snap, window, hsnap⟩ := updateSnap_eq r
    { updateInfo r { p with stats, percent, bar } with builders }
  rw [hsnap]
  exact ⟨rfl, rfl, rfl⟩

/-- A report changes counters and names each in one step, and all else beside them. -/
theorem update_shape (p : BuildPage) (width : Nat) (wallClock : Int) :
    ∃ builders snap window tables cursors,
      p.update ctx r width wallClock =
        { updateInfo r (p.updateStats r width) with builders, snap, window, tables, cursors } := by
  obtain ⟨builders, hbuilders⟩ := updateBuilders_eq r (updateInfo r (p.updateStats r width))
    (clockOf r wallClock)
  obtain ⟨snap, window, hsnap⟩ := updateSnap_eq r
    { updateInfo r (p.updateStats r width) with builders }
  obtain ⟨tables, cursors, hpackages⟩ := updatePackages_eq ctx r
    { updateInfo r (p.updateStats r width) with builders, snap, window }
  refine ⟨builders, snap, window, tables, cursors, ?_⟩
  rw [update, hbuilders, hsnap, hpackages]

theorem info_update (p : BuildPage) (width : Nat) (wallClock : Int) :
    (p.update ctx r width wallClock).info = some (BuildInfo.ofReport r) := by
  obtain ⟨_, _, _, _, _, hupdate⟩ := update_shape ctx r p width wallClock
  rw [hupdate]
  rfl

/-- A report with jobs is one poll of the table of builders, and one without leaves it alone. -/
theorem builders_update (width : Nat) (wallClock : Int) (p : BuildPage) :
    (p.update ctx r width wallClock).builders =
      match r.jobs with
      | some jobs => p.builders.update (builderRows r (clockOf r wallClock) jobs)
      | none => p.builders := by
  obtain ⟨stats, percent, bar, hstats⟩ := updateStats_eq r p width
  obtain ⟨snap, window, hsnap⟩ := updateSnap_eq r
    ((updateInfo r (p.updateStats r width)).updateBuilders r (clockOf r wallClock))
  obtain ⟨tables, cursors, hpackages⟩ := updatePackages_eq ctx r
    (((updateInfo r (p.updateStats r width)).updateBuilders r (clockOf r wallClock)).updateSnap r)
  have hinfo : (updateInfo r (p.updateStats r width)).builders = p.builders := by
    rw [hstats]
    rfl
  rw [update, hpackages, hsnap]
  unfold updateBuilders
  cases r.jobs with
  | none => exact hinfo
  | some jobs => exact congrArg (KeyedTable.update · _) hinfo

/-- A report with counters and a copy of them is one poll of the rate window. -/
theorem window_update (width : Nat) (wallClock : Int) (p : BuildPage) :
    (p.update ctx r width wallClock).window =
      match r.stats, r.snap with
      | some stats, some snap => (p.window.record ⟨stats.attempted, snap.stats.elapsed⟩).2
      | _, _ => p.window := by
  obtain ⟨stats, percent, bar, hstats⟩ := updateStats_eq r p width
  obtain ⟨builders, hbuilders⟩ := updateBuilders_eq r (updateInfo r (p.updateStats r width))
    (clockOf r wallClock)
  obtain ⟨tables, cursors, hpackages⟩ := updatePackages_eq ctx r
    (((updateInfo r (p.updateStats r width)).updateBuilders r (clockOf r wallClock)).updateSnap r)
  rw [update, hpackages, hbuilders, hstats]
  unfold updateSnap
  cases r.stats with
  | none => rfl
  | some stats => cases r.snap <;> rfl

theorem info_relayout (p : BuildPage) (width : Nat) : (p.relayout width).info = p.info := by
  obtain ⟨percent, bar, heq⟩ := relayout_eq p width
  rw [heq]

end BuildPage

end BuildBoard
