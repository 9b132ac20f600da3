import BuildBoard.Proofs.PackageTables
import BuildBoard.Proofs.Table.Batch

/-!
# Idle builders

Once a build has stopped, its idle builders are left out of a report's rows. A row that an earlier
report brought is not taken away by that: it stays until a busy builder of its identity takes its
place.

Results:
1. `mem_builderRows_iff`: the rows that a report of a stopped build shows.
2. `builders_indexed`: the table of builders over a run.
3. `isIdle_update_iff`: which rows are idle after such a report.
4. `idle_builders_after_stop`: when no idle builder is left to be seen.
5. `idle_builder_stays`: an idle builder that is still there after the build has stopped.
-/

namespace BuildBoard

/-! ## Definitions -/

/-- A job without a package, in the idle state. -/
def Job.IsIdle (job : Job) : Prop := nonEmpty job.pkgname = none ∧ Status.state job.status = "idle"

instance (job : Job) : Decidable job.IsIdle := inferInstanceAs (Decidable (_ ∧ _))

namespace BuildPage

/-! ## The rows of a report -/

theorem isIdle_ofJob (now : Int) (job : Job) : (BuilderRow.ofJob now job).isIdle ↔ job.IsIdle := by
  simp only [BuilderRow.isIdle, BuilderRow.ofJob, Job.IsIdle, Bool.and_eq_true,
    Option.isNone_iff_eq_none, beq_iff_eq]

variable {r : BuildReport} {jobs : List Job}

/-- Once the build has stopped the busy builders are shown, and they alone. -/
theorem mem_builderRows_iff (hstopped : isStopped r) (now : Int) (row : BuilderRow) :
    row ∈ builderRows r now jobs ↔
      ∃ job ∈ jobs, ¬ job.IsIdle ∧ BuilderRow.ofJob now job = row := by
  simp only [builderRows, List.mem_filter, List.mem_map, hstopped, Bool.true_and,
    Bool.not_eq_true', ← Bool.not_eq_true]
  constructor
  · rintro ⟨⟨job, hjob, rfl⟩, hbusy⟩
    exact ⟨job, hjob, mt (isIdle_ofJob now job).mpr hbusy, rfl⟩
  · rintro ⟨job, hjob, hbusy, rfl⟩
    exact ⟨⟨job, hjob, rfl⟩, mt (isIdle_ofJob now job).mp hbusy⟩

/-! ## The table over a run -/

theorem builders_indexed (window : RateWindow) (as : List Arrival) :
    (after window as).builders.Indexed := by
  induction as using List.reverseRecOn with
  | nil => exact KeyedTable.indexed_empty
  | append_singleton as a ih =>
    rw [PackageTables.after_append]
    show (update a.ctx a.report a.width a.wallClock (after window as)).builders.Indexed
    rw [builders_update]
    split
    · next jobs _ => exact KeyedTable.indexed_apply ih (.batch _ true)
    · exact ih

/-! ## After the stop -/

section

variable {t : KeyedTable BuilderRow}

/-- An identity is gone if no row had it and no busy builder has it. -/
theorem ids_update_disjoint_iff (h : t.Indexed) (hstopped : isStopped r) (now : Int)
    (jobs : List Job) :
    (∀ id ∈ (t.update (builderRows r now jobs)).ids, ∀ job ∈ jobs, job.IsIdle → id ≠ job.id) ↔
      ∀ job ∈ jobs, job.IsIdle → (∀ id ∈ t.ids, id ≠ job.id) ∧
        ∀ other ∈ jobs, ¬ other.IsIdle → other.id ≠ job.id := by
  simp only [h.mem_ids_update_iff, mem_builderRows_iff hstopped]
  constructor
  · intro hgone job hjob hidle
    refine ⟨fun id hid => hgone id (.inl hid) job hjob hidle, fun other hother hbusy => ?_⟩
    exact hgone other.id (.inr ⟨_, ⟨other, hother, hbusy, rfl⟩, rfl⟩) job hjob hidle
  · rintro hgone id hid job hjob hidle
    obtain ⟨hbefore, hothers⟩ := hgone job hjob hidle
    rcases hid with hid | ⟨_, ⟨other, hother, hbusy, rfl⟩, rfl⟩
    · exact hbefore id hid
    · exact hothers other hother hbusy

theorem lastOf_builderRows_eq_none_iff (hstopped : isStopped r) (now : Int) (jobs : List Job)
    (id : String) :
    KeyedTable.lastOf id (builderRows r now jobs) = none ↔
      ¬ ∃ job ∈ jobs, ¬ job.IsIdle ∧ job.id = id := by
  rw [KeyedTable.lastOf_eq_none_iff]
  simp only [mem_builderRows_iff hstopped]
  constructor
  · rintro hrows ⟨job, hjob, hbusy, rfl⟩
    exact hrows _ ⟨job, hjob, hbusy, rfl⟩ rfl
  · rintro hjobs _ ⟨job, hjob, hbusy, rfl⟩ hid
    exact hjobs ⟨job, hjob, hbusy, hid⟩

/-- After a report of a stopped build the idle rows are those from before whose place no busy
builder takes. -/
theorem isIdle_update_iff (h : t.Indexed) (hstopped : isStopped r) (now : Int) (jobs : List Job)
    (i : Nat) (row : BuilderRow) :
    (t.update (builderRows r now jobs)).rowAt? i = some row ∧ row.isIdle ↔
      t.rowAt? i = some row ∧ row.isIdle ∧
        ¬ (t.index.lookup row.id = some i ∧ ∃ job ∈ jobs, ¬ job.IsIdle ∧ job.id = row.id) := by
  have hbusy : ∀ row ∈ builderRows r now jobs, ¬ row.isIdle := by
    intro row hrow
    obtain ⟨job, -, hjob, rfl⟩ := (mem_builderRows_iff hstopped now row).mp hrow
    exact mt (isIdle_ofJob now job).mp hjob
  have hnone := lastOf_builderRows_eq_none_iff hstopped now jobs
  constructor
  · rintro ⟨hafter, hidle⟩
    -- an idle row was not polled, so it stands among those from before
    have hlt : i < t.entries.length := by
      by_contra hge
      exact hbusy row (h.mem_of_rowAt?_update _ hafter (Nat.not_lt.mp hge)) hidle
    have hknown : t.rowAt? i = some (t.entries[i]).row := by
      rw [KeyedTable.rowAt?, List.getElem?_eq_getElem hlt]
      rfl
    generalize (t.entries[i]).row = known at hknown
    have hrow := Option.some.inj (hafter.symm.trans (h.rowAt?_update _ hknown))
    split at hrow
    · cases hlast : KeyedTable.lastOf (Keyed.id known) (builderRows r now jobs) with
      | none =>
        rw [hlast, Option.getD_none] at hrow
        subst hrow
        exact ⟨hknown, hidle, fun hplace => (hnone _).mp hlast hplace.2⟩
      | some last =>
        rw [hlast, Option.getD_some] at hrow
        subst hrow
        exact absurd hidle (hbusy row (KeyedTable.mem_of_lastOf hlast).1)
    · next hlookup =>
      subst hrow
      exact ⟨hknown, hidle, fun hplace => hlookup hplace.1⟩
  · rintro ⟨hbefore, hidle, hplace⟩
    refine ⟨?_, hidle⟩
    rw [h.rowAt?_update _ hbefore]
    split
    · next hlookup =>
      have hlast := (hnone (Keyed.id row)).mpr fun hjob => hplace ⟨hlookup, hjob⟩
      rw [hlast, Option.getD_none]
    · rfl

end

end BuildPage

open BuildPage

/-- When no idle builder is left to be seen, once a build has stopped: a row of an idle builder's
identity is left out, but neither taken away nor kept from a busy one of that identity, and an idle
row goes only where a busy builder takes its place. -/
theorem idle_builders_after_stop (window : RateWindow) (as : List Arrival) (a : Arrival)
    {jobs : List Job} (hstopped : isStopped a.report) (hjobs : a.report.jobs = some jobs) :
    let before := (after window as).builders
    let after := (after window (as ++ [a])).builders
    ((∀ e ∈ after.entries, ∀ job ∈ jobs, job.IsIdle → e.row.id ≠ job.id) ↔
      ∀ job ∈ jobs, job.IsIdle → (∀ e ∈ before.entries, e.row.id ≠ job.id) ∧
        ∀ other ∈ jobs, ¬ other.IsIdle → other.id ≠ job.id) ∧
    ((∀ e ∈ after.entries, ¬ e.row.isIdle) ↔
      ∀ i e, before.entries[i]? = some e → e.row.isIdle →
        before.index.lookup e.row.id = some i ∧
          ∃ job ∈ jobs, ¬ job.IsIdle ∧ job.id = e.row.id) := by
  intro before after
  have hbefore : before.Indexed := builders_indexed window as
  have hafter : after =
      before.update (builderRows a.report (clockOf a.report a.wallClock) jobs) := by
    show (BuildPage.after window (as ++ [a])).builders = _
    rw [PackageTables.after_append]
    show (update a.ctx a.report a.width a.wallClock (BuildPage.after window as)).builders = _
    rw [builders_update, hjobs]
  rw [hafter]
  constructor
  · have hids := ids_update_disjoint_iff hbefore hstopped
      (clockOf a.report a.wallClock) jobs
    simp only [KeyedTable.ids, List.forall_mem_map] at hids
    exact hids
  · have hidle := isIdle_update_iff hbefore hstopped (clockOf a.report a.wallClock)
      jobs
    refine (KeyedTable.forall_row_iff _ fun row : BuilderRow => ¬ row.isIdle).trans ?_
    constructor
    · intro hnone i e he hi
      by_contra hplace
      have hrow : before.rowAt? i = some e.row := by rw [KeyedTable.rowAt?, he]; rfl
      exact hnone i e.row ((hidle i e.row).mpr ⟨hrow, hi, hplace⟩).1 hi
    · intro hplaced i row hrow hi
      obtain ⟨hold, -, hplace⟩ := (hidle i row).mp ⟨hrow, hi⟩
      obtain ⟨e, he, rfl⟩ := Option.map_eq_some_iff.mp hold
      exact hplace (hplaced i e he hi)

/-- A report of two builders, of which the second one is idle. -/
def twoBuilders (status : String) : Arrival where
  ctx := PageContext.new .build .hosted (some "m") (some "b")
  report :=
    { BuildReport.ofFields [] [] with
      status := some (.text status)
      jobs := some [
        ⟨"01", "build:misc/x", some "x-1", none, none, none⟩,
        ⟨"02", "idle:", none, none, none, none⟩] }
  width := 0
  wallClock := 0

/-- Where the first report is that of a stopped build, its idle builder is not to be seen. -/
theorem idle_builder_hidden_at_once :
    let a := twoBuilders "stopped:done:"
    let p := after (RateWindow.new 1 0 1) [a]
    isStopped a.report ∧ ∃ jobs, a.report.jobs = some jobs ∧
      (∀ e ∈ p.builders.entries, ∀ job ∈ jobs, job.IsIdle → e.row.id ≠ job.id) ∧
      ∀ e ∈ p.builders.entries, ¬ e.row.isIdle := by
  intro a p
  have hstopped : isStopped a.report := by decide +kernel
  obtain ⟨hids, hidle⟩ := idle_builders_after_stop (RateWindow.new 1 0 1) [] a hstopped rfl
  exact ⟨hstopped, _, rfl, hids.mpr (by decide +kernel), hidle.mpr nofun⟩

/-- An idle builder that was seen while the build was running is still seen after the stop. -/
theorem idle_builder_stays :
    let running := twoBuilders "parallel_build:"
    let stopped := twoBuilders "stopped:done:"
    let p := after (RateWindow.new 1 0 1) [running, stopped]
    isStopped stopped.report ∧ ∃ jobs, stopped.report.jobs = some jobs ∧
      ∃ e ∈ p.builders.entries, e.row.isIdle ∧
        ∃ job ∈ jobs, job.IsIdle ∧ e.row.id = job.id := by
  refine ⟨by decide +kernel, _, rfl, ?_⟩
  decide +kernel

end BuildBoard
