import BuildBoard.Proofs.Table.Poll

/-!
# Keyed tables seen without detail

Part of what rows hold may be left out of sight, as long as their identities stay: two tables that look
alike then still look alike after a poll of rows that look alike. A poll compares whole rows, so it may
take the row of the one table for changed and that of the other for unchanged; but that is seen in
highlights only, since either way the row stands where the index says.

Results:
1. `blur_replace`, `blur_addRows`: what is seen of the operations on a table.
2. `queue_cases`: what queueing a row does, whether the row is taken for changed or not.
3. `blur_update_congr`: polls of rows that look alike.
-/

namespace BuildBoard

variable {ρ : Type u} [Keyed ρ] {f : ρ → ρ}

namespace KeyedTable

/-- The table with its rows seen through `f`, without highlights. -/
def blur (f : ρ → ρ) (t : KeyedTable ρ) : KeyedTable ρ :=
  { t with entries := t.entries.map fun e => ⟨f e.row, .none⟩ }

/-! ## Operations -/

omit [Keyed ρ] in
theorem row?_blur (t : KeyedTable ρ) (id : String) : (t.blur f).row? id = (t.row? id).map f := by
  unfold row? entry?
  rw [show (t.blur f).index = t.index from rfl]
  cases t.index.lookup id with
  | none => rfl
  | some i => simp [blur, Function.comp_def]

theorem blur_replace (hf : ∀ row, Keyed.id (f row) = Keyed.id row) (t : KeyedTable ρ) (row : ρ) :
    (t.replace row).2.blur f = ((t.blur f).replace (f row)).2.settle := by
  have hindex : (t.blur f).index = t.index := rfl
  unfold replace
  rw [hf, hindex]
  cases t.index.lookup (Keyed.id row) with
  | none => simp only [blur, settle, List.map_map]; rfl
  | some i => simp only [blur, settle, List.map_set, List.map_map]; rfl

/-- A row put in its own place is seen where it was. -/
theorem blur_replace_self {t : KeyedTable ρ} {row : ρ} (h : t.row? (Keyed.id row) = some row) :
    (t.replace row).2.blur f = t.blur f := by
  obtain ⟨e, he, rfl⟩ := Option.map_eq_some_iff.mp h
  obtain ⟨i, hi, hentry⟩ := Option.bind_eq_some_iff.mp he
  unfold replace
  rw [hi]
  simp only [blur, List.map_set]
  have hsame : (t.entries.map fun e => (⟨f e.row, .none⟩ : MarkedRow ρ))[i]? =
      some ⟨f e.row, .none⟩ := by
    rw [List.getElem?_map, hentry]
    rfl
  obtain ⟨hlt, hget⟩ := List.getElem?_eq_some_iff.mp hsame
  rw [← hget, List.set_getElem_self]

theorem blur_addRows (hf : ∀ row, Keyed.id (f row) = Keyed.id row) (t : KeyedTable ρ)
    (rows : List ρ) (highlight : Highlight) :
    (t.addRows rows highlight).blur f = (t.blur f).addRows (rows.map f) .none := by
  induction rows generalizing t with
  | nil => rfl
  | cons row rows ih =>
    have hrow : (t.addRow highlight row).blur f = (t.blur f).addRow .none (f row) := by
      simp [blur, addRow, hf]
    have hrest := ih (t.addRow highlight row)
    rw [hrow] at hrest
    exact hrest

end KeyedTable

/-! ## Batches -/

namespace Batch

/-- Two batches that look alike. -/
structure Alike (f : ρ → ρ) (b b' : Batch ρ) : Prop where
  table : b.table.blur f = b'.table.blur f
  pending : b.pending.map f = b'.pending.map f
  firstLoad : b.firstLoad = b'.firstLoad

/-- A row of this identity waits until the batch is committed. -/
def Waits (b : Batch ρ) (id : String) : Prop := b.firstLoad = true ∨ b.table.row? id = none

omit [Keyed ρ] in
theorem Alike.waits_iff {b b' : Batch ρ} (h : b.Alike f b') (id : String) :
    b.Waits id ↔ b'.Waits id := by
  rw [Waits, Waits, h.firstLoad, ← Option.map_eq_none_iff (f := f), ← KeyedTable.row?_blur, h.table,
    KeyedTable.row?_blur, Option.map_eq_none_iff]

variable [DecidableEq ρ]

/-- A row waits, or it stands where the one with its identity stood. -/
theorem queue_cases (f : ρ → ρ) (b : Batch ρ) (row : ρ) :
    (b.Waits (Keyed.id row) ∧
      (b.queue row).table = b.table ∧ (b.queue row).pending = row :: b.pending) ∨
    (¬ b.Waits (Keyed.id row) ∧
      (b.queue row).table.blur f = (b.table.replace row).2.blur f ∧
      (b.queue row).pending = b.pending) := by
  unfold queue classify Waits
  cases hfirst : b.firstLoad with
  | true => exact .inl ⟨.inl rfl, rfl, rfl⟩
  | false =>
    cases hrow : b.table.row? (Keyed.id row) with
    | none => exact .inl ⟨.inr rfl, rfl, rfl⟩
    | some known =>
      refine .inr ⟨nofun, ?_⟩
      by_cases hsame : known = row
      · subst hsame
        simp [KeyedTable.blur_replace_self hrow]
      · simp [hsame]

theorem Alike.queue (hf : ∀ row, Keyed.id (f row) = Keyed.id row) {b b' : Batch ρ}
    (h : b.Alike f b') {row row' : ρ} (hrow : f row = f row') :
    (b.queue row).Alike f (b'.queue row') := by
  have hid : Keyed.id row = Keyed.id row' := by rw [← hf row, hrow, hf row']
  have hfirstLoad : (b.queue row).firstLoad = (b'.queue row').firstLoad := by
    rw [(KeyedTable.sameShape_queue b row).2, h.firstLoad, (KeyedTable.sameShape_queue b' row').2]
  have hwaits : b.Waits (Keyed.id row) ↔ b'.Waits (Keyed.id row') := by
    rw [← hid]
    exact h.waits_iff _
  rcases queue_cases f b row with ⟨hwait, htable, hpending⟩ | ⟨hknown, htable, hpending⟩
  · obtain ⟨-, htable', hpending'⟩ :=
      (queue_cases f b' row').resolve_right fun hknown' => hknown'.1 (hwaits.mp hwait)
    refine ⟨?_, ?_, hfirstLoad⟩
    · rw [htable, htable', h.table]
    · rw [hpending, hpending', List.map_cons, List.map_cons, hrow, h.pending]
  · obtain ⟨-, htable', hpending'⟩ :=
      (queue_cases f b' row').resolve_left fun hwait' => hknown (hwaits.mpr hwait'.1)
    refine ⟨?_, ?_, hfirstLoad⟩
    · rw [htable, htable', KeyedTable.blur_replace hf, KeyedTable.blur_replace hf, h.table, hrow]
    · rw [hpending, hpending', h.pending]

theorem Alike.queueAll (hf : ∀ row, Keyed.id (f row) = Keyed.id row) {b b' : Batch ρ}
    (h : b.Alike f b') {rows rows' : List ρ} (hrows : rows.map f = rows'.map f) :
    (b.queueAll rows).Alike f (b'.queueAll rows') := by
  induction rows generalizing b b' rows' with
  | nil =>
    obtain rfl := List.map_eq_nil_iff.mp hrows.symm
    exact h
  | cons row rows ih =>
    obtain ⟨row', rest, rfl, hrow, hrest⟩ := List.map_eq_cons_iff.mp hrows.symm
    exact ih (h.queue hf hrow.symm) hrest.symm

omit [DecidableEq ρ] in
theorem Alike.commit (hf : ∀ row, Keyed.id (f row) = Keyed.id row) {b b' : Batch ρ}
    (h : b.Alike f b') : b.commit.blur f = b'.commit.blur f := by
  have hreverse : b.pending.reverse.map f = b'.pending.reverse.map f := by
    rw [List.map_reverse, h.pending, List.map_reverse]
  have hadd : ∀ highlight, (b.table.addRows b.pending.reverse highlight).blur f =
      (b'.table.addRows b'.pending.reverse highlight).blur f := fun highlight => by
    rw [KeyedTable.blur_addRows hf, KeyedTable.blur_addRows hf, h.table, hreverse]
  have hempty : b.pending.reverse.isEmpty = b'.pending.reverse.isEmpty := by
    rw [← List.isEmpty_map (f := f), hreverse, List.isEmpty_map]
  unfold Batch.commit
  dsimp only
  rw [hempty, h.firstLoad]
  split
  · exact h.table
  · split
    · exact congrArg (fun t : KeyedTable ρ => { t with visible := true }) (hadd .none)
    · exact hadd .fadeIn

end Batch

end BuildBoard
