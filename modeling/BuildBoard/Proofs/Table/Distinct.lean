import BuildBoard.Proofs.Table.Batch
import Mathlib.Data.List.Nodup
import Mathlib.Data.Nat.Find

/-!
# Tables of distinct rows

A batch does not compare the rows that wait in it, so a table may come to hold an identity twice. It
does not where every poll gives each new identity once. A table of distinct rows is then a map: each
row is found by its identity, and its highlight tells how it came about.

Results:
1. `Indexed.ids_update`: a poll appends the identities that are new, as often as it gives them.
2. `Indexed.nodup_ids_update_iff`: when a table is distinct after a poll.
3. `Indexed.row?_of_mem`: in a distinct table every row is found.
4. `Indexed.highlight_update`: what the highlights say after a poll of distinct rows.
-/

namespace BuildBoard

namespace KeyedTable

variable {ρ : Type u} [Keyed ρ] {t : KeyedTable ρ}

/-! ## Identities -/

/-- The index finds every identity that is there. -/
theorem Indexed.row?_eq_none_iff_notMem (h : t.Indexed) (id : String) :
    t.row? id = none ↔ id ∉ t.ids := by
  rw [h.row?_eq_none_iff]
  constructor
  · intro hnone hmem
    obtain ⟨i, hi⟩ := List.getElem?_of_mem hmem
    have hbound : ∀ j, t.ids[j]? = some id → j ≤ t.ids.length := fun j hj =>
      Nat.le_of_lt (List.getElem?_eq_some_iff.mp hj).1
    have hgreatest : IsGreatest {j | t.ids[j]? = some id}
        (Nat.findGreatest (fun j => t.ids[j]? = some id) t.ids.length) :=
      ⟨Nat.findGreatest_spec (P := fun j => t.ids[j]? = some id) (hbound i hi) hi,
        fun j hj => Nat.le_findGreatest (hbound j hj) hj⟩
    rw [(h id _).mpr hgreatest] at hnone
    cases hnone
  · intro hmem
    cases hi : t.index.lookup id with
    | none => rfl
    | some i => exact absurd (List.mem_of_getElem? (h.holds hi)) hmem

theorem newRows_map_id (h : t.Indexed) (rows : List ρ) :
    (t.newRows rows).map Keyed.id =
      (rows.map Keyed.id).filter fun id => decide (id ∉ t.ids) := by
  rw [List.filter_map, newRows]
  refine congrArg (List.map Keyed.id) (List.filter_congr fun row _ => ?_)
  show (t.row? (Keyed.id row)).isNone = decide (Keyed.id row ∉ t.ids)
  rw [Bool.eq_iff_iff, Option.isNone_iff_eq_none, h.row?_eq_none_iff_notMem, decide_eq_true_iff]

/-- In a distinct table an identity is found where it stands. -/
theorem Indexed.lookup_of_nodup (h : t.Indexed) (hnodup : t.ids.Nodup) {id : String} {i : Nat}
    (hi : t.ids[i]? = some id) : t.index.lookup id = some i := by
  refine (h id i).mpr ⟨hi, fun j hj => Nat.le_of_eq ?_⟩
  have hlt := (List.getElem?_eq_some_iff.mp hj).1
  exact (List.getElem?_inj hlt hnodup).mp (hj.trans hi.symm)

theorem Indexed.row?_of_mem (h : t.Indexed) (hnodup : t.ids.Nodup) {e : MarkedRow ρ}
    (he : e ∈ t.entries) : t.row? (Keyed.id e.row) = some e.row := by
  obtain ⟨i, hi⟩ := List.getElem?_of_mem he
  have hrow : t.rowAt? i = some e.row := by rw [rowAt?, hi, Option.map_some]
  rw [← h.rowAt?_eq (h.lookup_of_nodup hnodup (ids_of_rowAt? hrow)), hrow]

/-- Of distinct rows the last one with an identity is the only one. -/
theorem lastOf_of_mem {rows : List ρ} (hrows : (rows.map Keyed.id).Nodup) {row : ρ}
    (hrow : row ∈ rows) : lastOf (Keyed.id row) rows = some row := by
  cases hlast : lastOf (Keyed.id row) rows with
  | none => exact absurd rfl ((lastOf_eq_none_iff _ rows).mp hlast row hrow)
  | some last =>
    obtain ⟨hmem, hid⟩ := mem_of_lastOf hlast
    rw [List.inj_on_of_nodup_map hrows hmem hrow hid]

/-! ## A poll -/

variable [DecidableEq ρ]

theorem Indexed.update (h : t.Indexed) (rows : List ρ) : (t.update rows).Indexed :=
  indexed_apply h (.batch rows true)

theorem Indexed.ids_update (h : t.Indexed) (rows : List ρ) :
    (t.update rows).ids =
      t.ids ++ (rows.map Keyed.id).filter fun id => decide (id ∉ t.ids) := by
  rw [KeyedTable.update, (commit_effect h rows).ids, newRows_map_id h]

/-- A table is distinct after a poll if it was before and the poll gives no new identity twice. -/
theorem Indexed.nodup_ids_update_iff (h : t.Indexed) (rows : List ρ) :
    (t.update rows).ids.Nodup ↔
      t.ids.Nodup ∧ ((rows.map Keyed.id).filter fun id => decide (id ∉ t.ids)).Nodup := by
  rw [h.ids_update, List.nodup_append]
  refine ⟨fun hall => ⟨hall.1, hall.2.1⟩, fun hboth => ⟨hboth.1, hboth.2, ?_⟩⟩
  rintro id hold _ hnew rfl
  exact of_decide_eq_true (List.mem_filter.mp hnew).2 hold

/-- A poll finds the row that it left or stored. -/
theorem Indexed.row?_update (h : t.Indexed) (rows : List ρ) (id : String) :
    (t.update rows).row? id = (lastOf id rows).or (t.row? id) := (commit_effect h rows).row id

/-! ## Highlights -/

/-- Rows of other identities that are queued leave a row as it is. -/
theorem Indexed.row?_queueAll_of_ne (h : t.Indexed) {rows : List ρ} {id : String}
    (hrows : ∀ row ∈ rows, Keyed.id row ≠ id) :
    ((Batch.start t).queueAll rows).table.row? id = t.row? id := by
  have q := queueAll_spec h rows
  have hrow := q.row id
  have hpending : lastOf id (t.newRows rows) = none :=
    (lastOf_eq_none_iff id _).mpr fun row hnew => hrows row (List.mem_filter.mp hnew).1
  rwa [q.pending, hpending, (lastOf_eq_none_iff id rows).mpr hrows, Option.none_or,
    Option.none_or] at hrow

/-- Of distinct rows each is compared with what was there before the poll. -/
theorem Indexed.changes_iff (h : t.Indexed) {rows : List ρ} (hrows : (rows.map Keyed.id).Nodup)
    (i : Nat) :
    t.Changes rows i ↔
      ∃ row ∈ rows, t.index.lookup (Keyed.id row) = some i ∧ t.row? (Keyed.id row) ≠ some row := by
  have hcompared : ∀ before row after, rows = before ++ row :: after →
      t.index.lookup (Keyed.id row) = some i →
      ((Batch.start t).queueAll before).table.rowAt? i = t.row? (Keyed.id row) := by
    rintro before row after rfl hi
    have hbefore : ∀ other ∈ before, Keyed.id other ≠ Keyed.id row := by
      rw [List.map_append, List.nodup_append] at hrows
      exact fun other hother =>
        hrows.2.2 _ (List.mem_map_of_mem hother) _ (List.mem_map_of_mem List.mem_cons_self)
    have q := queueAll_spec h before
    rw [(indexed_queueAll h before).rowAt?_eq (q.index ▸ hi), h.row?_queueAll_of_ne hbefore]
  constructor
  · rintro ⟨before, row, after, hsplit, hi, hne⟩
    refine ⟨row, hsplit ▸ List.mem_append_right _ List.mem_cons_self, hi, ?_⟩
    rwa [← hcompared before row after hsplit hi]
  · rintro ⟨row, hrow, hi, hne⟩
    obtain ⟨before, after, hsplit⟩ := List.append_of_mem hrow
    exact ⟨before, row, after, hsplit, hi, by rwa [hcompared before row after hsplit hi]⟩

/-- A known row changes if the poll leaves another one in its place. -/
theorem Indexed.changes_iff_ne (h : t.Indexed) {rows : List ρ} (hrows : (rows.map Keyed.id).Nodup)
    {i : Nat} {row old : ρ} (hi : t.index.lookup (Keyed.id row) = some i)
    (hold : t.row? (Keyed.id row) = some old)
    (hrow : (lastOf (Keyed.id row) rows).or (some old) = some row) :
    t.Changes rows i ↔ old ≠ row := by
  rw [h.changes_iff hrows]
  constructor
  · rintro ⟨polled, hpolled, hlookup, hne⟩
    have hsame : Keyed.id polled = Keyed.id row :=
      Option.some.inj ((h.holds hlookup).symm.trans (h.holds hi))
    rw [← hsame, lastOf_of_mem hrows hpolled, Option.some_or] at hrow
    obtain rfl := Option.some.inj hrow
    rw [hold] at hne
    exact mt (congrArg some) hne
  · intro hne
    cases hlast : lastOf (Keyed.id row) rows with
    | none =>
      rw [hlast, Option.none_or] at hrow
      exact absurd (Option.some.inj hrow) hne
    | some polled =>
      rw [hlast, Option.some_or] at hrow
      obtain rfl := Option.some.inj hrow
      refine ⟨polled, (mem_of_lastOf hlast).1, hi, ?_⟩
      rw [hold]
      exact mt Option.some.inj hne

/-- Behind the rows from before stand new ones, which fade in unless they are the first. -/
theorem Indexed.new_of_le (h : t.Indexed) {rows : List ρ} {i : Nat} {e : MarkedRow ρ}
    (hi : (t.update rows).entries[i]? = some e) (hle : t.length ≤ i) :
    t.row? (Keyed.id e.row) = none ∧
      e.highlight = if t.entries = [] then .none else .fadeIn := by
  have hmem : e ∈ (t.update rows).entries.drop t.length := by
    refine List.mem_of_getElem? (i := i - t.length) ?_
    rw [List.getElem?_drop, Nat.add_sub_cancel' hle, hi]
  rw [KeyedTable.update, (commit_effect h rows).appended] at hmem
  obtain ⟨row, hnew, rfl⟩ := List.mem_map.mp hmem
  exact ⟨Option.isNone_iff_eq_none.mp (List.mem_filter.mp hnew).2, rfl⟩

/-- After a poll of distinct rows a row flashes where it differs from the one before, and fades in
where it is new to a table that had rows. -/
theorem Indexed.highlight_update (h : t.Indexed) (hnodup : t.ids.Nodup) {rows : List ρ}
    (hrows : (rows.map Keyed.id).Nodup) {e : MarkedRow ρ} (he : e ∈ (t.update rows).entries) :
    (e.highlight = .flash ↔ ∃ old, t.row? (Keyed.id e.row) = some old ∧ old ≠ e.row) ∧
      (e.highlight = .fadeIn ↔ t.row? (Keyed.id e.row) = none ∧ t.entries ≠ []) := by
  obtain ⟨i, hi⟩ := List.getElem?_of_mem he
  rcases Nat.lt_or_ge i t.length with hlt | hge
  · -- a place that was there before has kept its identity
    have hid : t.ids[i]? = some (Keyed.id e.row) := by
      have hids : (t.update rows).ids[i]? = some (Keyed.id e.row) := by
        rw [getElem?_ids, hi, Option.map_some]
      rwa [h.ids_update, List.getElem?_append_left (by rwa [length_ids])] at hids
    have hlookup := h.lookup_of_nodup hnodup hid
    obtain ⟨old, hold⟩ : ∃ old, t.row? (Keyed.id e.row) = some old := by
      rw [← Option.ne_none_iff_exists', ne_eq, h.row?_eq_none_iff, hlookup]
      exact Option.some_ne_none i
    have hrow : (lastOf (Keyed.id e.row) rows).or (some old) = some e.row := by
      have hdistinct : (t.update rows).ids.Nodup :=
        (h.nodup_ids_update_iff rows).mpr ⟨hnodup, hrows.filter _⟩
      rw [← hold, ← h.row?_update, (h.update rows).row?_of_mem hdistinct he]
    have hflash := (commit_effect h rows).flashes i e hlt hi
    rw [Flashes, h.changes_iff_ne hrows hlookup hold hrow] at hflash
    rw [hold]
    rcases hflash with ⟨hmark, hne⟩ | ⟨hmark, heq⟩
    · simp [hmark, hne]
    · simp [hmark, heq]
  · obtain ⟨hnone, hmark⟩ := h.new_of_le hi hge
    rw [hnone, hmark]
    by_cases hempty : t.entries = [] <;> simp [hempty]

end KeyedTable

end BuildBoard
