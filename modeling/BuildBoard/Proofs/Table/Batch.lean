import BuildBoard.Proofs.Table.Index
import Mathlib.Data.List.Induction

/-!
# What a batch does to a keyed table

A batch works row by row: a row of a known identity is compared with the one in its place and put
there if they differ, the others wait. The outcome depends on the table before and on the queued
rows as a whole.

Results:
1. `queueAll_spec`: the state of a batch after any queued rows.
2. `commit_effect`: what committing a batch does, from a table whose index is right.
3. `Indexed.rowAt?_update`: the row at each position after a poll.
4. `runs_indexed_effect`: the first two hold of every table that operations can build.
-/

namespace BuildBoard

namespace KeyedTable

variable {ρ : Type u} [Keyed ρ]

/-! ## Definitions -/

/-- The last of these rows with an identity. -/
def lastOf (id : String) (rows : List ρ) : Option ρ :=
  rows.reverse.find? fun row => decide (Keyed.id row = id)

/-- The rows that a table does not know, in their order. -/
def newRows (t : KeyedTable ρ) (rows : List ρ) : List ρ :=
  rows.filter fun row => (t.row? (Keyed.id row)).isNone

/-- The row at a position. -/
def rowAt? (t : KeyedTable ρ) (i : Nat) : Option ρ := t.entries[i]?.map MarkedRow.row

variable [DecidableEq ρ]

/-- One of these rows has the identity that the index finds at position `i`, and when it was queued
it differed from the row that stood there. -/
def Changes (t : KeyedTable ρ) (rows : List ρ) (i : Nat) : Prop :=
  ∃ before row after, rows = before ++ row :: after ∧ t.index.lookup (Keyed.id row) = some i ∧
    ((Batch.start t).queueAll before).table.rowAt? i ≠ some row

/-- The highlight of a row at a position that the table had before. -/
def Flashes (t : KeyedTable ρ) (rows : List ρ) (i : Nat) (highlight : Highlight) : Prop :=
  highlight = .flash ∧ t.Changes rows i ∨ highlight = .none ∧ ¬ t.Changes rows i

/-- What a committed batch with these rows makes of a table. -/
structure Effect (t : KeyedTable ρ) (rows : List ρ) (t' : KeyedTable ρ) (summary : BatchSummary) :
    Prop where
  /-- The last queued row of an identity is stored, or what was there before. -/
  row : ∀ id, t'.row? id = (lastOf id rows).or (t.row? id)
  /-- Positions keep their identities, and new rows come after them in the order of the queue. -/
  ids : t'.ids = t.ids ++ (t.newRows rows).map Keyed.id
  /-- New rows fade in, unless the table was empty. -/
  appended : t'.entries.drop t.length =
    (t.newRows rows).map fun row => ⟨row, if t.entries = [] then .none else .fadeIn⟩
  /-- Changed rows flash. -/
  flashes : ∀ i e, i < t.length → t'.entries[i]? = some e → t.Flashes rows i e.highlight
  /-- Each row is counted once. -/
  count : summary.added + summary.changed + summary.unchanged = rows.length

/-! ## One queued row -/

variable {t : KeyedTable ρ}

omit [DecidableEq ρ] in
theorem Indexed.row?_eq (h : t.Indexed) (id : String) :
    t.index.lookup id = none ∧ t.row? id = none ∨
      ∃ i e, t.index.lookup id = some i ∧ t.entries[i]? = some e ∧ Keyed.id e.row = id ∧
        t.row? id = some e.row := by
  rcases h.entry?_eq id with ⟨hentry, hi⟩ | ⟨i, e, hi, he, hid, hentry⟩
  · exact .inl ⟨hi, by rw [row?, hentry]; rfl⟩
  · exact .inr ⟨i, e, hi, he, hid, by rw [row?, hentry]; rfl⟩

omit [DecidableEq ρ] in
theorem Indexed.row?_eq_none_iff (h : t.Indexed) (id : String) :
    t.row? id = none ↔ t.index.lookup id = none := by
  rcases h.row?_eq id with ⟨hi, hrow⟩ | ⟨i, e, hi, -, -, hrow⟩ <;> simp [hi, hrow]

omit [DecidableEq ρ] in
theorem Indexed.rowAt?_eq (h : t.Indexed) {id : String} {i : Nat}
    (hi : t.index.lookup id = some i) : t.rowAt? i = t.row? id := by
  rcases h.row?_eq id with ⟨hnone, -⟩ | ⟨j, e, hj, he, -, hrow⟩
  · rw [hi] at hnone
    cases hnone
  · rw [hi] at hj
    cases hj
    rw [hrow, rowAt?, he]
    rfl

omit [DecidableEq ρ] in
/-- Putting a row in its place changes what its identity finds, and nothing else. -/
theorem Indexed.row?_replace (h : t.Indexed) {row : ρ} {i : Nat}
    (hi : t.index.lookup (Keyed.id row) = some i) (id : String) :
    (t.replace row).2.row? id = if Keyed.id row = id then some row else t.row? id := by
  have hentries : (t.replace row).2.entries = t.entries.set i ⟨row, .flash⟩ := by
    simp only [KeyedTable.replace, hi]
  unfold row? entry?
  rw [index_replace, hentries]
  split
  · next hid =>
    subst hid
    rw [hi]
    simp [h.lt_length hi]
  · next hid =>
    cases hj : t.index.lookup id with
    | none => rfl
    | some j =>
      have hne : i ≠ j := by
        intro heq
        subst heq
        exact hid (Option.some.inj ((h.holds hi).symm.trans (h.holds hj)))
      show Option.map _ (t.entries.set i ⟨row, .flash⟩)[j]? = Option.map _ t.entries[j]?
      rw [List.getElem?_set_ne hne]

omit [DecidableEq ρ] in
theorem lastOf_append (id : String) (rows : List ρ) (row : ρ) :
    lastOf id (rows ++ [row]) = if Keyed.id row = id then some row else lastOf id rows := by
  unfold lastOf
  rw [List.reverse_append, List.reverse_singleton, List.singleton_append, List.find?_cons]
  by_cases hid : Keyed.id row = id <;> simp [hid]

omit [DecidableEq ρ] in
theorem lastOf_eq_none_iff (id : String) (rows : List ρ) :
    lastOf id rows = none ↔ ∀ row ∈ rows, Keyed.id row ≠ id := by
  simp [lastOf]

omit [DecidableEq ρ] in
theorem mem_of_lastOf {id : String} {rows : List ρ} {row : ρ} (h : lastOf id rows = some row) :
    row ∈ rows ∧ Keyed.id row = id :=
  ⟨List.mem_reverse.mp (List.mem_of_find?_eq_some h), by simpa using List.find?_some h⟩

omit [DecidableEq ρ] in
theorem newRows_append (t : KeyedTable ρ) (rows : List ρ) (row : ρ) :
    t.newRows (rows ++ [row]) =
      if (t.row? (Keyed.id row)).isNone then t.newRows rows ++ [row] else t.newRows rows := by
  unfold newRows
  rw [List.filter_append]
  split
  · next hnone => rw [List.filter_cons_of_pos (by simpa using hnone), List.filter_nil]
  · next hsome => rw [List.filter_cons_of_neg (by simpa using hsome), List.filter_nil,
      List.append_nil]

omit [DecidableEq ρ] in
/-- An identity that the table knows is not among the new rows. -/
theorem lastOf_newRows (t : KeyedTable ρ) (rows : List ρ) {id : String}
    (h : t.row? id ≠ none) : lastOf id (t.newRows rows) = none := by
  unfold lastOf
  rw [List.find?_eq_none]
  intro row hrow
  have hnone := (List.mem_filter.mp (List.mem_reverse.mp hrow)).2
  have hid : Keyed.id row ≠ id := by
    intro heq
    rw [heq] at hnone
    exact h (Option.isNone_iff_eq_none.mp hnone)
  simpa using hid

/-! ## The state of a batch -/

/-- What a batch is when these rows have been queued. -/
structure Queued (t : KeyedTable ρ) (rows : List ρ) (b : Batch ρ) : Prop where
  index : b.table.index = t.index
  ids : b.table.ids = t.ids
  first : b.firstLoad = t.entries.isEmpty
  pending : b.pending.reverse = t.newRows rows
  row : ∀ id, (lastOf id b.pending.reverse).or (b.table.row? id) =
    (lastOf id rows).or (t.row? id)
  flashes : ∀ i e, b.table.entries[i]? = some e → t.Flashes rows i e.highlight
  count : b.pending.length + b.changed + b.unchanged = rows.length

theorem changes_append (t : KeyedTable ρ) (rows : List ρ) (row : ρ) (i : Nat) :
    t.Changes (rows ++ [row]) i ↔
      t.Changes rows i ∨ t.index.lookup (Keyed.id row) = some i ∧
        ((Batch.start t).queueAll rows).table.rowAt? i ≠ some row := by
  constructor
  · rintro ⟨before, r, after, heq, hi, hne⟩
    -- the row that changes something is the last one, or it was queued before that
    rcases List.eq_nil_or_concat after with rfl | ⟨after, r', rfl⟩
    · obtain ⟨rfl, hr⟩ := List.append_inj' heq rfl
      obtain rfl : row = r := by simpa using hr
      exact .inr ⟨hi, hne⟩
    · rw [List.concat_eq_append, ← List.cons_append, ← List.append_assoc] at heq
      obtain ⟨rfl, -⟩ := List.append_inj' heq rfl
      exact .inl ⟨before, r, after, rfl, hi, hne⟩
  · rintro (⟨before, r, after, rfl, hi, hne⟩ | ⟨hi, hne⟩)
    · exact ⟨before, r, after ++ [row], by simp, hi, hne⟩
    · exact ⟨rows, row, [], rfl, hi, hne⟩

omit [Keyed ρ] [DecidableEq ρ] in
theorem row?_settle (t : KeyedTable ρ) (id : String) : t.settle.row? id = t.row? id := by
  simp only [row?, entry?, settle, List.getElem?_map]
  cases t.index.lookup id with
  | none => rfl
  | some i =>
    show Option.map _ (Option.map _ t.entries[i]?) = _
    rw [Option.map_map]
    rfl

theorem queued_start (t : KeyedTable ρ) : t.Queued [] (Batch.start t) where
  index := rfl
  ids := ids_settle t
  first := rfl
  pending := rfl
  row id := congrArg ((none : Option ρ).or ·) (row?_settle t id)
  flashes i e he := by
    right
    simp only [Batch.start, settle, List.getElem?_map, Option.map_eq_some_iff] at he
    obtain ⟨e, -, rfl⟩ := he
    refine ⟨rfl, ?_⟩
    rintro ⟨before, row, after, heq, -⟩
    simp at heq
  count := rfl

/-- On first load nothing can be found, so every row is looked up as it were. -/
theorem Queued.classify_eq (h : t.Indexed) {rows : List ρ} {b : Batch ρ} (q : t.Queued rows b)
    (row : ρ) :
    b.classify row =
      match b.table.row? (Keyed.id row) with
      | some known => if known = row then .unchanged else .changed
      | none => .new := by
  unfold Batch.classify
  split
  · next hfirst =>
    -- a right index of an empty table finds nothing
    have hb : b.table.Indexed := h.of_ids q.index q.ids
    have hids : b.table.ids = [] := by
      rw [q.ids, KeyedTable.ids, List.isEmpty_iff.mp (q.first.symm.trans hfirst)]
      rfl
    rcases hb.entry?_eq (Keyed.id row) with ⟨hnone, -⟩ | ⟨i, -, hi, -⟩
    · rw [row?, hnone]
      rfl
    · have hheld := hb.holds hi
      rw [hids] at hheld
      simp at hheld
  · rfl

theorem Queued.row?_eq_none_iff (h : t.Indexed) {rows : List ρ} {b : Batch ρ}
    (q : t.Queued rows b) (id : String) : b.table.row? id = none ↔ t.row? id = none := by
  rw [(h.of_ids q.index q.ids).row?_eq_none_iff, h.row?_eq_none_iff, q.index]

section

variable {rows : List ρ} {b : Batch ρ} {row : ρ}

/-- A row that changes nothing in the table flashes nowhere. -/
theorem Queued.changes_same (q : t.Queued rows b) (hb : (Batch.start t).queueAll rows = b)
    (hrow : ∀ i, b.table.index.lookup (Keyed.id row) = some i → b.table.rowAt? i = some row)
    (i : Nat) : t.Changes (rows ++ [row]) i ↔ t.Changes rows i := by
  rw [changes_append, hb, ← q.index]
  refine or_iff_left ?_
  rintro ⟨hi, hne⟩
  exact hne (hrow i hi)

/-- A row of an unknown identity waits. -/
theorem Queued.wait (h : t.Indexed) (q : t.Queued rows b)
    (hb : (Batch.start t).queueAll rows = b) (hrow : b.table.row? (Keyed.id row) = none) :
    t.Queued (rows ++ [row]) { b with pending := row :: b.pending } where
  index := q.index
  ids := q.ids
  first := q.first
  pending := by
    have hold : t.row? (Keyed.id row) = none := (q.row?_eq_none_iff h _).mp hrow
    rw [newRows_append, hold]
    show (row :: b.pending).reverse = t.newRows rows ++ [row]
    rw [List.reverse_cons, q.pending]
  row id := by
    show (lastOf id (row :: b.pending).reverse).or _ = _
    rw [List.reverse_cons, lastOf_append, lastOf_append]
    split
    · rfl
    · exact q.row id
  flashes i e he := by
    have hnone := ((h.of_ids q.index q.ids).row?_eq_none_iff _).mp hrow
    unfold Flashes
    rw [q.changes_same hb fun i hi => by rw [hnone] at hi; cases hi]
    exact q.flashes i e he
  count := by
    have := q.count
    simp only [List.length_cons, List.length_append, List.length_nil]
    omega

/-- The rows that wait leave a known identity alone. -/
theorem Queued.lastOf_pending (h : t.Indexed) (q : t.Queued rows b) {id : String} {known : ρ}
    (hrow : b.table.row? id = some known) :
    t.row? id ≠ none ∧ lastOf id b.pending.reverse = none := by
  have hold : t.row? id ≠ none := by
    rw [ne_eq, ← q.row?_eq_none_iff h, hrow]
    exact Option.some_ne_none known
  refine ⟨hold, ?_⟩
  rw [q.pending]
  exact lastOf_newRows t rows hold

/-- A row that is there already is only counted. -/
theorem Queued.keep (h : t.Indexed) (q : t.Queued rows b)
    (hb : (Batch.start t).queueAll rows = b) (hrow : b.table.row? (Keyed.id row) = some row) :
    t.Queued (rows ++ [row]) { b with unchanged := b.unchanged + 1 } where
  index := q.index
  ids := q.ids
  first := q.first
  pending := by
    rw [newRows_append, if_neg (by simpa using (q.lastOf_pending h hrow).1)]
    exact q.pending
  row id := by
    show (lastOf id b.pending.reverse).or (b.table.row? id) = _
    rw [lastOf_append]
    split
    · next hid =>
      subst hid
      rw [(q.lastOf_pending h hrow).2, hrow]
      rfl
    · exact q.row id
  flashes i e he := by
    have hindexed : b.table.Indexed := h.of_ids q.index q.ids
    unfold Flashes
    rw [q.changes_same hb fun i hi => by rw [hindexed.rowAt?_eq hi, hrow]]
    exact q.flashes i e he
  count := by
    have := q.count
    simp only [List.length_append, List.length_singleton]
    omega

/-- A row that differs takes the place of the known one, which flashes. -/
theorem Queued.change (h : t.Indexed) (q : t.Queued rows b)
    (hb : (Batch.start t).queueAll rows = b) {known : ρ}
    (hrow : b.table.row? (Keyed.id row) = some known) (hne : known ≠ row) :
    t.Queued (rows ++ [row])
      { b with table := (b.table.replace row).2, changed := b.changed + 1 } := by
  have hindexed : b.table.Indexed := h.of_ids q.index q.ids
  obtain ⟨-, hnone⟩ | ⟨i, -, hi, -⟩ := hindexed.row?_eq (Keyed.id row)
  · rw [hrow] at hnone
    cases hnone
  have hrowAt : b.table.rowAt? i = some known := (hindexed.rowAt?_eq hi).trans hrow
  have hentries : (b.table.replace row).2.entries = b.table.entries.set i ⟨row, .flash⟩ := by
    simp only [replace, hi]
  refine ⟨(index_replace _ _).trans q.index, (hindexed.ids_replace row).trans q.ids, q.first, ?_,
    fun id => ?_, fun j e he => ?_, ?_⟩
  · rw [newRows_append, if_neg (by simpa using (q.lastOf_pending h hrow).1)]
    exact q.pending
  · show (lastOf id b.pending.reverse).or ((b.table.replace row).2.row? id) = _
    rw [lastOf_append, hindexed.row?_replace hi]
    split
    · next hid =>
      subst hid
      rw [(q.lastOf_pending h hrow).2]
      rfl
    · exact q.row id
  · unfold Flashes
    rw [changes_append, hb, ← q.index, hi]
    change (b.table.replace row).2.entries[j]? = some e at he
    rw [hentries] at he
    -- only the place that the index gives is written to
    by_cases hij : i = j
    · subst hij
      rw [List.getElem?_set_self (hindexed.lt_length hi)] at he
      cases he
      exact .inl ⟨rfl, .inr ⟨rfl, by rw [hrowAt]; simpa using hne⟩⟩
    · rw [List.getElem?_set_ne hij] at he
      have hflash := q.flashes j e he
      unfold Flashes at hflash
      simpa [hij] using hflash
  · have := q.count
    simp only [List.length_append, List.length_singleton]
    omega

theorem Queued.queue (h : t.Indexed) (q : t.Queued rows b)
    (hb : (Batch.start t).queueAll rows = b) (row : ρ) :
    t.Queued (rows ++ [row]) (b.queue row) := by
  unfold Batch.queue
  rw [q.classify_eq h row]
  cases hrow : b.table.row? (Keyed.id row) with
  | none => exact q.wait h hb hrow
  | some known =>
    by_cases heq : known = row
    · subst heq
      simpa using q.keep h hb hrow
    · simpa [heq] using q.change h hb hrow heq

end

theorem queueAll_spec (h : t.Indexed) (rows : List ρ) :
    t.Queued rows ((Batch.start t).queueAll rows) := by
  induction rows using List.reverseRecOn with
  | nil => exact queued_start t
  | append_singleton rows row ih =>
    show t.Queued _ ((rows ++ [row]).foldl Batch.queue (Batch.start t))
    rw [List.foldl_append]
    exact ih.queue h rfl row

/-! ## Committing a batch -/

section

omit [DecidableEq ρ]

theorem entries_addRows (t : KeyedTable ρ) (rows : List ρ) (highlight : Highlight) :
    (t.addRows rows highlight).entries = t.entries ++ rows.map fun row => ⟨row, highlight⟩ := by
  induction rows generalizing t with
  | nil => exact (List.append_nil _).symm
  | cons row rows ih =>
    show ((t.addRow highlight row).addRows rows highlight).entries = _
    rw [ih, addRow, List.append_assoc]
    rfl

theorem Indexed.row?_addRow (h : t.Indexed) (highlight : Highlight) (row : ρ) (id : String) :
    (t.addRow highlight row).row? id = if Keyed.id row = id then some row else t.row? id := by
  unfold row? entry? KeyedTable.addRow
  by_cases hid : Keyed.id row = id
  · subst hid
    simp
  · have hbeq : (id == Keyed.id row) = false := beq_false_of_ne (Ne.symm hid)
    rw [if_neg hid, List.lookup_cons, hbeq]
    cases hi : t.index.lookup id with
    | none => rfl
    | some i =>
      show Option.map _ (t.entries ++ [⟨row, highlight⟩])[i]? = Option.map _ t.entries[i]?
      rw [List.getElem?_append_left (h.lt_length hi)]

theorem Indexed.row?_addRows (h : t.Indexed) (highlight : Highlight) (rows : List ρ)
    (id : String) : (t.addRows rows highlight).row? id = (lastOf id rows).or (t.row? id) := by
  induction rows using List.reverseRecOn with
  | nil => rfl
  | append_singleton rows row ih =>
    show ((rows ++ [row]).foldl (KeyedTable.addRow highlight) t).row? id = _
    rw [List.foldl_append, lastOf_append]
    show ((t.addRows rows highlight).addRow highlight row).row? id = _
    rw [(h.addRows rows highlight).row?_addRow]
    split
    · rfl
    · exact ih

variable {b : Batch ρ}

theorem entries_commit (b : Batch ρ) :
    b.commit.entries = b.table.entries ++ b.pending.reverse.map fun row =>
      ⟨row, if b.firstLoad then .none else .fadeIn⟩ := by
  unfold Batch.commit
  dsimp only
  split
  · next hnil => rw [List.isEmpty_iff.mp hnil, List.map_nil, List.append_nil]
  · split <;> exact entries_addRows _ _ _

theorem Indexed.row?_commit (h : b.table.Indexed) (id : String) :
    b.commit.row? id = (lastOf id b.pending.reverse).or (b.table.row? id) := by
  unfold Batch.commit
  dsimp only
  split
  · next hnil =>
    rw [List.isEmpty_iff.mp hnil]
    rfl
  · split <;> exact h.row?_addRows _ _ id

end

/-- What committing a batch does to a table whose index is right. -/
theorem commit_effect (h : t.Indexed) (rows : List ρ) :
    let b := (Batch.start t).queueAll rows
    t.Effect rows b.commit b.summary := by
  intro b
  have q : t.Queued rows b := queueAll_spec h rows
  have hlength : b.table.entries.length = t.length := by
    rw [← length_ids, q.ids, length_ids]
    rfl
  refine ⟨fun id => ?_, ?_, ?_, fun i e hi he => ?_, q.count⟩
  · rw [(h.of_ids q.index q.ids).row?_commit]
    exact q.row id
  · rw [ids, entries_commit, List.map_append, List.map_map, q.pending]
    exact congrArg (· ++ _) q.ids
  · rw [entries_commit, List.drop_left' hlength, q.pending, q.first]
    simp only [List.isEmpty_iff]
  · rw [entries_commit, List.getElem?_append_left (hlength.symm ▸ hi)] at he
    exact q.flashes i e he

/-- The identities after a poll are those from before it and those of the polled rows. -/
theorem Indexed.mem_ids_update_iff (h : t.Indexed) (rows : List ρ) (id : String) :
    id ∈ (t.update rows).ids ↔ id ∈ t.ids ∨ ∃ row ∈ rows, Keyed.id row = id := by
  rw [KeyedTable.update, (commit_effect h rows).ids, List.mem_append, List.mem_map]
  constructor
  · rintro (hold | ⟨row, hnew, hid⟩)
    · exact .inl hold
    · exact .inr ⟨row, (List.mem_filter.mp hnew).1, hid⟩
  · rintro (hold | ⟨row, hrow, rfl⟩)
    · exact .inl hold
    · -- a polled row is new unless its identity was there
      rcases h.row?_eq (Keyed.id row) with ⟨-, hnone⟩ | ⟨i, e, -, he, hid, -⟩
      · exact .inr ⟨row, List.mem_filter.mpr ⟨hrow, by rw [hnone]; rfl⟩, rfl⟩
      · exact .inl (hid ▸ List.mem_map_of_mem (List.mem_of_getElem? he))

/-! ## Rows by position -/

section

variable {i : Nat} {known : ρ}

omit [Keyed ρ] [DecidableEq ρ] in
theorem forall_row_iff (t : KeyedTable ρ) (P : ρ → Prop) :
    (∀ e ∈ t.entries, P e.row) ↔ ∀ i row, t.rowAt? i = some row → P row := by
  constructor
  · intro h i row hrow
    obtain ⟨e, he, rfl⟩ := Option.map_eq_some_iff.mp hrow
    exact h e (List.mem_of_getElem? he)
  · intro h e he
    obtain ⟨i, hi⟩ := List.getElem?_of_mem he
    exact h i e.row (by rw [rowAt?, hi]; rfl)

omit [DecidableEq ρ] in
theorem ids_of_rowAt? (hi : t.rowAt? i = some known) : t.ids[i]? = some (Keyed.id known) := by
  obtain ⟨e, he, rfl⟩ := Option.map_eq_some_iff.mp hi
  rw [getElem?_ids, he, Option.map_some]

omit [DecidableEq ρ] in
/-- A row is written to the place of its own identity, so one that is not found stays. -/
theorem Indexed.rowAt?_replace_of_ne (h : t.Indexed) (row : ρ) (hi : t.rowAt? i = some known)
    (hne : t.index.lookup (Keyed.id known) ≠ some i) : (t.replace row).2.rowAt? i = some known := by
  unfold KeyedTable.replace
  split
  · next j hj =>
    have hji : j ≠ i := by
      rintro rfl
      have hid := (h.holds hj).symm.trans (ids_of_rowAt? hi)
      rw [Option.some.inj hid] at hj
      exact hne hj
    show ((t.entries.set j ⟨row, .flash⟩)[i]?).map _ = _
    rw [List.getElem?_set_ne hji]
    exact hi
  · exact hi

theorem Indexed.rowAt?_queueAll_of_ne (h : t.Indexed) (rows : List ρ)
    (hi : t.rowAt? i = some known) (hne : t.index.lookup (Keyed.id known) ≠ some i) :
    ((Batch.start t).queueAll rows).table.rowAt? i = some known := by
  induction rows using List.reverseRecOn with
  | nil =>
    obtain ⟨e, he, rfl⟩ := Option.map_eq_some_iff.mp hi
    show (t.settle.entries[i]?).map _ = _
    rw [KeyedTable.settle, List.getElem?_map, he]
    rfl
  | append_singleton rows row ih =>
    have hb := indexed_queueAll h rows
    have hindex := (queueAll_spec h rows).index
    show ((rows ++ [row]).foldl Batch.queue (Batch.start t)).table.rowAt? i = _
    rw [List.foldl_append]
    show (((Batch.start t).queueAll rows).queue row).table.rowAt? i = _
    unfold Batch.queue
    split
    · exact ih
    · exact hb.rowAt?_replace_of_ne row ih (hindex ▸ hne)
    · exact ih

/-- The row that its identity finds gives way to the last queued one, any other one stays. -/
theorem Indexed.rowAt?_update (h : t.Indexed) (rows : List ρ) (hi : t.rowAt? i = some known) :
    (t.update rows).rowAt? i =
      some (if t.index.lookup (Keyed.id known) = some i then
        (lastOf (Keyed.id known) rows).getD known else known) := by
  have hb := indexed_queueAll h rows
  have q := queueAll_spec h rows
  have hqueued : ((Batch.start t).queueAll rows).table.rowAt? i =
      some (if t.index.lookup (Keyed.id known) = some i then
        (lastOf (Keyed.id known) rows).getD known else known) := by
    split
    · next hlookup =>
      have hold : t.row? (Keyed.id known) = some known := (h.rowAt?_eq hlookup) ▸ hi
      obtain ⟨row, hrow⟩ : ∃ row,
          ((Batch.start t).queueAll rows).table.row? (Keyed.id known) = some row := by
        rw [← Option.isSome_iff_exists, ← Option.ne_none_iff_isSome, ne_eq,
          q.row?_eq_none_iff h, hold]
        exact Option.some_ne_none known
      have hor := q.row (Keyed.id known)
      rw [(q.lastOf_pending h hrow).2, Option.none_or, hold] at hor
      rw [hb.rowAt?_eq (q.index ▸ hlookup), hor]
      cases lastOf (Keyed.id known) rows <;> rfl
    · next hne => exact h.rowAt?_queueAll_of_ne rows hi hne
  obtain ⟨e, he, hrow⟩ := Option.map_eq_some_iff.mp hqueued
  have hlt := (List.getElem?_eq_some_iff.mp he).1
  show (((Batch.start t).queueAll rows).commit.entries[i]?).map _ = _
  rw [entries_commit, List.getElem?_append_left hlt, he, Option.map_some, hrow]

/-- Beyond the rows that were there stand rows that were queued. -/
theorem Indexed.mem_of_rowAt?_update (h : t.Indexed) (rows : List ρ) {row : ρ}
    (hrow : (t.update rows).rowAt? i = some row) (hi : t.length ≤ i) : row ∈ rows := by
  obtain ⟨e, he, rfl⟩ := Option.map_eq_some_iff.mp hrow
  have happended := (commit_effect h rows).appended
  have hmem : e ∈ (t.update rows).entries.drop t.length := by
    refine List.mem_of_getElem? (i := i - t.length) ?_
    rw [List.getElem?_drop, Nat.add_sub_cancel' hi]
    exact he
  rw [KeyedTable.update, happended] at hmem
  obtain ⟨new, hnew, rfl⟩ := List.mem_map.mp hmem
  exact (List.mem_filter.mp hnew).1

end

/-- Whatever operations built a table, its index gives for each identity the last position that has
it, so nothing is looked up outside the table; and a batch does to it what `Effect` says. -/
theorem runs_indexed_effect (ops : List (Op ρ)) :
    let t := ops.foldl apply (empty : KeyedTable ρ)
    t.Indexed ∧ (∀ id i, t.index.lookup id = some i → i < t.length) ∧
      ∀ rows, t.Effect rows ((Batch.start t).queueAll rows).commit
        ((Batch.start t).queueAll rows).summary := by
  intro t
  have h : t.Indexed := indexed_foldl_apply indexed_empty ops
  exact ⟨h, fun id i hi => h.lt_length hi, commit_effect h⟩

end KeyedTable

end BuildBoard
