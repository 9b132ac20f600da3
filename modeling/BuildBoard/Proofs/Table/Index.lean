import BuildBoard.Table.Keyed
import Mathlib.Order.Bounds.Basic
import Mathlib.Tactic.Common

/-!
# The index of a keyed table

A keyed table keeps its rows in a list and finds them through an index. Whatever is done to a table,
the index gives for each identity the last position of a row that has it, and nothing else.

Results:
1. `Indexed.addRow`, `Indexed.of_ids`: the index survives a row at the end, and any change that
   keeps index and identities.
2. `indexed_queueAll`: it survives queued rows, so also a batch that is never committed.
3. `indexed_foldl_apply`: it holds after any run of operations.
-/

namespace BuildBoard

namespace KeyedTable

variable {ρ : Type u} [Keyed ρ]

/-! ## Definitions -/

/-- The identities of the rows, in their order. -/
def ids (t : KeyedTable ρ) : List String := t.entries.map fun e => Keyed.id e.row

/-- The index gives the greatest position of each identity in the table, and no other. -/
def Indexed (t : KeyedTable ρ) : Prop :=
  ∀ id i, t.index.lookup id = some i ↔ IsGreatest {j | t.ids[j]? = some id} i

/-- What can be done to a table. -/
inductive Op (ρ : Type u) where
  /-- Rows queued in one batch, which is committed or abandoned. -/
  | batch (rows : List ρ) (committed : Bool)
  | replace (row : ρ)
  | addRows (rows : List ρ) (highlight : Highlight)
  | clear

def apply [DecidableEq ρ] (t : KeyedTable ρ) : Op ρ → KeyedTable ρ
  | .batch rows committed =>
    let b := (Batch.start t).queueAll rows
    if committed then b.commit else b.table
  | .replace row => (t.replace row).2
  | .addRows rows highlight => t.addRows rows highlight
  | .clear => t.clear

/-! ## The index and the rows -/

@[simp] theorem length_ids (t : KeyedTable ρ) : t.ids.length = t.entries.length :=
  List.length_map _

theorem getElem?_ids (t : KeyedTable ρ) (i : Nat) :
    t.ids[i]? = t.entries[i]?.map fun e => Keyed.id e.row :=
  List.getElem?_map

variable {t : KeyedTable ρ} {id : String} {i : Nat}

theorem Indexed.holds (h : t.Indexed) (hi : t.index.lookup id = some i) : t.ids[i]? = some id :=
  ((h id i).mp hi).1

theorem Indexed.lt_length (h : t.Indexed) (hi : t.index.lookup id = some i) :
    i < t.entries.length := by
  have hlt := (List.getElem?_eq_some_iff.mp (h.holds hi)).1
  simpa using hlt

/-- The entry that the index gives is there, and it has the identity asked for. -/
theorem Indexed.entry (h : t.Indexed) (hi : t.index.lookup id = some i) :
    ∃ e, t.entries[i]? = some e ∧ Keyed.id e.row = id := by
  have hid := h.holds hi
  rw [getElem?_ids] at hid
  exact Option.map_eq_some_iff.mp hid

theorem Indexed.entry?_eq (h : t.Indexed) (id : String) :
    t.entry? id = none ∧ t.index.lookup id = none ∨
      ∃ i e, t.index.lookup id = some i ∧ t.entries[i]? = some e ∧ Keyed.id e.row = id ∧
        t.entry? id = some e := by
  unfold entry?
  cases hi : t.index.lookup id with
  | none => exact .inl ⟨rfl, rfl⟩
  | some i =>
    obtain ⟨e, he, hid⟩ := h.entry hi
    exact .inr ⟨i, e, rfl, he, hid, by simpa using he⟩

/-! ## Operations -/

theorem indexed_empty : (empty : KeyedTable ρ).Indexed := by
  intro id i
  simp [empty, ids, IsGreatest]

theorem Indexed.of_ids {t' : KeyedTable ρ} (h : t.Indexed) (hindex : t'.index = t.index)
    (hids : t'.ids = t.ids) : t'.Indexed := by
  intro id i
  rw [hindex, hids]
  exact h id i

theorem ids_addRow (t : KeyedTable ρ) (highlight : Highlight) (row : ρ) :
    (t.addRow highlight row).ids = t.ids ++ [Keyed.id row] := by
  simp [ids, addRow]

/-- A row at the end is the last one of its identity and leaves the others as they are. -/
theorem Indexed.addRow (h : t.Indexed) (highlight : Highlight) (row : ρ) :
    (t.addRow highlight row).Indexed := by
  intro id i
  rw [ids_addRow]
  show ((Keyed.id row, t.entries.length) :: t.index).lookup id = some i ↔ _
  by_cases hid : id = Keyed.id row
  · subst hid
    simp only [List.lookup_cons, beq_self_eq_true, Option.some.injEq]
    have hlast : IsGreatest {j : Nat | (t.ids ++ [Keyed.id row])[j]? = some (Keyed.id row)}
        t.entries.length := by
      refine ⟨by simp, fun j hj => ?_⟩
      have hlt := (List.getElem?_eq_some_iff.mp hj).1
      simp only [List.length_append, length_ids, List.length_singleton] at hlt
      omega
    exact ⟨fun heq => heq ▸ hlast, fun hgreat => hlast.unique hgreat⟩
  · have hset : {j : Nat | (t.ids ++ [Keyed.id row])[j]? = some id} =
        {j | t.ids[j]? = some id} := by
      ext j
      simp only [Set.mem_ofPred_eq, List.getElem?_append]
      split
      · rfl
      · next hj =>
        have hnone : t.ids[j]? = none := List.getElem?_eq_none (by omega)
        rw [hnone]
        cases j - t.ids.length <;> simp [Ne.symm hid]
    have hbeq : (id == Keyed.id row) = false := beq_false_of_ne hid
    rw [hset, List.lookup_cons, hbeq]
    exact h id i

theorem Indexed.addRows (h : t.Indexed) (rows : List ρ) (highlight : Highlight) :
    (t.addRows rows highlight).Indexed := by
  induction rows generalizing t with
  | nil => exact h
  | cons row rows ih => exact ih (h.addRow highlight row)

theorem ids_settle (t : KeyedTable ρ) : t.settle.ids = t.ids := by
  simp [ids, settle]

theorem Indexed.settle (h : t.Indexed) : t.settle.Indexed := h.of_ids rfl (ids_settle t)

theorem index_replace (t : KeyedTable ρ) (row : ρ) : (t.replace row).2.index = t.index := by
  unfold replace
  split <;> rfl

/-- A row is only ever put in the place of one with its identity. -/
theorem Indexed.ids_replace (h : t.Indexed) (row : ρ) : (t.replace row).2.ids = t.ids := by
  unfold replace
  split
  · next i hi =>
    obtain ⟨hlt, hid⟩ := List.getElem?_eq_some_iff.mp (h.holds hi)
    show (t.entries.set i ⟨row, .flash⟩).map _ = _
    rw [List.map_set]
    show t.ids.set i (Keyed.id row) = t.ids
    rw [← hid, List.set_getElem_self]
  · rfl

theorem Indexed.replace (h : t.Indexed) (row : ρ) : (t.replace row).2.Indexed :=
  h.of_ids (index_replace t row) (h.ids_replace row)

/-! ## Batches and runs -/

variable [DecidableEq ρ]

/-- Rows that are queued change neither the index nor the identities of the table. -/
theorem Indexed.queue {b : Batch ρ} (h : b.table.Indexed) (row : ρ) :
    (b.queue row).table.index = b.table.index ∧ (b.queue row).table.ids = b.table.ids := by
  unfold Batch.queue
  split
  · exact ⟨rfl, rfl⟩
  · exact ⟨index_replace b.table row, h.ids_replace row⟩
  · exact ⟨rfl, rfl⟩

theorem Indexed.queueAll {b : Batch ρ} (h : b.table.Indexed) (rows : List ρ) :
    (b.queueAll rows).table.index = b.table.index ∧ (b.queueAll rows).table.ids = b.table.ids := by
  induction rows generalizing b with
  | nil => exact ⟨rfl, rfl⟩
  | cons row rows ih =>
    obtain ⟨hindex, hids⟩ := h.queue row
    obtain ⟨hindex', hids'⟩ := ih (h.of_ids hindex hids)
    exact ⟨hindex'.trans hindex, hids'.trans hids⟩

theorem indexed_queueAll (h : t.Indexed) (rows : List ρ) :
    ((Batch.start t).queueAll rows).table.Indexed := by
  obtain ⟨hindex, hids⟩ := Indexed.queueAll (b := Batch.start t) h.settle rows
  exact h.settle.of_ids hindex hids

omit [DecidableEq ρ] in
theorem indexed_commit {b : Batch ρ} (h : b.table.Indexed) : b.commit.Indexed := by
  unfold Batch.commit
  dsimp only
  split
  · exact h
  · split
    · exact (h.addRows b.pending.reverse .none).of_ids rfl rfl
    · exact h.addRows b.pending.reverse .fadeIn

theorem indexed_apply (h : t.Indexed) (op : Op ρ) : (t.apply op).Indexed := by
  cases op with
  | batch rows committed =>
    have hqueued := indexed_queueAll h rows
    cases committed with
    | false => exact hqueued
    | true => exact indexed_commit hqueued
  | replace row => exact h.replace row
  | addRows rows highlight => exact h.addRows rows highlight
  | clear => exact (indexed_empty (ρ := ρ)).of_ids rfl rfl

theorem indexed_foldl_apply (h : t.Indexed) (ops : List (Op ρ)) : (ops.foldl apply t).Indexed := by
  induction ops generalizing t with
  | nil => exact h
  | cons op ops ih => exact ih (indexed_apply h op)

end KeyedTable

end BuildBoard
