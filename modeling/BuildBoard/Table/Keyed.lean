import BuildBoard.Table.Highlight

/-!
# Keyed tables

A keyed table holds rows in the order in which they came, and an index from identities to
positions. A poll's rows are queued in a batch: a row known by its identity is replaced in place if
its data differs, and rows not known are appended when the batch is committed.
-/

namespace BuildBoard

/-- Rows with an identity inside their table. -/
class Keyed (ρ : Type u) where
  id : ρ → String

/-- A row and its highlight. -/
structure MarkedRow (ρ : Type u) where
  row : ρ
  highlight : Highlight
deriving DecidableEq

structure KeyedTable (ρ : Type u) where
  entries : List (MarkedRow ρ)
  /-- Positions by identity; the pair that stands first counts. -/
  index : List (String × Nat)
  /-- Whether a first load has revealed the table. -/
  visible : Bool

namespace KeyedTable

variable {ρ : Type u} [Keyed ρ]

def empty : KeyedTable ρ := ⟨[], [], false⟩

def length (t : KeyedTable ρ) : Nat := t.entries.length

/-- The entry that the index gives for an identity. -/
def entry? (t : KeyedTable ρ) (id : String) : Option (MarkedRow ρ) :=
  (t.index.lookup id).bind fun i => t.entries[i]?

def row? (t : KeyedTable ρ) (id : String) : Option ρ := (t.entry? id).map MarkedRow.row

def highlight? (t : KeyedTable ρ) (id : String) : Option Highlight :=
  (t.entry? id).map MarkedRow.highlight

/-! ## Operations -/

/-- Puts a row in the place of the one with its identity, to flash; `false` if there is none. -/
def replace (t : KeyedTable ρ) (row : ρ) : Bool × KeyedTable ρ :=
  match t.index.lookup (Keyed.id row) with
  | some i => (true, { t with entries := t.entries.set i ⟨row, .flash⟩ })
  | none => (false, t)

def addRow (highlight : Highlight) (t : KeyedTable ρ) (row : ρ) : KeyedTable ρ :=
  { t with
    entries := t.entries ++ [⟨row, highlight⟩]
    index := (Keyed.id row, t.entries.length) :: t.index }

def addRows (t : KeyedTable ρ) (rows : List ρ) (highlight : Highlight) : KeyedTable ρ :=
  rows.foldl (addRow highlight) t

def clear (t : KeyedTable ρ) : KeyedTable ρ := { t with entries := [], index := [] }

/-- Drops all highlights. -/
def settle (t : KeyedTable ρ) : KeyedTable ρ :=
  { t with entries := t.entries.map fun e => { e with highlight := .none } }

end KeyedTable

/-! ## Batches -/

/-- What a queued row is to the table. -/
inductive RowChange where
  | new | unchanged | changed
deriving DecidableEq

/-- The rows of one poll, queued against a table. -/
structure Batch (ρ : Type u) where
  table : KeyedTable ρ
  /-- Rows to append, the last queued one first. -/
  pending : List ρ
  /-- The table had no rows when the batch began. -/
  firstLoad : Bool
  changed : Nat
  unchanged : Nat

structure BatchSummary where
  added : Nat
  changed : Nat
  unchanged : Nat
  firstLoad : Bool
deriving DecidableEq

namespace Batch

variable {ρ : Type u} [Keyed ρ] [DecidableEq ρ]

omit [Keyed ρ] [DecidableEq ρ] in
/-- Starts a batch: highlights of the poll before are dropped. -/
def start (t : KeyedTable ρ) : Batch ρ := ⟨t.settle, [], t.entries.isEmpty, 0, 0⟩

/-- What a row is to the table. On first load nothing is looked up. -/
def classify (b : Batch ρ) (row : ρ) : RowChange :=
  if b.firstLoad then .new
  else match b.table.row? (Keyed.id row) with
    | some known => if known = row then .unchanged else .changed
    | none => .new

/-- Queues a row: a changed one is replaced at once, a new one waits for `commit`. -/
def queue (b : Batch ρ) (row : ρ) : Batch ρ :=
  match b.classify row with
  | .unchanged => { b with unchanged := b.unchanged + 1 }
  | .changed => { b with table := (b.table.replace row).2, changed := b.changed + 1 }
  | .new => { b with pending := row :: b.pending }

def queueAll (b : Batch ρ) (rows : List ρ) : Batch ρ := rows.foldl queue b

omit [DecidableEq ρ] in
/-- The table with the queued rows. New rows fade in, except on a first load, which reveals the
table instead. -/
def commit (b : Batch ρ) : KeyedTable ρ :=
  let rows := b.pending.reverse
  if rows.isEmpty then b.table
  else if b.firstLoad then { b.table.addRows rows .none with visible := true }
  else b.table.addRows rows .fadeIn

omit [Keyed ρ] [DecidableEq ρ] in
def summary (b : Batch ρ) : BatchSummary := ⟨b.pending.length, b.changed, b.unchanged, b.firstLoad⟩

end Batch

/-- The table after a poll with these rows. -/
def KeyedTable.update {ρ : Type u} [Keyed ρ] [DecidableEq ρ] (t : KeyedTable ρ) (rows : List ρ) :
    KeyedTable ρ :=
  ((Batch.start t).queueAll rows).commit

end BuildBoard
