import BuildBoard.Category
import BuildBoard.Table.Highlight

/-!
# Package tables

The lists of packages only grow, so a table of them keeps its formatted rows, and a cursor for each
category tells how much of its list has been taken over.
-/

namespace BuildBoard

/-! ## Cursors -/

/-- For each category the length of what has been taken over, `none` before anything was. -/
abbrev Cursors := PerCategory (Option Nat)

namespace Cursors

def start : Cursors := PerCategory.all none

/-- The part of a list of length `len` that is not taken over yet, from the first bound up to the
second, and the cursors after taking it. A cursor never moves back. -/
def advance (cs : Cursors) (c : Category) (len : Nat) : (Nat × Nat) × Cursors :=
  let first := (cs.get c).getD 0
  let last := max len first
  ((first, last), PerCategory.set cs c (some last))

end Cursors

/-! ## Rows -/

/-- The formatted rows of one category. -/
structure Listing where
  rows : List (List String)
  /-- The position of the first row to be highlighted. -/
  freshFrom : Nat
  visible : Bool
deriving DecidableEq, Inhabited

namespace Listing

def empty : Listing := ⟨[], 0, false⟩

def length (l : Listing) : Nat := l.rows.length

/-- Forgets which rows the last poll added. -/
def settle (l : Listing) : Listing := { l with freshFrom := l.rows.length }

/-- Adds rows at the end. The first time this reveals the table, later the added rows are
highlighted. -/
def append (l : Listing) (rows : List (List String)) : Listing :=
  let all := l.rows ++ rows
  if l.visible then { l with rows := all } else ⟨all, all.length, true⟩

/-- The table with these rows instead; it is hidden when there are none. -/
def ofRows (rows : List (List String)) : Listing := ⟨rows, rows.length, !rows.isEmpty⟩

def highlightAt (l : Listing) (i : Nat) : Highlight := if i < l.freshFrom then .none else .fadeIn

/-- The rows with their highlights. -/
def marked (l : Listing) : List (List String × Highlight) :=
  l.rows.zipIdx.map fun (row, i) => (row, l.highlightAt i)

/-! ### Lemmas -/

@[simp] theorem rows_append (l : Listing) (rows : List (List String)) :
    (l.append rows).rows = l.rows ++ rows := by
  unfold append
  split <;> rfl

theorem visible_append (l : Listing) (rows : List (List String)) : (l.append rows).visible := by
  unfold append
  split
  · assumption
  · rfl

theorem highlightAt_settle (l : Listing) {i : Nat} (h : i < l.rows.length) :
    l.settle.highlightAt i = .none := if_pos h

/-- The rows that reveal a table are not highlighted. -/
theorem highlightAt_reveal {l : Listing} {rows : List (List String)} (hvisible : l.visible = false)
    {i : Nat} (h : i < (l.append rows).rows.length) : (l.append rows).highlightAt i = .none := by
  rw [rows_append] at h
  unfold append
  rw [hvisible]
  exact if_pos h

/-- Rows added to a settled table fade in, and no others. -/
theorem highlightAt_append {l : Listing} {rows : List (List String)} (hvisible : l.visible)
    (i : Nat) :
    (l.settle.append rows).highlightAt i = if i < l.rows.length then .none else .fadeIn := by
  have hsettle : l.settle.visible := hvisible
  unfold append
  rw [if_pos hsettle]
  rfl

theorem getElem?_marked (l : Listing) (i : Nat) :
    l.marked[i]? = l.rows[i]?.map (·, l.highlightAt i) := by
  simp only [marked, List.getElem?_map, List.getElem?_zipIdx, Option.map_map, Nat.zero_add]
  rfl

theorem highlight_of_marked {l : Listing} {i : Nat} {row : List String} {highlight : Highlight}
    (h : l.marked[i]? = some (row, highlight)) :
    i < l.rows.length ∧ highlight = l.highlightAt i := by
  rw [getElem?_marked] at h
  obtain ⟨_, hrow, heq⟩ := Option.map_eq_some_iff.mp h
  obtain ⟨-, heq⟩ := Prod.mk.inj heq
  exact ⟨(List.getElem?_eq_some_iff.mp hrow).1, heq.symm⟩

end Listing

end BuildBoard
