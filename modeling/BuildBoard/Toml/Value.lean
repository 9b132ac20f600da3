/-!
# Configuration values

The values of a TOML document. A table remembers how it was written, because that decides what may
still be added to it.
-/

namespace BuildBoard.Toml

/-- How a table came to be. -/
inductive TableKind where
  /-- Under its own header. -/
  | header
  /-- Above a table that has a header. -/
  | super
  /-- By keys with dots. -/
  | dotted
  /-- Between braces: nothing can be added. -/
  | inline
deriving DecidableEq

inductive Value where
  | string (s : String)
  | integer (n : Int)
  | float
  /-- A number that may be written but not read: it has no digits, or no type is large enough. -/
  | unreadable
  | boolean (b : Bool)
  | datetime
  | array (items : List Value)
  | table (kind : TableKind) (entries : List (String × Value))
  /-- Tables under one repeated header, the last one first. -/
  | tables (elements : List (List (String × Value)))
deriving Inhabited

abbrev Entries := List (String × Value)

/-! ## Reading -/

mutual

/-- Whether the value can be read, with all that is in it. -/
def Value.isReadable : Value → Bool
  | .unreadable => false
  | .array items => areReadable items
  | .table _ entries => entriesReadable entries
  | .tables elements => tablesReadable elements
  | _ => true

def areReadable : List Value → Bool
  | [] => true
  | v :: vs => v.isReadable && areReadable vs

def entriesReadable : List (String × Value) → Bool
  | [] => true
  | (_, v) :: es => v.isReadable && entriesReadable es

def tablesReadable : List (List (String × Value)) → Bool
  | [] => true
  | es :: rest => entriesReadable es && tablesReadable rest

end

/-! ## Adding to tables -/

namespace Entries

/-- Puts a value in the place of the one with its key. -/
def set (key : String) (value : Value) (es : Entries) : Entries :=
  es.map fun e => if e.1 = key then (key, value) else e

def add (es : Entries) (key : String) (value : Value) : Entries := es ++ [(key, value)]

/-- Sets a key with dots. The tables on the way are made, or were made by keys with dots; a table
above one with a header may lie on the way, and so may the last table under a repeated header, but
neither may be what is added to. -/
def insertDotted (value : Value) : List String → Entries → Option Entries
  | [], _ => none
  | [key], es => if (es.lookup key).isSome then none else some (es.add key value)
  | key :: keys, es =>
    match es.lookup key with
    | none => (insertDotted value keys []).map fun sub => es.add key (.table .dotted sub)
    | some (.table .dotted sub) =>
      (insertDotted value keys sub).map fun sub => es.set key (.table .dotted sub)
    | some (.table .super sub) =>
      if keys.length ≤ 1 then none
      else (insertDotted value keys sub).map fun sub => es.set key (.table .super sub)
    | some (.tables (last :: before)) =>
      if keys.length ≤ 1 then none
      else (insertDotted value keys last).map fun last => es.set key (.tables (last :: before))
    | some _ => none

/-- Changes a table that is on the way of a header, as it is; in a list of tables, the last. -/
def descend (change : Entries → Option Entries) : Value → Option Value
  | .table .inline _ => none
  | .table kind sub => (change sub).map (.table kind)
  | .tables (last :: before) => (change last).map fun last => .tables (last :: before)
  | _ => none

/-- Goes down a header's keys, making the tables that are missing, and changes what the last key
stands for. -/
def atHeader (change : Option Value → Option Value) : List String → Entries → Option Entries
  | [], _ => none
  | [key], es =>
    match es.lookup key with
    | none => (change none).map (es.add key)
    | some v => (change (some v)).map fun v => es.set key v
  | key :: keys, es =>
    match es.lookup key with
    | none => (atHeader change keys []).map fun sub => es.add key (.table .super sub)
    | some v => (descend (atHeader change keys) v).map fun v => es.set key v

/-- Opens the table of a header; only a table that has none may be there. -/
def openTable : Option Value → Option Value
  | none => some (.table .header [])
  | some (.table .super sub) => some (.table .header sub)
  | some _ => none

/-- Opens another element under a repeated header. -/
def openElement : Option Value → Option Value
  | none => some (.tables [[]])
  | some (.tables elements) => some (.tables ([] :: elements))
  | some _ => none

/-- Adds to the table opened last, given the keys of its header. -/
def insertBelow (change : Entries → Option Entries) : List String → Entries → Option Entries
  | [], es => change es
  | key :: keys, es =>
    match es.lookup key with
    | none => none
    | some v => (descend (insertBelow change keys) v).map fun v => es.set key v

end Entries

end BuildBoard.Toml
