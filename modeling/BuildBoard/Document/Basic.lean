import BuildBoard.Number.Binary64

/-!
# Documents

The value of a JSON text. A number without fraction and exponent that a 64-bit integer holds,
signed or unsigned, is an integer; every other number is a binary one. The fields of an object are
kept in the order of their names, each name once.
-/

namespace BuildBoard

inductive Document where
  | null
  | bool (b : Bool)
  | int (n : Int)
  | double (x : Binary64)
  | text (s : String)
  | array (items : List Document)
  | object (fields : List (String × Document))
deriving Inhabited

namespace Document

/-- The fields with `name` set to `value`, in the order of names. -/
def insertField (name : String) (value : Document) :
    List (String × Document) → List (String × Document)
  | [] => [(name, value)]
  | (k, v) :: rest =>
    if name < k then (name, value) :: (k, v) :: rest
    else if name = k then (name, value) :: rest
    else (k, v) :: insertField name value rest

/-- The object with the given fields; of several with one name the last counts. -/
def ofFields (fields : List (String × Document)) : Document :=
  .object (fields.foldl (fun acc f => insertField f.1 f.2 acc) [])

/-- The value of a field of an object. -/
def get? : Document → String → Option Document
  | .object fields, name => fields.lookup name
  | _, _ => none

/-- A record's fields by name.

A record is written as an object, or as an array of its fields in their order, of which any number
may be missing at the end. An array with more elements than the record has fields is no record. -/
def record? (names : List String) : Document → Option (String → Option Document)
  | .object fields => some fun name => fields.lookup name
  | .array items =>
    if items.length ≤ names.length then some fun name => (names.zip items).lookup name else none
  | _ => none

end Document

end BuildBoard
