import BuildBoard.Document.Basic
import BuildBoard.Number.LeadingInt
import BuildBoard.Number.Style

/-!
# Lenient fields

Producers write counters as numbers or as text, and names as text or as numbers. A field is read
for what it can mean: a number where a number is wanted, a text where a text is wanted, and nothing
when it is neither. No field of this kind makes a document unreadable.
-/

namespace BuildBoard.Document

/-! ## One value -/

/-- The number a value stands for, if any: a number without its fraction, within 64 bits, or the
integer that a text begins with. -/
def asCount? : Document → Option Int
  | .int n => some (if n ≤ int64Max then n else saturate (Binary64.ofInt n).trunc)
  | .double x => some (saturate x.trunc)
  | .text s => leadingInt? s
  | _ => none

/-- The text a value stands for, if any: a text, or the decimal digits of a number. An integer
beyond the signed 64-bit range is written like a binary number. -/
def asText? : Document → Option String
  | .int n => some (if n ≤ int64Max then decimalText n else plainStyle.text (Binary64.ofInt n))
  | .double x => some (plainStyle.text x)
  | .text s => some s
  | _ => none

/-! ## A field of a record -/

/-- The number of a field, `none` where there is none. -/
def count? (field : Option Document) : Option Int := field.bind asCount?

/-- The number of a field, zero where there is none. -/
def count (field : Option Document) : Int := (count? field).getD 0

/-- The text of a field, `none` where there is none. -/
def text? (field : Option Document) : Option String := field.bind asText?

/-- The text of a field, empty where there is none. -/
def textOr (field : Option Document) : String := (text? field).getD ""

/-- The numbers of an object's fields; an absent or null field counts as an empty object, and any
other value is not a map of counts. -/
def counts? (field : Option Document) : Option (List (String × Int)) :=
  match field with
  | none | some .null => some []
  | some (.object fields) => some (fields.map fun (name, d) => (name, count (some d)))
  | some _ => none

/-- The elements of an array that `decode` accepts, in order. -/
def rows (decode : Document → Option α) : Document → List α
  | .array items => items.filterMap decode
  | _ => []

/-- The rows of a field, `none` for an absent or null one. -/
def rows? (decode : Document → Option α) (field : Option Document) : Option (List α) :=
  match field with
  | none | some .null => none
  | some d => some (rows decode d)

/-! ## Whether a field is set -/

/-- Whether a field is present and says something: not null, false, zero or the empty text. -/
def isSet : Option Document → Bool
  | none | some .null => false
  | some (.text s) => !s.isEmpty
  | some (.bool b) => b
  | some (.int n) => n != 0
  | some (.double x) => !x.isZero
  | some (.array _) | some (.object _) => true

end BuildBoard.Document
