import BuildBoard.Category
import BuildBoard.Document.Lenient

/-!
# Package lists

The packages of a build by category. What is known of a package depends on its category, so each
category has its own type of entry.
-/

namespace BuildBoard

/-! ## Entries -/

/-- What names a package. -/
structure Package where
  pkgname : String
  origin : String
  flavor : Option String
deriving DecidableEq, Inhabited

structure BuiltEntry where
  package : Package
  elapsed : Option Int
deriving DecidableEq

structure FailedEntry where
  package : Package
  phase : String
  errortype : String
  elapsed : Option Int
deriving DecidableEq

structure SkippedEntry where
  package : Package
  /-- The package whose failure caused the skip. -/
  depends : String
deriving DecidableEq

structure IgnoredEntry where
  package : Package
  reason : String
deriving DecidableEq

structure FetchedEntry where
  package : Package
deriving DecidableEq

structure RemainingEntry where
  pkgname : String
  status : String
deriving DecidableEq

structure QueuedEntry where
  package : Package
  /-- `listed`, or the origin that pulled the package in. -/
  reason : String
deriving DecidableEq

/-- The entries of a category's list. -/
def Category.Entry : Category → Type
  | .built => BuiltEntry
  | .failed => FailedEntry
  | .skipped => SkippedEntry
  | .ignored => IgnoredEntry
  | .fetched => FetchedEntry
  | .remaining => RemainingEntry
  | .queued => QueuedEntry

/-! ## Decoding -/

namespace Entry

def packageNames : List String := ["pkgname", "origin", "flavor"]

/-- The fields of an entry, in the order in which an array gives them. -/
def fieldNames : Category → List String
  | .built => packageNames ++ ["elapsed"]
  | .failed => packageNames ++ ["phase", "errortype", "elapsed"]
  | .skipped => packageNames ++ ["depends"]
  | .ignored => packageNames ++ ["reason"]
  | .fetched => packageNames
  | .remaining => ["pkgname", "status"]
  | .queued => packageNames ++ ["reason"]

def packageOf (field : String → Option Document) : Package where
  pkgname := Document.textOr (field "pkgname")
  origin := Document.textOr (field "origin")
  flavor := Document.text? (field "flavor")

def ofFields (c : Category) (field : String → Option Document) : c.Entry :=
  match c with
  | .built => BuiltEntry.mk (packageOf field) (Document.count? (field "elapsed"))
  | .failed =>
    FailedEntry.mk (packageOf field) (Document.textOr (field "phase"))
      (Document.textOr (field "errortype")) (Document.count? (field "elapsed"))
  | .skipped => SkippedEntry.mk (packageOf field) (Document.textOr (field "depends"))
  | .ignored => IgnoredEntry.mk (packageOf field) (Document.textOr (field "reason"))
  | .fetched => FetchedEntry.mk (packageOf field)
  | .remaining =>
    RemainingEntry.mk (Document.textOr (field "pkgname")) (Document.textOr (field "status"))
  | .queued => QueuedEntry.mk (packageOf field) (Document.textOr (field "reason"))

def decode? (c : Category) (d : Document) : Option c.Entry :=
  (d.record? (fieldNames c)).map (ofFields c)

end Entry

/-! ## The lists of a build -/

structure Packages where
  built : List BuiltEntry
  failed : List FailedEntry
  skipped : List SkippedEntry
  ignored : List IgnoredEntry
  fetched : List FetchedEntry
  remaining : List RemainingEntry
  queued : List QueuedEntry
deriving DecidableEq

namespace Packages

/-- The list of a category. -/
def list (p : Packages) : (c : Category) → List c.Entry
  | .built => p.built
  | .failed => p.failed
  | .skipped => p.skipped
  | .ignored => p.ignored
  | .fetched => p.fetched
  | .remaining => p.remaining
  | .queued => p.queued

def length (p : Packages) (c : Category) : Nat := (p.list c).length

/-- A producer's key for packages that have no result; it is never shown. -/
def unlistedKey : String := "tobuild"

/-- Whether a key of the document names a category or is the one to pass over. -/
def isKnownKey (key : String) : Bool := key == unlistedKey || (Category.ofName? key).isSome

/-- The decoded elements of one category's array; those that are no entries are left out. -/
def entries (fields : List (String × Document)) (c : Category) : List c.Entry :=
  ((fields.lookup c.name).map (Document.rows (Entry.decode? c))).getD []

/-- The decoded lists of all categories. A key that is not known spoils them all. -/
def decode? : Document → Option Packages
  | .object fields =>
    if fields.all fun f => isKnownKey f.1 then
      some {
        built := entries fields .built
        failed := entries fields .failed
        skipped := entries fields .skipped
        ignored := entries fields .ignored
        fetched := entries fields .fetched
        remaining := entries fields .remaining
        queued := entries fields .queued }
    else none
  | _ => none

theorem list_of_decode? {fields : List (String × Document)} {p : Packages}
    (h : decode? (.object fields) = some p) (c : Category) : p.list c = entries fields c := by
  rw [decode?, Option.ite_none_right_eq_some] at h
  obtain ⟨-, heq⟩ := h
  cases heq
  cases c <;> rfl

end Packages

end BuildBoard
