import BuildBoard.Category
import BuildBoard.Document.Lenient
import BuildBoard.Number.Checked

/-!
# Build counters

The counters of a build, and the copy of them that a producer takes together with its clock.
-/

namespace BuildBoard

/-- Packages by outcome. -/
structure Stats where
  queued : Int
  built : Int
  failed : Int
  skipped : Int
  ignored : Int
  fetched : Int
  /-- Seconds since the build started, when the producer says so. -/
  elapsed : Option Int
deriving DecidableEq, Inhabited

namespace Stats

/-- The packages with a result, outcome by outcome. -/
def outcomes (s : Stats) : List Int := [s.built, s.failed, s.skipped, s.ignored, s.fetched]

/-- Packages that wait for a result: one outcome after the other is taken away from the queued
ones. -/
def remaining (s : Stats) : Int := s.outcomes.foldl (fun left n => word (left - n)) s.queued

/-- Packages that a builder is done with, whatever came of it. -/
def attempted (s : Stats) : Int := word (s.built + s.failed)

def count (s : Stats) : Category → Int
  | .built => s.built
  | .failed => s.failed
  | .skipped => s.skipped
  | .ignored => s.ignored
  | .fetched => s.fetched
  | .remaining => s.remaining
  | .queued => s.queued

/-! ## Checked -/

def checkedRemaining (s : Stats) : Checked Int :=
  s.outcomes.foldlM (fun left n => (Figure.difference left n).checked) s.queued

def checkedAttempted (s : Stats) : Checked Int := (Figure.sum s.built s.failed).checked

def checkedCount (s : Stats) : Category → Checked Int
  | .remaining => s.checkedRemaining
  | c => pure (s.count c)

/-! ## Decoding -/

def fieldNames : List String :=
  ["queued", "built", "failed", "skipped", "ignored", "fetched", "elapsed"]

def ofFields (field : String → Option Document) : Stats where
  queued := Document.count (field "queued")
  built := Document.count (field "built")
  failed := Document.count (field "failed")
  skipped := Document.count (field "skipped")
  ignored := Document.count (field "ignored")
  fetched := Document.count (field "fetched")
  elapsed := Document.count? (field "elapsed")

def decode? (d : Document) : Option Stats := (d.record? fieldNames).map ofFields

end Stats

/-- Counters with the clock values that rates are taken from. -/
structure Snap where
  stats : Stats
  /-- The producer's clock. -/
  now : Option Int
deriving DecidableEq, Inhabited

namespace Snap

def fieldNames : List String := Stats.fieldNames ++ ["now"]

def decode? (d : Document) : Option Snap :=
  (d.record? fieldNames).map fun field => ⟨Stats.ofFields field, Document.count? (field "now")⟩

end Snap

/-- The headings of the counter columns in the history and overview tables. -/
def counterColumns : List String :=
  ["Queued", "Built", "Failed", "Skipped", "Ignored", "Fetched", "Remaining"]

/-- The counters in the order of `counterColumns`; all zero without stats. -/
def counterCells (stats : Option Stats) : List Int :=
  match stats with
  | some s => [s.queued, s.built, s.failed, s.skipped, s.ignored, s.fetched, s.remaining]
  | none => [0, 0, 0, 0, 0, 0, 0]

def checkedCounterCells (stats : Option Stats) : Checked (List Int) :=
  match stats with
  | some s => do
    let remaining ← s.checkedRemaining
    pure [s.queued, s.built, s.failed, s.skipped, s.ignored, s.fetched, remaining]
  | none => pure (counterCells none)

theorem length_counterCells (stats : Option Stats) :
    (counterCells stats).length = counterColumns.length := by cases stats <;> rfl

end BuildBoard
