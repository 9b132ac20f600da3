/-!
# Highlights
-/

namespace BuildBoard

/-- How a row is set off on the next page. -/
inductive Highlight where
  | none
  /-- The row's data changed in this poll. -/
  | flash
  /-- The row was added in this poll. -/
  | fadeIn
deriving DecidableEq, Inhabited

/-- The class of a highlighted row. -/
def Highlight.cssClass : Highlight → String
  | .none => ""
  | .flash => "changed"
  | .fadeIn => "new"

end BuildBoard
