import BuildBoard.Table.Highlight
import BuildBoard.Text.Html

/-!
# Tables in markup
-/

namespace BuildBoard.Grid

open Html (escape)

def headingCell (column : String) : String := "<th>" ++ escape column ++ "</th>"

def cell (content : String) : String := "<td>" ++ content ++ "</td>"

/-- The tag that opens a row. -/
def rowTag : Highlight → String
  | .none => "<tr>"
  | h => "<tr class=\"" ++ h.cssClass ++ "\">"

def row (cells : List String) (highlight : Highlight) : String :=
  rowTag highlight ++ String.join (cells.map cell) ++ "</tr>"

/-- A table of cells that are markup already, under headings that are text. -/
def render (id : String) (columns : List String) (rows : List (List String × Highlight)) : String :=
  "<table id=\"" ++ escape id ++ "\" class=\"table\"><thead><tr>" ++
    String.join (columns.map headingCell) ++ "</tr></thead><tbody>" ++
    String.join (rows.map fun (cells, highlight) => row cells highlight) ++ "</tbody></table>"

end BuildBoard.Grid
