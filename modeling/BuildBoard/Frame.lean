import BuildBoard.Dashboard
import BuildBoard.Document.Writer
import BuildBoard.Text.Template

/-!
# Frames

A frame is what the published page shows after a poll. The page is made from one template, which
holds all that pages have in common.
-/

namespace BuildBoard

open Html (escape)

inductive Frame where
  /-- Nothing is loaded yet. -/
  | loading
  /-- A page that goes on refreshing itself. -/
  | live (d : Dashboard)
  /-- The last page of a build that has stopped. -/
  | final (d : Dashboard)
  /-- A message in place of a page. -/
  | failed (message : String)

/-- What is the same on all pages of a program. -/
structure PageStyle where
  /-- Seconds after which a page reloads itself. -/
  refresh : Nat
  columnWidth : Nat
deriving DecidableEq

/-! ## The template -/

def pageTemplate : String :=
  "<!DOCTYPE html>\n" ++
  "<html lang=\"en\">\n" ++
  "<head>\n" ++
  "<meta charset=\"utf-8\">\n" ++
  "<meta name=\"viewport\" content=\"width=device-width, initial-scale=1.0\">\n" ++
  "\x7b\x7bREFRESH\x7d\x7d\n" ++
  "<title>\x7b\x7bTITLE\x7d\x7d</title>\n" ++
  "<style>\n" ++
  "  body \x7b font-family: sans-serif; font-size: 14px; margin: 0 20px 40px; \x7d\n" ++
  "  h2 \x7b font-size: 18px; margin-top: 28px; \x7d\n" ++
  "  h3 \x7b font-size: 15px; \x7d\n" ++
  "  dl.dl-horizontal dt \x7b float: left; clear: left; width: 110px; font-weight: bold; \x7d\n" ++
  "  dl.dl-horizontal dd \x7b margin-left: 120px; \x7d\n" ++
  "  table.table \x7b border-collapse: collapse; margin-bottom: 12px; \x7d\n" ++
  "  table.table th, table.table td \x7b border: 1px solid #DDD; padding: 3px 8px; " ++
  "text-align: left; \x7d\n" ++
  "  table.table-condensed td \x7b text-align: right; \x7d\n" ++
  "  tr.new \x7b animation: fadein 1.5s; \x7d\n" ++
  "  tr.changed \x7b animation: fadein 0.8s; \x7d\n" ++
  "  @keyframes fadein \x7b from \x7b opacity: 0; \x7d to \x7b opacity: 1; \x7d \x7d\n" ++
  "  #progress_col \x7b width: \x7b\x7bCOLUMN_WIDTH\x7d\x7dpx; white-space: nowrap; " ++
  "margin: 12px 0; \x7d\n" ++
  "  #progress_col svg \x7b vertical-align: middle; \x7d\n" ++
  "  #loading_overlay \x7b padding: 60px 0; text-align: center; font-size: 18px; \x7d\n" ++
  "  #loading_overlay p.error \x7b color: #E00000; \x7d\n" ++
  "  a \x7b color: #2a6496; \x7d\n" ++
  "</style>\n" ++
  "</head>\n" ++
  "<body>\n" ++
  "<a id=\"top\"></a>\n" ++
  "<h1>\x7b\x7bTITLE\x7d\x7d</h1>\n" ++
  "\x7b\x7bOVERLAY\x7d\x7d\n" ++
  "<div id=\"content\">\n" ++
  "\x7b\x7bCONTENT\x7d\x7d\n" ++
  "</div>\n" ++
  "<footer><p>Updated \x7b\x7bUPDATED\x7d\x7d</p></footer>\n" ++
  "\x7b\x7bSCRIPT\x7d\x7d\n" ++
  "</body>\n" ++
  "</html>\n"

/-! ## The parts of a page -/

/-- A message laid over the page. -/
def overlay (message : String) (error : Bool) : String :=
  "<div id=\"loading_overlay\"><p" ++ (if error then " class=\"error\"" else "") ++ ">" ++
    escape message ++ "</p></div>"

/-- The anchor as a string literal of a script, with no `<` in it. -/
def anchorLiteral (anchor : String) : List Char :=
  (Literal.encode ('#' :: anchor.toList.dropWhile (· == '#'))).flatMap fun c =>
    if c = '<' then "\\u003c".toList else [c]

/-- The script that jumps to an element once the page has loaded. -/
def scrollScript (anchor : String) : String :=
  "<script>window.location.hash = " ++ String.ofList (anchorLiteral anchor) ++ ";</script>"

namespace Frame

def title : Frame → String
  | .loading => "Loading"
  | .failed _ => "Error"
  | .live d | .final d => d.title

def overlayText : Frame → String
  | .loading => overlay "Loading..." false
  | .failed message => overlay message true
  | .live _ | .final _ => ""

def content : Frame → String
  | .loading | .failed _ => ""
  | .live d | .final d => d.render

/-- Whether the page reloads itself: nothing more is to come after a final or failed frame. -/
def refreshes : Frame → Bool
  | .loading | .live _ => true
  | .final _ | .failed _ => false

def script : Frame → String
  | .loading | .failed _ => ""
  | .live d | .final d =>
    match d.scrollTo with
    | some anchor => scrollScript anchor
    | none => ""

def refreshTag (style : PageStyle) (frame : Frame) : String :=
  if frame.refreshes then
    "<meta http-equiv=\"refresh\" content=\"" ++ decimalText style.refresh ++ "\">"
  else ""

/-- What goes into a slot of the template. -/
def slotValue (style : PageStyle) (updated : String) (frame : Frame) (slot : List Char) :
    Option String :=
  if slot = "TITLE".toList then some (escape frame.title)
  else if slot = "REFRESH".toList then some (frame.refreshTag style)
  else if slot = "COLUMN_WIDTH".toList then some (decimalText style.columnWidth)
  else if slot = "OVERLAY".toList then some frame.overlayText
  else if slot = "CONTENT".toList then some frame.content
  else if slot = "UPDATED".toList then some updated
  else if slot = "SCRIPT".toList then some frame.script
  else none

/-- The whole page, with the time at which it was made. -/
def page (style : PageStyle) (updated : String) (frame : Frame) : String :=
  Template.fill pageTemplate (frame.slotValue style updated)

def checkedPage (style : PageStyle) (updated : String) (frame : Frame) : Checked String :=
  match frame with
  | .loading | .failed _ => pure (frame.page style updated)
  | .live d | .final d => do
    let _ ← d.checkedRender
    pure (frame.page style updated)

end Frame

end BuildBoard
