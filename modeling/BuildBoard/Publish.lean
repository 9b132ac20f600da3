import BuildBoard.FileTree
import BuildBoard.Frame

/-!
# Publishing

A page is published by writing it beside the page that is there and renaming it over that one, so
that whoever reads the page sees the old one or the new one. A picture of the progress bar may be
written after that.

What is to be done is a list of steps, each with the message for the case that it fails. The first
failure ends the list.
-/

namespace BuildBoard

/-! ## Steps -/

inductive Step where
  | makeDirs (path : String)
  | write (path : String) (c : Content)
  | rename (source target : String)
  /-- Something that cannot be done. -/
  | refuse

/-- Steps with the messages for their failures. -/
abbrev Plan := List (Step × String)

/-- Does the steps up to the first failure. -/
def Plan.run [Monad m] (perform : Step → m (Except Fault Unit)) : Plan → m (Except String Unit)
  | [] => pure (.ok ())
  | (step, message) :: rest => do
    match ← perform step with
    | .ok _ => Plan.run perform rest
    | .error _ => pure (.error message)

/-- A step on a file tree. -/
def FileTree.perform : Step → StateM FileTree (Except Fault Unit)
  | .makeDirs path => makeDirs path
  | .write path c => change (·.write path c)
  | .rename source target => change (·.rename source target)
  | .refuse => pure (.error (.other ""))

/-! ## Publishing a frame -/

structure Publisher where
  outputDir : String
  style : PageStyle
  /-- Whether a picture of the bar is written, too. -/
  png : Bool
deriving DecidableEq

namespace Publisher

def pagePath (p : Publisher) : String := Path.join p.outputDir "index.html"

/-- The file that becomes the page. -/
def siblingPath (p : Publisher) : String := Path.join p.outputDir "index.html.tmp"

def imagePath (p : Publisher) : String := Path.join p.outputDir "progress.png"

/-- The bar of a page that is shown, if it has one. -/
def barOf : Frame → Option Progress.Bar
  | .live d | .final d =>
    match d.state with
    | .build page => page.bar
    | _ => none
  | _ => none

def pagePlan (p : Publisher) (updated : String) (frame : Frame) : Plan :=
  [(.makeDirs p.outputDir, "Failed to create output directory"),
    (.write p.siblingPath (.text (frame.page p.style updated)),
      "Failed to write " ++ p.siblingPath),
    (.rename p.siblingPath p.pagePath, "Failed to replace " ++ p.pagePath)]

/-- The width of a picture: the number of 24 significant bits that is nearest to `width`, or the
even one of two. -/
def imageWidth (width : Nat) : Nat :=
  let unit := Nat.pow 2 (width.log2 - 23)
  nearestEven width unit * unit

/-- The widest picture that can be made: its rows, four bytes a pixel, are measured by a signed
32-bit integer. -/
def maxImageWidth : Nat := (Nat.pow 2 31 - 1) / 4

example : imageWidth 300 = 300 ∧ imageWidth (2 ^ 29 - 1) = 2 ^ 29 := by decide

def imagePlan (p : Publisher) (frame : Frame) : Plan :=
  if p.png then
    match barOf frame with
    | some bar =>
      if imageWidth bar.width ≤ maxImageWidth then
        [(.write p.imagePath (.image bar), "Failed to write " ++ p.imagePath)]
      else [(.refuse, "Failed to create pixmap")]
    | none => []
  else []

/-- What publishing a frame does. -/
def plan (p : Publisher) (updated : String) (frame : Frame) : Plan :=
  p.pagePlan updated frame ++ p.imagePlan frame

end Publisher

end BuildBoard
