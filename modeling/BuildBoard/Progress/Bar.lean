import BuildBoard.Report.Stats

/-!
# Progress bar

The bar shows the share of each outcome in whole pixels: a border of one pixel, and between the
borders one segment after the other. A count that is not zero gets at least a pixel as long as
there is room, and a pixel stays free while packages remain.
-/

namespace BuildBoard.Progress

/-! ## Measures -/

def barHeight : Nat := 10

/-- The room for the percent label beside the bar, with the gap before it. -/
def labelRoom : Nat := 36 + 20

/-- The width that a column leaves for the bar. -/
def barWidth (columnWidth : Nat) : Nat := columnWidth - labelRoom

/-! ## Percent -/

/-- The percentage that `done` of `queued` packages are. -/
def percentOf (done queued : Int) : Binary64 :=
  ((Binary64.ofInt done).mul (Binary64.ofInt 100)).div (Binary64.ofInt queued)

/-- The percentage of queued packages that do not remain. -/
def percent (stats : Stats) : Binary64 :=
  if stats.queued = 0 then Binary64.zero false
  else percentOf (word (stats.queued - stats.remaining)) stats.queued

def checkedPercent (stats : Stats) : Checked Binary64 :=
  if stats.queued = 0 then pure (Binary64.zero false)
  else do
    let remaining ← stats.checkedRemaining
    let done ← (Figure.difference stats.queued remaining).checked
    pure (percentOf done stats.queued)

/-- The percentage in whole numbers, rounded down; what is less than one but not nothing is shown
as such. -/
def percentText (percent : Binary64) : String :=
  if percent.isFraction then "< 1%" else decimalText (saturate percent.floor) ++ "%"

/-! ## Layout -/

/-- The outcomes that are drawn, in their order, with their colours. -/
def palette : List (Category × String) :=
  [(.built, "#00CC00"), (.failed, "#E00000"), (.ignored, "#FF9900"), (.fetched, "#228B22"),
    (.skipped, "#CC6633")]

def trackColor : String := "#E3E3E3"

def borderColor : String := "black"

structure Segment where
  category : Category
  x : Nat
  width : Nat
  color : String
deriving DecidableEq

structure Bar where
  width : Nat
  segments : List Segment
  percent : Binary64
  remaining : Int
deriving DecidableEq

/-- The pixels due to `count` of `queued` packages in a space of `inner` pixels. -/
def share (count : Int) (inner : Nat) (queued : Int) : Nat :=
  (((Binary64.ofInt count).mul (Binary64.ofInt inner)).div (Binary64.ofInt queued)).round.toNat

/-- The segments of some outcomes, with `filled` pixels taken by earlier ones and none beyond
`limit`. -/
def segments (stats : Stats) (inner limit : Nat) :
    List (Category × String) → Nat → List Segment
  | [], _ => []
  | (category, color) :: rest, filled =>
    let count := stats.count category
    let width := min (max 1 (share count inner stats.queued)) (limit - filled)
    if count ≤ 0 || width = 0 then segments stats inner limit rest filled
    else ⟨category, 1 + filled, width, color⟩ :: segments stats inner limit rest (filled + width)

/-- The bar of `width` pixels for counters with these figures. -/
def barFor (stats : Stats) (width : Nat) (percent : Binary64) (remaining : Int) : Bar :=
  let inner := width - 2
  let limit := if 0 < remaining then inner - 1 else inner
  { width
    segments := if 0 < stats.queued then segments stats inner limit palette 0 else []
    percent
    remaining }

/-- The bar of `width` pixels, unless that is too narrow for one. -/
def layout (stats : Stats) (width : Nat) : Option Bar :=
  if width < 3 then none else some (barFor stats width (percent stats) stats.remaining)

def checkedLayout (stats : Stats) (width : Nat) : Checked (Option Bar) :=
  if width < 3 then pure none
  else do
    let remaining ← stats.checkedRemaining
    let percent ← checkedPercent stats
    pure (some (barFor stats width percent remaining))

namespace Bar

/-- The pixels that the segments take. -/
def filled (bar : Bar) : Nat := (bar.segments.map Segment.width).foldr (· + ·) 0

/-! ## Drawing -/

def natText (n : Nat) : String := decimalText n

def segmentSvg (s : Segment) : String :=
  "<rect class=\"" ++ s.category.name ++ "\" x=\"" ++ natText s.x ++ "\" y=\"1\" width=\"" ++
    natText s.width ++ "\" height=\"" ++ natText (barHeight - 2) ++ "\" fill=\"" ++ s.color ++
    "\"/>"

/-- The bar as an SVG fragment. -/
def svg (bar : Bar) : String :=
  let w := natText bar.width
  let h := natText barHeight
  "<svg xmlns=\"http://www.w3.org/2000/svg\" width=\"" ++ w ++ "\" height=\"" ++ h ++
    "\" viewBox=\"0 0 " ++ w ++ " " ++ h ++ "\">" ++
    "<rect x=\"0.5\" y=\"0.5\" width=\"" ++ natText (bar.width - 1) ++ "\" height=\"" ++
    natText (barHeight - 1) ++ "\" fill=\"" ++ trackColor ++ "\" stroke=\"" ++ borderColor ++
    "\" stroke-width=\"1\"/>" ++
    String.join (bar.segments.map segmentSvg) ++ "</svg>"

end Bar

end BuildBoard.Progress
