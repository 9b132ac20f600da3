import BuildBoard.Progress.Bar

/-!
# The bar as a picture

The bar has borders of one pixel on all sides, and each segment fills whole pixels, so that the
picture has two kinds of pixel rows: all border, and the bar's own.

A picture is drawn in parts. A last part that is too narrow for a border is left without one: there
the track shows, which reaches only to the middle of the border's pixels.
-/

namespace BuildBoard.Progress.Bar

/-! ## Colours -/

/-- A colour as red, green, blue and opacity, in hexadecimal digits. -/
def black : String := "000000ff"

/-- The pixels of a colour written as a fill, with the two digits of their opacity. -/
def pixelColor (fill : String) (opacity : String) : String :=
  String.ofList (fill.toList.drop 1 |>.map Char.toLower) ++ opacity

/-- The pixels that are covered whole. -/
def opaqueColor (fill : String) : String := pixelColor fill "ff"

/-- The pixels that the track covers to one half. -/
def trackEdge : String := pixelColor trackColor "80"

/-- The pixels that the track covers to one quarter. -/
def trackCorner : String := pixelColor trackColor "40"

/-! ## Parts -/

/-- The width of all parts but the last. -/
def partWidth : Nat := 8191

/-- The narrowest part that the border is drawn in. -/
def minBorderedPart : Nat := 3

/-- The number of pixel columns at the right that are left without a border. -/
def bareColumns (bar : Bar) : Nat :=
  let last := bar.width % partWidth
  if last < minBorderedPart then last else 0

/-! ## Rows -/

/-- Runs of pixels of one colour, from left to right, on a row between the upper and the lower
border. -/
def innerRow (bar : Bar) : List (Nat × String) :=
  let track := bar.width - 2 - bar.filled
  [(1, black)] ++ bar.segments.map (fun s => (s.width, opaqueColor s.color)) ++
    (if track = 0 then [] else [(track, opaqueColor trackColor)]) ++
    [(1, if bar.bareColumns = 0 then black else trackEdge)]

/-- The runs of the upper and the lower border. -/
def borderRow (bar : Bar) : List (Nat × String) :=
  [(bar.width - bar.bareColumns, black)] ++
    List.replicate (bar.bareColumns - 1) (1, trackEdge) ++
    (if bar.bareColumns = 0 then [] else [(1, trackCorner)])

/-- The pixel rows of the picture, from top to bottom. -/
def pixelRows (bar : Bar) : List (List (Nat × String)) :=
  [bar.borderRow] ++ List.replicate (barHeight - 2) bar.innerRow ++ [bar.borderRow]

end BuildBoard.Progress.Bar
