import BuildBoard.Document.Basic
import BuildBoard.Number.Checked
import BuildBoard.Number.Style
import BuildBoard.Text.Html

/-!
# Durations

A duration is shown as hours, minutes and seconds, the hours with as many digits as they need.
Clocks may disagree: a negative duration is shown as zero.
-/

namespace BuildBoard.Duration

/-- `HH:MM:SS`. -/
def text (seconds : Int) : String :=
  let s := seconds.toNat
  String.ofList
    (paddedDigits 2 (s / 3600) ++ ':' :: paddedDigits 2 (s % 3600 / 60) ++
      ':' :: paddedDigits 2 (s % 60))

/-- The text of a duration, empty where there is none. -/
def text? (seconds : Option Int) : String := (seconds.map text).getD ""

/-- The time from `start` to `stop`, or `start` itself as a duration where there is no `stop`.
Nothing has started at zero. -/
def between (start stop : Option Int) : String :=
  match start with
  | none => ""
  | some start =>
    if start = 0 then ""
    else text (match stop with
      | some stop => word (stop - start)
      | none => start)

def checkedBetween (start stop : Option Int) : Checked String :=
  match start with
  | none => pure ""
  | some start =>
    if start = 0 then pure ""
    else
      match stop with
      | some stop => do
        let seconds ← (Figure.difference stop start).checked
        pure (text seconds)
      | none => pure (text start)

/-- A duration given as seconds, or as text that the producer has formatted. -/
def ofDocument? (value : Option Document) : String :=
  match value with
  | some (.int n) => if n ≤ int64Max then text n else ""
  | some (.text s) => Html.escape s
  | _ => ""

example : text 3661 = "01:01:01" ∧ text (-5) = "00:00:00" := by decide +kernel

end BuildBoard.Duration
