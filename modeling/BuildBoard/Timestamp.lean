import BuildBoard.Number.Style

/-!
# Timestamps

A time is counted in seconds from the start of 1970, UTC, without leap seconds.
-/

namespace BuildBoard.Timestamp

structure Date where
  year : Int
  month : Nat
  day : Nat
deriving DecidableEq

/-- The date of a day, counted from the start of 1970. Years are taken to start in March, so that
the leap day is the last of its year; 146097 days are a cycle of 400 years. -/
def dateOf (days : Int) : Date :=
  let shifted := days + 719468
  let cycle := shifted / 146097
  let day := (shifted % 146097).toNat
  let year := (day - day / 1460 + day / 36524 - day / 146096) / 365
  let dayOfYear := day - (365 * year + year / 4 - year / 100)
  let month := (5 * dayOfYear + 2) / 153
  let m := if month < 10 then month + 3 else month - 9
  { year := year + cycle * 400 + (if m ≤ 2 then 1 else 0)
    month := m
    day := dayOfYear - (153 * month + 2) / 5 + 1 }

def dateText (d : Date) : String :=
  String.ofList (paddedDigits 4 d.year.toNat ++ '-' :: paddedDigits 2 d.month ++
    '-' :: paddedDigits 2 d.day)

/-- `YYYY-MM-DD hh:mm:ss UTC`. -/
def text (seconds : Int) : String :=
  let s := (seconds % 86400).toNat
  dateText (dateOf (seconds / 86400)) ++ " " ++
    String.ofList (paddedDigits 2 (s / 3600) ++ ':' :: paddedDigits 2 (s % 3600 / 60) ++
      ':' :: paddedDigits 2 (s % 60)) ++ " UTC"

example : dateText (dateOf 0) = "1970-01-01" ∧ dateText (dateOf 19782) = "2024-02-29" := by
  decide +kernel

end BuildBoard.Timestamp
