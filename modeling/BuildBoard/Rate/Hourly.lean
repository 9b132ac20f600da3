import BuildBoard.Number.Style

/-!
# Hourly rates
-/

namespace BuildBoard.Rate

/-- Packages per hour, rounded up: the ceiling of `pkgs / (secs / 3600)`, both quotients being
binary ones. There is no rate over a time that is not positive. The packages and the time, which are
differences between two polls, are words. -/
def perHour (pkgs secs : Int) : Option Int :=
  let pkgs := word pkgs
  let secs := word secs
  if secs ≤ 0 then none
  else
    let hours := (Binary64.ofInt secs).div (Binary64.ofInt 3600)
    some (saturate ((Binary64.ofInt pkgs).div hours).ceil)

/-- The rate since the build started, once a builder is done with a package. -/
def lifetime (attempted : Int) (elapsed : Option Int) : Option Int :=
  match elapsed with
  | some elapsed => if 0 < attempted then perHour attempted elapsed else none
  | none => none

/-- How a rate is shown. -/
def text (rate : Option Int) : String :=
  match rate with
  | some rate => decimalText rate
  | none => "--"

end BuildBoard.Rate
