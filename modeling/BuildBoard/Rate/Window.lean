import BuildBoard.Number.Checked
import BuildBoard.Rate.Hourly

/-!
# Trailing rates

The recent rate compares the newest sample with the oldest one still kept. Samples are kept in a
ring: the sample of poll `t` goes into slot `t % capacity`, over the one that was there.
-/

namespace BuildBoard

/-- What was seen at one poll. -/
structure Sample where
  attempted : Int
  elapsed : Option Int
deriving DecidableEq, Inhabited

/-- The time that a trailing rate covers. -/
inductive Horizon where
  /-- Too few samples for a rate. -/
  | calculating
  /-- All samples so far, the ring being not yet full. -/
  | filling (minutes : Nat)
  /-- A full ring. -/
  | full (minutes : Nat)
deriving DecidableEq

structure TrailingRate where
  rate : Option Int
  horizon : Horizon
deriving DecidableEq

def Horizon.title : Horizon → String
  | .calculating => "Package build rate. Still calculating..."
  | .filling minutes | .full minutes =>
    "Package build rate over last " ++ decimalText minutes ++ " minutes"

structure RateWindow where
  slots : List Sample
  capacity : Nat
  /-- The first poll that gives a rate. -/
  firstPoll : Nat
  /-- Seconds between polls. -/
  interval : Nat
  /-- Seconds that a full ring covers. -/
  targetPeriod : Nat
  /-- Samples recorded so far. -/
  recorded : Nat
deriving DecidableEq

namespace RateWindow

/-- An empty window; the interval is taken as at least a second, the ring as at least one slot. -/
def new (interval firstPeriod targetPeriod : Nat) : RateWindow :=
  let interval := max interval 1
  { slots := []
    capacity := max (targetPeriod / interval) 1
    firstPoll := firstPeriod / interval
    interval
    targetPeriod
    recorded := 0 }

/-- The slot of the oldest sample that is kept once the next one is recorded. -/
def tailIndex (w : RateWindow) : Nat :=
  if w.recorded < w.capacity then 0 else (w.recorded - (w.capacity - 1)) % w.capacity

/-- The slot of the next sample. -/
def headIndex (w : RateWindow) : Nat := w.recorded % w.capacity

/-- The ring with the next sample in its slot. -/
def place (w : RateWindow) (sample : Sample) : List Sample :=
  if w.headIndex < w.slots.length then w.slots.set w.headIndex sample else w.slots ++ [sample]

/-- The rate between two samples, where both have a time. -/
def rateBetween (newest oldest : Sample) : Option Int :=
  match newest.elapsed, oldest.elapsed with
  | some now, some before => Rate.perHour (newest.attempted - oldest.attempted) (now - before)
  | _, _ => none

/-- What the poll that records `sample` reads off the ring. -/
def reading (w : RateWindow) (sample : Sample) : TrailingRate :=
  if w.recorded < w.firstPoll then ⟨none, .calculating⟩
  else
    { rate := ((w.place sample)[w.tailIndex]?).bind (rateBetween sample)
      horizon :=
        if w.recorded < w.capacity then .filling (w.recorded * w.interval / 60)
        else .full (w.targetPeriod / 60) }

/-- Records one poll. -/
def record (w : RateWindow) (sample : Sample) : TrailingRate × RateWindow :=
  (w.reading sample, { w with slots := w.place sample, recorded := w.recorded + 1 })

/-! ## Checked -/

def checkedRateBetween (newest oldest : Sample) : Checked (Option Int) :=
  match newest.elapsed, oldest.elapsed with
  | some now, some before => do
    let pkgs ← (Figure.difference newest.attempted oldest.attempted).checked
    let secs ← (Figure.difference now before).checked
    pure (Rate.perHour pkgs secs)
  | _, _ => pure none

def checkedReading (w : RateWindow) (sample : Sample) : Checked TrailingRate :=
  if w.recorded < w.firstPoll then pure ⟨none, .calculating⟩
  else
    match (w.place sample)[w.tailIndex]? with
    | some oldest => do
      let rate ← checkedRateBetween sample oldest
      pure { w.reading sample with rate }
    | none => pure (w.reading sample)

def checkedRecord (w : RateWindow) (sample : Sample) : Checked (TrailingRate × RateWindow) := do
  let reading ← w.checkedReading sample
  pure (reading, (w.record sample).2)

end RateWindow

end BuildBoard
