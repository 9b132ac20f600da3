import BuildBoard.Frame

/-!
# Polling

One fetch after the other. Failed fetches are tried again after a short time until there are too
many in a row; a fetched document goes to the dashboard, whose verdict says whether to go on.

A round of the loop is a function of what the fetch gave, so the loop can be run against a world, in
which a page may fail to be published, or against a list of outcomes.
-/

namespace BuildBoard

structure PollSettings where
  /-- Seconds between polls. -/
  updateInterval : Nat
  /-- Seconds between attempts while the data is not there. -/
  firstLoadInterval : Nat
  /-- Failures in a row after which polling ends. -/
  maxAttempts : Nat
deriving DecidableEq

/-- The settings asked for; there is always at least one attempt. -/
def PollSettings.new (updateInterval firstLoadInterval maxLoadAttempts : Nat) : PollSettings :=
  ⟨updateInterval, firstLoadInterval, max maxLoadAttempts 1⟩

/-- Why polling ended. -/
inductive Termination where
  | finished
  | gaveUp (attempts : Nat)
  | fatal (e : ReportError)

/-- What polling does to the world. -/
inductive PollEvent where
  | fetch
  | sleep (seconds : Nat)
  | publish (frame : Frame)

structure Poller where
  settings : PollSettings
  dashboard : Dashboard
  /-- Failed fetches since the last one that succeeded. -/
  failures : Nat

/-- What a round does after its fetch, and how polling goes on. -/
structure Round where
  events : List PollEvent
  next : Termination ⊕ Poller

namespace Poller

def new (settings : PollSettings) (dashboard : Dashboard) : Poller := ⟨settings, dashboard, 0⟩

/-- The round of a failed fetch. -/
def failRound (p : Poller) : Round :=
  let failures := p.failures + 1
  if failures < p.settings.maxAttempts then
    ⟨[.sleep p.settings.firstLoadInterval], .inr { p with failures }⟩
  else ⟨[.publish (.failed MonitorError.noData.message)], .inl (.gaveUp failures)⟩

/-- The round of a document that the dashboard has processed with this result. -/
def roundAfter (p : Poller) (processed : Except ReportError Verdict × Dashboard) :
    Round × Dashboard :=
  let (result, dashboard) := processed
  match result with
  | .ok .proceed =>
    (⟨[.publish (.live dashboard), .sleep p.settings.updateInterval],
      .inr { p with dashboard, failures := 0 }⟩, dashboard)
  | .ok .stop => (⟨[.publish (.final dashboard)], .inl .finished⟩, dashboard)
  | .error e => (⟨[.publish (.failed e.message)], .inl (.fatal e)⟩, dashboard)

/-- The round of a fetched document. -/
def documentRound (p : Poller) (doc : Document) (wallClock : Int) : Round × Dashboard :=
  p.roundAfter (p.dashboard.process doc wallClock)

/-- A round, with the dashboard it leaves. Nothing was fetched when there is no document. -/
def round (p : Poller) (fetched : Option Document) (wallClock : Int) : Round × Dashboard :=
  match fetched with
  | some doc => p.documentRound doc wallClock
  | none => (p.failRound, p.dashboard)

def checkedRound (p : Poller) (fetched : Option Document) (wallClock : Int) :
    Checked (Round × Dashboard) :=
  match fetched with
  | some doc => return p.roundAfter (← p.dashboard.checkedProcess doc wallClock)
  | none => pure (p.failRound, p.dashboard)

/-! ## Against a list of outcomes -/

/-- A run that has ended. -/
structure Run where
  events : List PollEvent
  termination : Termination
  dashboard : Dashboard

/-- A run in which every fetch fails. -/
def starve (p : Poller) : Run :=
  if p.failures + 1 < p.settings.maxAttempts then
    let rest := starve { p with failures := p.failures + 1 }
    { rest with events := .fetch :: .sleep p.settings.firstLoadInterval :: rest.events }
  else
    ⟨[.fetch, .publish (.failed MonitorError.noData.message)], .gaveUp (p.failures + 1),
      p.dashboard⟩
termination_by p.settings.maxAttempts - p.failures

/-- The rounds of fetches with these outcomes, each with the wall clock at its time. -/
def rounds (p : Poller) : List (Option Document × Int) → Run
  | [] => p.starve
  | (fetched, wallClock) :: outcomes =>
    let (r, dashboard) := p.round fetched wallClock
    match r.next with
    | .inl termination => ⟨.fetch :: r.events, termination, dashboard⟩
    | .inr p =>
      let rest := p.rounds outcomes
      { rest with events := .fetch :: r.events ++ rest.events }

/-- The whole run: the outcomes, and failures from then on. -/
def run (p : Poller) (outcomes : List (Option Document × Int)) : Run :=
  let rest := p.rounds outcomes
  { rest with events := .publish .loading :: rest.events }

def checkedRounds (p : Poller) : List (Option Document × Int) → Checked Run
  | [] => pure p.starve
  | (fetched, wallClock) :: outcomes => do
    let (r, dashboard) ← p.checkedRound fetched wallClock
    match r.next with
    | .inl termination => pure ⟨.fetch :: r.events, termination, dashboard⟩
    | .inr p =>
      let rest ← p.checkedRounds outcomes
      pure { rest with events := .fetch :: r.events ++ rest.events }

def checkedRun (p : Poller) (outcomes : List (Option Document × Int)) : Checked Run := do
  let rest ← p.checkedRounds outcomes
  pure { rest with events := .publish .loading :: rest.events }

end Poller

/-! ## Against a world -/

/-- What polling needs of the world. -/
structure PollHost (m : Type → Type) where
  /-- The next document, if there is one to be had. -/
  fetch : m (Option Document)
  /-- Seconds since the start of 1970. -/
  clock : m Int
  /-- Publishes a frame, or says why it could not. -/
  publish : Frame → m (Except String Unit)
  sleep : Nat → m Unit
  warn : String → m Unit

/-- The same world for polling that may break off. -/
def PollHost.lifted {m : Type → Type} [Monad m] (host : PollHost m) :
    PollHost (ExceptT Figure m) where
  fetch := ExceptT.lift host.fetch
  clock := ExceptT.lift host.clock
  publish frame := ExceptT.lift (host.publish frame)
  sleep seconds := ExceptT.lift (host.sleep seconds)
  warn message := ExceptT.lift (host.warn message)

namespace Poller

variable {m : Type → Type} [Monad m]

/-- Publishes a frame; polling goes on without a page that could not be published. -/
def tryPublish (host : PollHost m) (frame : Frame) : m Unit := do
  match ← host.publish frame with
  | .error message => host.warn ("Failed to publish page: " ++ message)
  | .ok _ => pure ()

/-- Does what a round says after its fetch. -/
def doEvent (host : PollHost m) : PollEvent → m Unit
  | .fetch => pure ()
  | .sleep seconds => host.sleep seconds
  | .publish frame => tryPublish host frame

/-- One round: how polling ended, or the poller that goes on. -/
def turn (host : PollHost m) (p : Poller) : m (Termination ⊕ Poller) := do
  let fetched ← host.fetch
  let clock ← host.clock
  let (round, _) := p.round fetched clock
  round.events.forM (doEvent host)
  pure round.next

/-- At most `n` rounds. -/
def turns (host : PollHost m) : Nat → Poller → m (Option Termination)
  | 0, _ => pure none
  | n + 1, p => do
    match ← p.turn host with
    | .inl termination => pure (some termination)
    | .inr p => turns host n p

/-- Polling from its start, stopped after `n` rounds if it has not ended before. -/
def poll (host : PollHost m) (n : Nat) (p : Poller) : m (Option Termination) := do
  tryPublish host .loading
  turns host n p

/-! ## Checked, in a world that may break off -/

variable [MonadExceptOf Figure m]

def checkedTurn (host : PollHost m) (p : Poller) : m (Termination ⊕ Poller) := do
  let fetched ← host.fetch
  let clock ← host.clock
  let (round, _) ← liftExcept (p.checkedRound fetched clock)
  round.events.forM (doEvent host)
  pure round.next

def checkedTurns (host : PollHost m) : Nat → Poller → m (Option Termination)
  | 0, _ => pure none
  | n + 1, p => do
    match ← p.checkedTurn host with
    | .inl termination => pure (some termination)
    | .inr p => checkedTurns host n p

def checkedPoll (host : PollHost m) (n : Nat) (p : Poller) : m (Option Termination) := do
  tryPublish host .loading
  checkedTurns host n p

end Poller

end BuildBoard
