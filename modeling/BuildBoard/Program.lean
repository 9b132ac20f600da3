import BuildBoard.Config
import BuildBoard.Log

/-!
# The program

The monitor reads its configuration, makes sure that it can log, and polls until there is nothing
more to show. What it needs of the world is a `Host`, so that the whole program can run over a file
tree as it runs on a machine.
-/

namespace BuildBoard

/-- What the program needs of the world. -/
structure Host (m : Type → Type) where
  readText : String → m (Except Fault String)
  /-- The text at an address, if there is an answer. -/
  get : String → m (Option String)
  perform : Step → m (Except Fault Unit)
  /-- Makes sure that a file can be written at the end of. -/
  touch : String → m (Except Fault Unit)
  /-- Seconds since the start of 1970. -/
  clock : m Int
  /-- The time as pages show it. -/
  stamp : m String
  /-- The day as names of log files show it. -/
  day : m String
  sleep : Nat → m Unit
  log : LogLevel → String → m Unit

/-- The same world, with a log of the messages that pass a threshold. -/
def Host.logging {m : Type → Type} [Monad m] (host : Host m) (threshold : LogLevel) : Host m :=
  { host with log := fun level message =>
      if threshold.passes level then host.log level message else pure () }

/-- How the program ended: the exit code and what it says on the error stream. -/
structure Exit where
  code : Nat
  message : String
deriving DecidableEq

namespace Exit

def success : Exit := ⟨0, ""⟩

def failure (message : String) : Exit := ⟨1, "Error: " ++ message⟩

/-- The end of a program that breaks off. -/
def broken (f : Figure) : Exit := ⟨101, f.message⟩

end Exit

/-- The program while it polls. -/
structure Session where
  threshold : LogLevel
  publisher : Publisher
  source : Source
  poller : Poller

namespace Program

/-- The configuration file that the arguments name. -/
def configPath (args : List String) : String := args.head?.getD "config.toml"

variable {m : Type → Type} [Monad m]

/-! ## The world that is polled -/

def publish (host : Host m) (publisher : Publisher) (frame : Frame) : m (Except String Unit) := do
  let stamp ← host.stamp
  (publisher.plan stamp frame).run host.perform

/-- Publishes a frame. Its page is made once there is a directory for it. -/
def checkedPublish (host : Host m) (publisher : Publisher) (frame : Frame) :
    ExceptT Figure m (Except String Unit) := do
  let stamp ← host.stamp
  let plan := publisher.plan stamp frame
  match frame.checkedPage publisher.style stamp with
  | .ok _ => ExceptT.lift (plan.run host.perform)
  | .error f =>
    match ← ExceptT.lift (Plan.run host.perform (plan.take 1)) with
    | .error message => pure (.error message)
    | .ok _ => throw f

def fetch (host : Host m) (source : Source) : m (Except FetchError Document) := do
  match source with
  | .file path =>
    let body ← host.readText path
    pure (source.decode body.toOption)
  | .http url =>
    let body ← host.get url
    pure (source.decode body)

/-- The world as polling sees it. -/
def pollHost (host : Host m) (publisher : Publisher) (source : Source) : PollHost m where
  fetch := do
    let fetched ← fetch host source
    if let .error e := fetched then
      host.log .warn ("Fetch from " ++ source.describe ++ " failed: " ++ e.message)
    pure fetched.toOption
  clock := host.clock
  publish := publish host publisher
  sleep := host.sleep
  warn := host.log .warn

def checkedPollHost (host : Host m) (publisher : Publisher) (source : Source) :
    PollHost (ExceptT Figure m) :=
  { (pollHost host publisher source).lifted with publish := checkedPublish host publisher }

/-! ## Starting -/

/-- The configuration, or the message for the case that there is none. -/
def readConfig (host : Host m) (path : String) : m (Except String MonitorConfig) := do
  match ← host.readText path with
  | .error fault =>
    pure (.error ("Failed to read config file '" ++ path ++ "': " ++ fault.message))
  | .ok text =>
    match MonitorConfig.parse? text with
    | some config => pure (.ok config)
    | none => pure (.error ("Failed to parse config file '" ++ path ++ "': TOML parse error"))

/-- Makes sure that the log of the day can be written. Only when it cannot, the directory that it
should be in is made. -/
def openLog (host : Host m) (dir : String) : m (Except String Unit) := do
  let day ← host.day
  let path := Path.join dir ("pkgwatch-monitor." ++ day ++ ".log")
  match ← host.touch path with
  | .ok _ => pure (.ok ())
  | .error _ =>
    let failed := "Failed to create file appender"
    match ← host.perform (.makeDirs ((Path.parent? path).getD "")) with
    | .error _ => pure (.error failed)
    | .ok _ => return (← host.touch path).mapError fun _ => failed

/-- The session that a configuration asks for, or the end of the program. -/
def beginSession (host : Host m) (threshold : LogLevel) (config : MonitorConfig) :
    m (Except Exit Session) := do
  let publisher := config.publisher
  match config.context with
  | .error e =>
    host.log .error e.message
    match ← publish host publisher (.failed e.message) with
    | .error message => pure (.error (Exit.failure message))
    | .ok _ => pure (.error (Exit.failure e.message))
  | .ok ctx =>
    host.log .info ("Monitoring " ++ ctx.kind.name ++ " page")
    let poller := Poller.new config.pollSettings (Dashboard.new ctx config.dashboardSettings)
    pure (.ok ⟨threshold, publisher, config.sourceFor ctx, poller⟩)

def start (host : Host m) (args : List String) : m (Except Exit Session) := do
  match ← readConfig host (configPath args) with
  | .error message => pure (.error (Exit.failure message))
  | .ok config =>
    match ← openLog host config.logDir with
    | .error message => pure (.error (Exit.failure message))
    | .ok _ =>
      let threshold := (LogLevel.ofName? config.logLevel).getD .info
      let host := host.logging threshold
      if (LogLevel.ofName? config.logLevel).isNone then
        host.log .warn ("Invalid log level '" ++ config.logLevel ++ "', defaulting to 'info'")
      host.log .info ("Writing pages to " ++ config.outputDir)
      beginSession host threshold config

/-! ## Polling -/

/-- How the program ends when polling does. -/
def exitOf : Termination → Exit
  | .finished => Exit.success
  | .gaveUp attempts =>
    Exit.failure ("no data available after " ++ decimalText attempts ++ " attempts")
  | .fatal e => Exit.failure e.message

/-- The world that a session polls. -/
def sessionHost (host : Host m) (s : Session) : PollHost (ExceptT Figure m) :=
  checkedPollHost (host.logging s.threshold) s.publisher s.source

/-- Publishes the page that is there before anything is loaded. -/
def announce (host : Host m) (s : Session) : m Unit :=
  discard (Poller.tryPublish (sessionHost host s) .loading).run

/-- One round of polling: the end of the program, or the session that goes on. -/
def pollOnce (host : Host m) (s : Session) : m (Exit ⊕ Session) := do
  match ← (s.poller.checkedTurn (sessionHost host s)).run with
  | .error f => pure (.inl (Exit.broken f))
  | .ok (.inl termination) => pure (.inl (exitOf termination))
  | .ok (.inr poller) => pure (.inr { s with poller })

/-- The program, stopped after `rounds` rounds of polling if it has not ended before. -/
def run (host : Host m) (rounds : Nat) (args : List String) : m (Option Exit) := do
  match ← start host args with
  | .error exit => pure (some exit)
  | .ok session =>
    match ← (session.poller.checkedPoll (sessionHost host session) rounds).run with
    | .error f => pure (some (Exit.broken f))
    | .ok ended => pure (ended.map exitOf)

end Program

/-! ## On a file tree -/

/-- The program's world as a file tree at a fixed time, with no network. -/
def FileTree.host (clock : Int) (stamp day : String) : Host (StateM FileTree) where
  readText path := do return (← get).readText path
  get _ := pure none
  perform := FileTree.perform
  touch path := FileTree.change fun t =>
    match t.read path with
    | .ok _ => .ok t
    | .error .notFound => t.write path (.text "")
    | .error fault => .error fault
  clock := pure clock
  stamp := pure stamp
  day := pure day
  sleep _ := pure ()
  log _ _ := pure ()

end BuildBoard
