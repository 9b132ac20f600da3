import BuildBoard.Program
import BuildBoard.Progress.Png
import BuildBoard.Timestamp
import Std.Time.DateTime.Timestamp

/-!
# The monitor as a command

Usage: the one argument is the configuration file, `config.toml` by default.

There is no network here: a source on the web never answers.
-/

namespace BuildBoard.Main

/-- The fault behind an error of the operating system. -/
def faultOf : IO.Error → Fault
  | .noFileOrDirectory .. => .notFound
  | .alreadyExists .. => .alreadyExists
  | .inappropriateType _ code details | .noSuchThing _ code details =>
    if code = 20 then .notDirectory
    else if code = 21 then .isDirectory
    else .other (details ++ " (os error " ++ decimalText code.toNat ++ ")")
  | .userError _ => .notText
  | e => .other (toString e)

def attempt (action : IO α) : IO (Except Fault α) := do
  try return .ok (← action)
  catch e => return .error (faultOf e)

def writeContent (path : String) : Content → IO Unit
  | .text s => IO.FS.writeFile path s
  | .bytes data => IO.FS.writeBinFile path data
  | .image bar => IO.FS.writeBinFile path (Png.ofBar bar)

/-- Makes one directory unless it is there. -/
def ensureDir (path : String) : IO (Except Fault Unit) := do
  match ← attempt (IO.FS.createDir path) with
  | .error .alreadyExists => attempt (IO.FS.createDirAll path)
  | result => return result

def perform : Step → IO (Except Fault Unit)
  | .makeDirs path => ensureChain ensureDir (Path.ancestors path)
  | .write path c => attempt (writeContent path c)
  | .rename source target => attempt (IO.FS.rename source target)
  | .refuse => return .error (.other "")

def now : IO Int := do
  return (← Std.Time.Timestamp.now).toSecondsSinceUnixEpoch.val

def appendLine (path line : String) : IO Unit :=
  IO.FS.withFile path .append fun h => h.putStrLn line

/-- The machine; the log file is the one touched last. -/
def host (logFile : IO.Ref (Option String)) : Host IO where
  readText path := attempt (IO.FS.readFile path)
  get _ := pure none
  perform := perform
  touch path := attempt do
    IO.FS.withFile path .append fun _ => pure ()
    logFile.set (some path)
  clock := now
  stamp := return Timestamp.text (← now)
  day := return Timestamp.dateText (Timestamp.dateOf ((← now) / 86400))
  sleep seconds := IO.sleep (UInt32.ofNat (min (1000 * seconds) (Nat.pow 2 32 - 1)))
  log level message := do
    let line := Timestamp.text (← now) ++ " " ++ level.name ++ " " ++ message
    IO.println line
    if let some path ← logFile.get then
      discard (attempt (appendLine path line))

/-- Polls until the program ends. -/
partial def poll (host : Host IO) (session : Session) : IO Exit := do
  match ← Program.pollOnce host session with
  | .inl exit => return exit
  | .inr session => poll host session

end BuildBoard.Main

open BuildBoard in
def main (args : List String) : IO UInt32 := do
  let host := Main.host (← IO.mkRef none)
  let exit ← match ← Program.start host args with
    | .error exit => pure exit
    | .ok session =>
      Program.announce host session
      Main.poll host session
  if !exit.message.isEmpty then IO.eprintln exit.message
  return UInt32.ofNat exit.code
