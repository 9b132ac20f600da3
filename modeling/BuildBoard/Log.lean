/-!
# Log messages
-/

namespace BuildBoard

/-- How much a message matters, from least to most. -/
inductive LogLevel where
  | trace | debug | info | warn | error
deriving DecidableEq, Inhabited

namespace LogLevel

def all : List LogLevel := [.trace, .debug, .info, .warn, .error]

def name : LogLevel → String
  | .trace => "trace"
  | .debug => "debug"
  | .info => "info"
  | .warn => "warn"
  | .error => "error"

def ofName? (s : String) : Option LogLevel := all.find? fun l => l.name == s

/-- Whether messages of this level are logged where `threshold` is asked for. -/
def passes (threshold level : LogLevel) : Bool := all.idxOf threshold ≤ all.idxOf level

example : passes .info .warn = true ∧ passes .info .debug = false := by decide

end LogLevel

end BuildBoard
