import BuildBoard.Dashboard
import BuildBoard.Poll
import BuildBoard.Publish
import BuildBoard.Source
import BuildBoard.Toml.Reader

/-!
# Configuration

What a configuration file says, with defaults for all that it does not say. Keys that mean nothing
here are passed over; a key with a value of the wrong type or out of range makes the file
unreadable, and so does a number that cannot be read, whatever its key.
-/

namespace BuildBoard

/-! ## Typed fields -/

namespace Toml

/-- The fields of a table by name. What stands under other names is passed over, but it is read. -/
def Entries.section? (names : List String) (es : Entries) : Option (String → Option Value) :=
  if es.all fun e => names.contains e.1 || e.2.isReadable then some fun name => es.lookup name
  else none

/-- The fields of a section by name: a table, an array that gives them in their order, or a date,
which has none of them. Of an array, what comes after the last field is not read. -/
def Value.section? (names : List String) : Value → Option (String → Option Value)
  | .table _ entries => Entries.section? names entries
  | .array items => some fun name => (names.zip items).lookup name
  | .tables elements =>
    some fun name => (names.zip (elements.reverse.map (Value.table .header))).lookup name
  | .datetime => some fun _ => none
  | _ => none

/-- A field read by `decode`, or the default where it is missing. -/
def field (decode : Value → Option α) (default : α) (value : Option Value) : Option α :=
  match value with
  | none => some default
  | some v => decode v

def Value.string? : Value → Option String
  | .string s => some s
  | _ => none

def Value.boolean? : Value → Option Bool
  | .boolean b => some b
  | _ => none

/-- A natural number below `bound`. -/
def Value.natBelow? (bound : Nat) : Value → Option Nat
  | .integer n => if 0 ≤ n && n < bound then some n.toNat else none
  | _ => none

/-- One of a list of names: a string, or a table whose only key it is and that says nothing more
under it. -/
def Value.choice? (ofName? : String → Option α) : Value → Option α
  | .string s => ofName? s
  | .table _ [(s, .table _ [])] => ofName? s
  | .table _ [(s, .array [])] => ofName? s
  | _ => none

end Toml

open Toml (field)

/-! ## The monitor -/

structure SourceConfig where
  kind : SourceKind
  /-- The address that the data directory is below, for sources on the web. -/
  baseUrl : String
  /-- The directory that the data directory is below, for files. -/
  path : String
  hosting : Hosting
  requestTimeout : Nat
deriving DecidableEq

structure PageConfig where
  kind : PageKind
  mastername : Option String
  /-- The name of a build, or `latest`. -/
  build : Option String
  anchor : Option String
deriving DecidableEq

structure PollConfig where
  updateInterval : Nat
  firstLoadInterval : Nat
  maxLoadAttempts : Nat
deriving DecidableEq

structure RateConfig where
  firstPeriod : Nat
  targetPeriod : Nat
deriving DecidableEq

structure ProgressConfig where
  columnWidth : Nat
  png : Bool
deriving DecidableEq

structure MonitorConfig where
  logLevel : String
  logDir : String
  outputDir : String
  source : SourceConfig
  page : PageConfig
  poll : PollConfig
  rate : RateConfig
  progress : ProgressConfig
deriving DecidableEq

def SourceConfig.default : SourceConfig := ⟨.http, "http://localhost:8080/", ".", .hosted, 30⟩

def PageConfig.default : PageConfig := ⟨.build, none, none, none⟩

def PollConfig.default : PollConfig := ⟨8, 2, 8⟩

def RateConfig.default : RateConfig := ⟨120, 600⟩

def ProgressConfig.default : ProgressConfig := ⟨356, false⟩

def MonitorConfig.default : MonitorConfig where
  logLevel := "info"
  logDir := "logs"
  outputDir := "public"
  source := SourceConfig.default
  page := PageConfig.default
  poll := PollConfig.default
  rate := RateConfig.default
  progress := ProgressConfig.default

/-! ### Sections -/

def SourceConfig.decode? (v : Toml.Value) : Option SourceConfig := do
  let get ← v.section? ["kind", "base_url", "path", "server_style", "request_timeout_secs"]
  let d := SourceConfig.default
  let kind ← field (Toml.Value.choice? SourceKind.ofName?) d.kind (get "kind")
  let baseUrl ← field Toml.Value.string? d.baseUrl (get "base_url")
  let path ← field Toml.Value.string? d.path (get "path")
  let hosting ← field (Toml.Value.choice? Hosting.ofName?) d.hosting (get "server_style")
  let requestTimeout ←
    field (Toml.Value.natBelow? (Nat.pow 2 64)) d.requestTimeout (get "request_timeout_secs")
  some { kind, baseUrl, path, hosting, requestTimeout }

/-- A text that may be missing. -/
def optionalText (v : Option Toml.Value) : Option (Option String) :=
  field (fun v => v.string?.map some) none v

def PageConfig.decode? (v : Toml.Value) : Option PageConfig := do
  let get ← v.section? ["kind", "mastername", "build", "anchor"]
  let kind ← field (Toml.Value.choice? PageKind.ofName?) PageConfig.default.kind (get "kind")
  let mastername ← optionalText (get "mastername")
  let build ← optionalText (get "build")
  let anchor ← optionalText (get "anchor")
  some { kind, mastername, build, anchor }

def PollConfig.decode? (v : Toml.Value) : Option PollConfig := do
  let get ← v.section? ["update_interval_secs", "first_load_interval_secs", "max_load_attempts"]
  let d := PollConfig.default
  let updateInterval ←
    field (Toml.Value.natBelow? (Nat.pow 2 64)) d.updateInterval (get "update_interval_secs")
  let firstLoadInterval ←
    field (Toml.Value.natBelow? (Nat.pow 2 64)) d.firstLoadInterval (get "first_load_interval_secs")
  let maxLoadAttempts ←
    field (Toml.Value.natBelow? (Nat.pow 2 32)) d.maxLoadAttempts (get "max_load_attempts")
  some { updateInterval, firstLoadInterval, maxLoadAttempts }

def RateConfig.decode? (v : Toml.Value) : Option RateConfig := do
  let get ← v.section? ["first_period_secs", "target_period_secs"]
  let d := RateConfig.default
  let firstPeriod ←
    field (Toml.Value.natBelow? (Nat.pow 2 64)) d.firstPeriod (get "first_period_secs")
  let targetPeriod ←
    field (Toml.Value.natBelow? (Nat.pow 2 64)) d.targetPeriod (get "target_period_secs")
  some { firstPeriod, targetPeriod }

def ProgressConfig.decode? (v : Toml.Value) : Option ProgressConfig := do
  let get ← v.section? ["column_width", "png"]
  let d := ProgressConfig.default
  let columnWidth ← field (Toml.Value.natBelow? (Nat.pow 2 32)) d.columnWidth (get "column_width")
  let png ← field Toml.Value.boolean? d.png (get "png")
  some { columnWidth, png }

namespace MonitorConfig

def decode? (root : Toml.Entries) : Option MonitorConfig := do
  let get ← root.section?
    ["log_level", "log_dir", "output_dir", "source", "page", "poll", "rate", "progress"]
  let d := MonitorConfig.default
  let logLevel ← field Toml.Value.string? d.logLevel (get "log_level")
  let logDir ← field Toml.Value.string? d.logDir (get "log_dir")
  let outputDir ← field Toml.Value.string? d.outputDir (get "output_dir")
  let source ← field SourceConfig.decode? d.source (get "source")
  let page ← field PageConfig.decode? d.page (get "page")
  let poll ← field PollConfig.decode? d.poll (get "poll")
  let rate ← field RateConfig.decode? d.rate (get "rate")
  let progress ← field ProgressConfig.decode? d.progress (get "progress")
  some { logLevel, logDir, outputDir, source, page, poll, rate, progress }

/-- The configuration that a text gives. -/
def parse? (text : String) : Option MonitorConfig := (Toml.parse? text).bind decode?

/-! ### What it configures -/

def dashboardSettings (c : MonitorConfig) : DashboardSettings where
  columnWidth := c.progress.columnWidth
  updateInterval := c.poll.updateInterval
  firstPeriod := c.rate.firstPeriod
  targetPeriod := c.rate.targetPeriod
  anchor := nonEmpty c.page.anchor

def pollSettings (c : MonitorConfig) : PollSettings :=
  PollSettings.new c.poll.updateInterval c.poll.firstLoadInterval c.poll.maxLoadAttempts

def context (c : MonitorConfig) : Except MonitorError PageContext :=
  PageContext.ofRequest c.page.kind c.source.hosting c.page.mastername c.page.build

def sourceFor (c : MonitorConfig) (ctx : PageContext) : Source :=
  Source.new c.source.kind c.source.baseUrl c.source.path ctx.dataUrl

def publisher (c : MonitorConfig) : Publisher where
  outputDir := c.outputDir
  style := ⟨c.poll.updateInterval, c.progress.columnWidth⟩
  png := c.progress.png

end MonitorConfig

/-! ## The server -/

structure ServerConfig where
  /-- The number that connections are accepted at. -/
  socket : Nat
  /-- Whether connections are accepted from anywhere, or from this machine only. -/
  bindAll : Bool
  outputDirectory : String
  dataDirectory : Option String
  enableCors : Bool
deriving DecidableEq

namespace ServerConfig

def default : ServerConfig := ⟨8080, false, "public", none, true⟩

def decode? (root : Toml.Entries) : Option ServerConfig := do
  let get ← root.section?
    ["port", "bind_all", "output_directory", "data_directory", "enable_cors"]
  let d := ServerConfig.default
  let socket ← field (Toml.Value.natBelow? (Nat.pow 2 16)) d.socket (get "port")
  let bindAll ← field Toml.Value.boolean? d.bindAll (get "bind_all")
  let outputDirectory ← field Toml.Value.string? d.outputDirectory (get "output_directory")
  let dataDirectory ← optionalText (get "data_directory")
  let enableCors ← field Toml.Value.boolean? d.enableCors (get "enable_cors")
  some { socket, bindAll, outputDirectory, dataDirectory, enableCors }

def parse? (text : String) : Option ServerConfig := (Toml.parse? text).bind decode?

/-- The address that connections are accepted at. -/
def address (c : ServerConfig) : String :=
  (if c.bindAll then "0.0.0.0" else "127.0.0.1") ++ ":" ++ decimalText c.socket

end ServerConfig

end BuildBoard
