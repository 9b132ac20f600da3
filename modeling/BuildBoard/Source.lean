import BuildBoard.Document.Reader
import BuildBoard.Page.Context
import BuildBoard.Path
import BuildBoard.Text.Percent

/-!
# Sources

Where the status documents of a page come from: a file below a directory, or an address below a
base address.
-/

namespace BuildBoard

inductive SourceKind where
  | http | file
deriving DecidableEq, Inhabited

namespace SourceKind

def name : SourceKind → String
  | .http => "http"
  | .file => "file"

def ofName? (s : String) : Option SourceKind := [http, file].find? fun k => k.name == s

end SourceKind

inductive Source where
  | http (url : String)
  | file (path : String)
deriving DecidableEq

/-- Why nothing was fetched. -/
inductive FetchError where
  | unreadable (path : String)
  | undecodable
  | unreachable (url : String)

def FetchError.message : FetchError → String
  | .unreadable path => "Failed to read " ++ path
  | .undecodable => "Failed to decode status document"
  | .unreachable url => "Failed to GET " ++ url

namespace Source

/-- The name of the document in a data directory. -/
def dataFile : String := ".data.json"

/-- The address of a page's document: a slash ends the base, and each name on the way to the
document is percent-encoded. -/
def httpUrl (base dataUrl : String) : String :=
  (if Path.endsWithSlash base then base else base ++ "/") ++ Percent.encodePath dataUrl ++ dataFile

/-- The path of a page's document. -/
def filePath (root dataUrl : String) : String := Path.join (Path.join root dataUrl) dataFile

/-- The source of a page's documents. -/
def new (kind : SourceKind) (base root dataUrl : String) : Source :=
  match kind with
  | .http => .http (httpUrl base dataUrl)
  | .file => .file (filePath root dataUrl)

/-- Where the source is. -/
def describe : Source → String
  | .http url => url
  | .file path => path

/-- What a source gives whose text was read, or was not. -/
def decode (source : Source) (body : Option String) : Except FetchError Document :=
  match body, source with
  | some body, _ =>
    match Document.parse? body with
    | some doc => .ok doc
    | none => .error .undecodable
  | none, .file path => .error (.unreadable path)
  | none, .http url => .error (.unreachable url)

end Source

end BuildBoard
