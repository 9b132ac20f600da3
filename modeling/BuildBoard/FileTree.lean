import BuildBoard.Path
import BuildBoard.Progress.Bar

/-!
# File trees

A tree of directories and files, with a directory that relative paths start from. An operation
either changes the tree or fails with the fault that an operating system would report.
-/

namespace BuildBoard

inductive Fault where
  | notFound
  | notDirectory
  | isDirectory
  /-- Something is there already. -/
  | alreadyExists
  /-- A path or one of its components is too long. -/
  | nameTooLong
  /-- The path contains the character that ends paths. -/
  | nulInPath
  /-- The file is not text. -/
  | notText
  | other (text : String)
deriving DecidableEq

def Fault.message : Fault → String
  | .notFound => "No such file or directory (os error 2)"
  | .notDirectory => "Not a directory (os error 20)"
  | .isDirectory => "Is a directory (os error 21)"
  | .alreadyExists => "File exists (os error 17)"
  | .nameTooLong => "File name too long (os error 36)"
  | .nulInPath => "file name contained an unexpected NUL byte"
  | .notText => "stream did not contain valid UTF-8"
  | .other text => text

/-- What a file holds. -/
inductive Content where
  | text (s : String)
  | bytes (data : ByteArray)
  /-- The picture of a progress bar. -/
  | image (bar : Progress.Bar)

/-- The text of a file, if it is text. -/
def Content.text? : Content → Option String
  | .text s => some s
  | .bytes data => String.fromUTF8? data
  | .image _ => none

inductive Node where
  | dir
  | file (c : Content)

/-- Nodes by the names on the way to them from the root, which is a directory itself. -/
structure FileTree where
  nodes : List (List String × Node)
  workDir : List String

namespace FileTree

def node? (t : FileTree) : List String → Option Node
  | [] => some .dir
  | place => t.nodes.lookup place

def remove (t : FileTree) (place : List String) : FileTree :=
  { t with nodes := t.nodes.filter fun n => n.1 != place }

def put (t : FileTree) (place : List String) (node : Node) : FileTree :=
  { t.remove place with nodes := (place, node) :: (t.remove place).nodes }

/-- The names in a directory, in their order. -/
def list (t : FileTree) (place : List String) : List String :=
  (t.nodes.filterMap fun n =>
    if n.1.dropLast = place && !n.1.isEmpty then n.1.getLast? else none).mergeSort (· ≤ ·)

/-! ## Finding places -/

/-- The most bytes that a component may have. -/
def maxNameBytes : Nat := 255

/-- The most bytes that a path may have. -/
def maxPathBytes : Nat := 4095

/-- The fault of a path that leads nowhere in any tree. -/
def faultOfPath? (path : String) : Option Fault :=
  if path.toList.contains '\x00' then some .nulInPath
  else if path.isEmpty then some .notFound
  else if maxPathBytes < path.utf8ByteSize then some .nameTooLong
  else none

/-- The component names of a path; a slash at the end asks for a directory. -/
def components (path : String) : List String :=
  if Path.endsWithSlash path then Path.names path ++ ["."] else Path.names path

def startOf (t : FileTree) (path : String) : List String :=
  if Path.isAbsolute path then [] else t.workDir

/-- The place that a component leads to from a directory. -/
def follow (t : FileTree) (place : List String) (name : String) : Except Fault (List String) :=
  match t.node? place with
  | some .dir =>
    if name = "." then .ok place
    else if name = ".." then .ok place.dropLast
    else if maxNameBytes < name.utf8ByteSize then .error .nameTooLong
    else .ok (place ++ [name])
  | some (.file _) => .error .notDirectory
  | none => .error .notFound

/-- The place a path leads to; all on the way to it are directories. -/
def resolve (t : FileTree) (path : String) : Except Fault (List String) :=
  match faultOfPath? path with
  | some fault => .error fault
  | none => (components path).foldlM t.follow (t.startOf path)

/-! ## Operations -/

/-- The content of a file. -/
def read (t : FileTree) (path : String) : Except Fault Content := do
  let place ← t.resolve path
  match t.node? place with
  | some (.file c) => .ok c
  | some .dir => .error .isDirectory
  | none => .error .notFound

def readText (t : FileTree) (path : String) : Except Fault String := do
  match (← t.read path).text? with
  | some s => .ok s
  | none => .error .notText

/-- Writes a file, over one that may be there. -/
def write (t : FileTree) (path : String) (c : Content) : Except Fault FileTree := do
  let place ← t.resolve path
  match t.node? place with
  | some .dir => .error .isDirectory
  | _ => .ok (t.put place (.file c))

/-- Moves a file, over one that may be there. -/
def rename (t : FileTree) (source target : String) : Except Fault FileTree := do
  let c ← t.read source
  let old ← t.resolve source
  let new ← t.resolve target
  match t.node? new with
  | some .dir => .error .isDirectory
  | _ => .ok ((t.remove old).put new (.file c))

/-! ## Making directories -/

def isDirectory (t : FileTree) (path : String) : Bool :=
  match t.resolve path with
  | .ok place => match t.node? place with
    | some .dir => true
    | _ => false
  | .error _ => false

/-- Makes one directory, in one that is there. -/
def makeDir (t : FileTree) (path : String) : Except Fault FileTree := do
  if let some fault := faultOfPath? path then .error fault
  let some name := (Path.names path).getLast? | .error .alreadyExists
  let parent ← (Path.names path).dropLast.foldlM t.follow (t.startOf path)
  let place ← t.follow parent name
  match t.node? place with
  | some _ => .error .alreadyExists
  | none => if name = "." || name = ".." then .error .alreadyExists else .ok (t.put place .dir)

/-- Makes one directory unless it is there. -/
def ensureDir (t : FileTree) (path : String) : Except Fault FileTree :=
  match t.makeDir path with
  | .error .alreadyExists => if t.isDirectory path then .ok t else .error .alreadyExists
  | result => result

/-- Does a change that may fail; then the tree stays as it was. -/
def change (f : FileTree → Except Fault FileTree) : StateM FileTree (Except Fault Unit) := fun t =>
  match f t with
  | .ok t => (.ok (), t)
  | .error fault => (.error fault, t)

end FileTree

/-- Sees to directories from the innermost to the outermost, until one is not missing what it
should be in; then to those passed over, the other way round. -/
def ensureChain {m : Type → Type} [Monad m] (ensure : String → m (Except Fault Unit)) :
    List String → m (Except Fault Unit)
  | [] => pure (.ok ())
  | path :: outer => do
    match ← ensure path with
    | .error .notFound =>
      match ← ensureChain ensure outer with
      | .ok _ => ensure path
      | failed => pure failed
    | result => pure result

/-- Makes a directory and those above it, as far as they are missing. Those that were made stay
when a later one cannot be made. -/
def FileTree.makeDirs (path : String) : StateM FileTree (Except Fault Unit) :=
  ensureChain (fun path => change (·.ensureDir path)) (Path.ancestors path)

end BuildBoard
