import BuildBoard.Text.Fields

/-!
# Paths

A path is text with slashes between its components; one that starts with a slash is absolute.
Repeated slashes and components `.` name nothing of their own, but for a `.` at the start.
-/

namespace BuildBoard.Path

def isAbsolute (path : String) : Bool := path.toList.head? == some '/'

def endsWithSlash (path : String) : Bool := path.toList.getLast? == some '/'

/-- The path of `name` seen from `dir`: `name` itself if it is absolute. -/
def join (dir name : String) : String :=
  if isAbsolute name || dir.isEmpty then name
  else if endsWithSlash dir then dir ++ name
  else dir ++ "/" ++ name

example : join "d" "x" = "d/x" ∧ join "d/" "x" = "d/x" ∧ join "" "x" = "x" := by decide +kernel
example : join "d/x" "" = "d/x/" := by decide +kernel

/-! ## Components -/

/-- The components between slashes. -/
def names (path : String) : List String :=
  ((Fields.split '/' path.toList).filter (!·.isEmpty)).map String.ofList

/-- The pieces of a path without those at its end that name nothing. -/
def trimEnd (pieces : List (List Char)) : List (List Char) :=
  (pieces.reverse.dropWhile fun piece => piece = [] || piece = ['.']).reverse

/-- The path without its last component; the root and the empty path have none to lose. -/
def parent? (path : String) : Option String :=
  match Fields.split '/' path.toList with
  | [] => none
  | first :: pieces =>
    match trimEnd pieces with
    | [] => if first.isEmpty then none else some ""
    | piece :: pieces =>
      let rest := trimEnd (piece :: pieces).dropLast
      if first.isEmpty && rest.isEmpty then some "/"
      else some (String.ofList (Fields.join '/' (first :: rest)))

example : parent? "a/./b/." = some "a" ∧ parent? "./a" = some "." := by decide +kernel
example : parent? "a" = some "" ∧ parent? "/a" = some "/" ∧ parent? "/" = none := by decide +kernel

/-- The path and the ones above it that have a parent, from the innermost on. The first argument
bounds their number. -/
def ancestorsFrom : Nat → String → List String
  | 0, _ => []
  | bound + 1, path =>
    match parent? path with
    | some parent => path :: ancestorsFrom bound parent
    | none => []

def ancestors (path : String) : List String := ancestorsFrom (path.length + 1) path

example : ancestors "./a/../b" = ["./a/../b", "./a/..", "./a", "."] := by decide +kernel

end BuildBoard.Path
