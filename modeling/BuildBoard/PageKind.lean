/-!
# Kinds of pages and ways of hosting them

A page shows one build, the build history of one master, or an overview of all masters.
-/

namespace BuildBoard

inductive PageKind where
  | build | jail | index
deriving DecidableEq, Inhabited

namespace PageKind

def name : PageKind → String
  | .build => "build"
  | .jail => "jail"
  | .index => "index"

/-- The kind with exactly this name. -/
def ofName? (s : String) : Option PageKind := [build, jail, index].find? fun k => k.name == s

/-- The kind a request names: in any letter case, and the index by default.

Only ASCII letters are folded: no other character has a letter of these names as its lower case. -/
def ofRequest? (s : String) : Option PageKind :=
  if s.isEmpty then some .index else ofName? (s.map Char.toLower)

/-- What is wrong with a request for a kind that does not exist. -/
def unknownName (s : String) : String := "Unhandled page type '" ++ s ++ "'"

end PageKind

/-- Where pages stand: hosted by a server below one root for all data, or next to their own. -/
inductive Hosting where
  | hosted | inline
deriving DecidableEq, Inhabited

namespace Hosting

def name : Hosting → String
  | .hosted => "hosted"
  | .inline => "inline"

def ofName? (s : String) : Option Hosting := [hosted, inline].find? fun h => h.name == s

end Hosting

end BuildBoard
