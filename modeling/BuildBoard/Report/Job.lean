import BuildBoard.Document.Lenient

/-!
# Builder slots
-/

namespace BuildBoard

/-- What one builder is doing. -/
structure Job where
  id : String
  status : String
  pkgname : Option String
  origin : Option String
  flavor : Option String
  started : Option Int
deriving DecidableEq, Inhabited

/-- A text that says something. -/
def nonEmpty (s : Option String) : Option String := s.filter fun s => !s.isEmpty

namespace Job

def fieldNames : List String := ["id", "status", "pkgname", "origin", "flavor", "started"]

def ofFields (field : String → Option Document) : Job where
  id := Document.textOr (field "id")
  status := Document.textOr (field "status")
  pkgname := Document.text? (field "pkgname")
  origin := Document.text? (field "origin")
  flavor := Document.text? (field "flavor")
  started := Document.count? (field "started")

def decode? (d : Document) : Option Job := (d.record? fieldNames).map ofFields

end Job

end BuildBoard
