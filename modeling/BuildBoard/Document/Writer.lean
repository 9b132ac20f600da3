import BuildBoard.Document.Basic
import BuildBoard.Document.Literal
import BuildBoard.Number.Style

/-!
# Writing documents

A document is written without any space between its tokens.
-/

namespace BuildBoard.Document

def literal (s : String) : List Char := Literal.encode s.toList

/-- The texts with commas between them. -/
def commaSeparated : List (List Char) → List Char
  | [] => []
  | [x] => x
  | x :: xs => x ++ ',' :: commaSeparated xs

mutual

def write : Document → List Char
  | .null => "null".toList
  | .bool true => "true".toList
  | .bool false => "false".toList
  | .int n => (decimalText n).toList
  | .double x => (documentStyle.text x).toList
  | .text s => literal s
  | .array items => '[' :: (commaSeparated (writeItems items) ++ [']'])
  | .object fields => '{' :: (commaSeparated (writeFields fields) ++ ['}'])

def writeItems : List Document → List (List Char)
  | [] => []
  | d :: ds => write d :: writeItems ds

def writeFields : List (String × Document) → List (List Char)
  | [] => []
  | (name, d) :: fields => (literal name ++ ':' :: write d) :: writeFields fields

end

/-- The text of a document. -/
def render (d : Document) : String := String.ofList (write d)

end BuildBoard.Document
