import BuildBoard.Document.Literal
import BuildBoard.Document.Numeral

/-!
# Reading documents

A text is split into tokens, which are then fed to a machine whose state is the stack of arrays and
objects still open. The depth of that stack is limited.
-/

namespace BuildBoard

/-! ## Tokens -/

inductive Token where
  | openArray | closeArray | openObject | closeObject | comma | colon
  | atom (d : Document)
  | text (s : String)

namespace Token

def isSpace (c : Char) : Bool := c == ' ' || c == '\n' || c == '\t' || c == '\x0d'

/-- The tokens of a text. -/
def scan (cs : List Char) : Option (List Token) :=
  match cs with
  | [] => some []
  | '[' :: cs => (scan cs).map (.openArray :: ·)
  | ']' :: cs => (scan cs).map (.closeArray :: ·)
  | '{' :: cs => (scan cs).map (.openObject :: ·)
  | '}' :: cs => (scan cs).map (.closeObject :: ·)
  | ',' :: cs => (scan cs).map (.comma :: ·)
  | ':' :: cs => (scan cs).map (.colon :: ·)
  | 'n' :: 'u' :: 'l' :: 'l' :: cs => (scan cs).map (.atom .null :: ·)
  | 't' :: 'r' :: 'u' :: 'e' :: cs => (scan cs).map (.atom (.bool true) :: ·)
  | 'f' :: 'a' :: 'l' :: 's' :: 'e' :: cs => (scan cs).map (.atom (.bool false) :: ·)
  | '"' :: cs =>
    match h : Literal.decode cs with
    | none => none
    | some (s, rest) =>
      have := Literal.length_of_decode h
      (scan rest).map (.text (String.ofList s) :: ·)
  | c :: cs =>
    if isSpace c then scan cs
    else if Numeral.isNumeralChar c then
      match Numeral.read? (c :: cs.takeWhile Numeral.isNumeralChar) with
      | none => none
      | some d =>
        have := (List.dropWhile_sublist Numeral.isNumeralChar (l := cs)).length_le
        (scan (cs.dropWhile Numeral.isNumeralChar)).map (.atom d :: ·)
    else none
termination_by cs.length

end Token

/-! ## The machine -/

namespace Document

/-- A container whose end has not been read: the items so far, last first, or the fields so far
and the name of the one under way. -/
inductive Open where
  | array (items : List Document)
  | object (fields : List (String × Document)) (name : String)

/-- What the text read so far admits next. -/
inductive Reading where
  /-- A value. -/
  | value (stack : List Open)
  /-- A value, or the end of the array just opened. -/
  | firstItem (stack : List Open)
  /-- A field name, or the end of the object just opened. -/
  | firstName (stack : List Open)
  /-- A field name of the object with these fields. -/
  | fieldName (fields : List (String × Document)) (stack : List Open)
  /-- The colon after a field name. -/
  | colon (stack : List Open)
  /-- A comma, or the end of the innermost container. -/
  | next (stack : List Open)
  /-- Nothing more. -/
  | finished (d : Document)

namespace Reading

/-- A value is complete: it is the whole document, or goes into the innermost container. -/
def complete (d : Document) : List Open → Reading
  | [] => .finished d
  | .array items :: stack => .next (.array (d :: items) :: stack)
  | .object fields name :: stack => .next (.object (insertField name d fields) name :: stack)

/-- The start of a value. -/
def begin (limit : Nat) (stack : List Open) : Token → Option Reading
  | .atom d => some (complete d stack)
  | .text s => some (complete (.text s) stack)
  | .openArray => if stack.length < limit then some (.firstItem stack) else none
  | .openObject => if stack.length < limit then some (.firstName stack) else none
  | _ => none

def step (limit : Nat) : Reading → Token → Option Reading
  | .value stack, t => begin limit stack t
  | .firstItem stack, .closeArray => some (complete (.array []) stack)
  | .firstItem stack, t => begin limit (.array [] :: stack) t
  | .firstName stack, .closeObject => some (complete (.object []) stack)
  | .firstName stack, .text s => some (.colon (.object [] s :: stack))
  | .fieldName fields stack, .text s => some (.colon (.object fields s :: stack))
  | .colon stack, .colon => some (.value stack)
  | .next (.array items :: stack), .comma => some (.value (.array items :: stack))
  | .next (.array items :: stack), .closeArray => some (complete (.array items.reverse) stack)
  | .next (.object fields _ :: stack), .comma => some (.fieldName fields stack)
  | .next (.object fields _ :: stack), .closeObject => some (complete (.object fields) stack)
  | _, _ => none

end Reading

/-- The deepest nesting of a document that is read. -/
def maxDepth : Nat := 127

/-- The document that the tokens write. -/
def ofTokens? (limit : Nat) (tokens : List Token) : Option Document :=
  match tokens.foldlM (Reading.step limit) (.value []) with
  | some (.finished d) => some d
  | _ => none

/-- The document that a text writes, nested at most `limit` deep. -/
def parseWithin (limit : Nat) (s : String) : Option Document :=
  (Token.scan s.toList).bind (ofTokens? limit)

/-- The document that a text writes. -/
def parse? (s : String) : Option Document := parseWithin maxDepth s

end Document

end BuildBoard
