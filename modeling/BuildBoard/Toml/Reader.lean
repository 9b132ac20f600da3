import BuildBoard.Toml.Quoted
import BuildBoard.Toml.Scalar

/-!
# Reading configuration texts

A text is a list of lines: an entry `key = value`, the header of a table, or nothing, with a comment
at the end. Arrays and inline tables may run over several lines; only the parts of a key stay on
one.
-/

namespace BuildBoard.Toml

/-! ## Between the tokens -/

def skipSpaces (cs : List Char) : List Char := cs.dropWhile isSpace

/-- The text after a comment, if there is one at its start; it ends before the line does. -/
def skipComment? : List Char → Option (List Char)
  | '#' :: cs =>
    let body := cs.takeWhile (· != '\n')
    let rest := cs.dropWhile (· != '\n')
    let body := if body.getLast? = some '\x0d' && !rest.isEmpty then body.dropLast else body
    if body.any isControl then none else some rest
  | cs => some cs

/-- The text after the rest of a line that holds nothing more: `none` if it does hold something. -/
def endOfLine? (cs : List Char) : Option (List Char) :=
  (skipComment? (skipSpaces cs)).bind fun cs =>
    if cs.isEmpty then some [] else afterNewline? cs

/-- The text after blanks, line ends and comments. The first argument bounds the steps. -/
def skipLines? : Nat → List Char → Option (List Char)
  | 0, cs => some cs
  | fuel + 1, cs =>
    (skipComment? (skipSpaces cs)).bind fun cs =>
      match afterNewline? cs with
      | some cs => skipLines? fuel cs
      | none => some cs

def skipAll? (cs : List Char) : Option (List Char) := skipLines? (cs.length + 1) cs

/-! ## Keys -/

def isBareChar (c : Char) : Bool := c.isAlphanum || c == '-' || c == '_'

/-- One part of a key, and what follows it. -/
def keyPart? (cs : List Char) : Option (String × List Char) :=
  match singleString? cs with
  | some (s, rest) => some (String.ofList s, rest)
  | none =>
    let name := cs.takeWhile isBareChar
    if name.isEmpty then none else some (String.ofList name, cs.dropWhile isBareChar)

/-- The number of parts that a key may have, and of arrays and inline tables that may stand inside
each other. -/
def maxNesting : Nat := 80

/-- A key with its parts between dots, and what follows it. The first argument bounds the parts. -/
def keyParts? : Nat → List Char → Option (List String × List Char)
  | 0, _ => none
  | fuel + 1, cs =>
    (keyPart? (skipSpaces cs)).bind fun (part, cs) =>
      match skipSpaces cs with
      | '.' :: cs => (keyParts? fuel cs).map fun (parts, cs) => (part :: parts, cs)
      | cs => some ([part], cs)

def key? (cs : List Char) : Option (List String × List Char) := keyParts? maxNesting cs

/-! ## Values -/

mutual

/-- A value at the start of a text, and what follows it. The first argument bounds the steps, the
second the arrays and inline tables that may stand inside each other. -/
def value? : Nat → Nat → List Char → Option (Value × List Char)
  | 0, _, _ => none
  | fuel + 1, nesting, cs =>
    match cs, nesting with
    | '[' :: _, 0 | '{' :: _, 0 => none
    | '[' :: cs, nesting + 1 => (items? fuel nesting cs).map fun (items, cs) => (.array items, cs)
    | '{' :: cs, nesting + 1 =>
      (fields? fuel nesting [] cs).map fun (es, cs) => (.table .inline es, cs)
    | '"' :: _, _ | '\'' :: _, _ => (string? cs).map fun (s, cs) => (.string (String.ofList s), cs)
    | cs, _ =>
      let (word, rest) := takeWord cs
      (word? word).map fun v => (v, rest)

/-- The items of an array up to its end. -/
def items? : Nat → Nat → List Char → Option (List Value × List Char)
  | 0, _, _ => none
  | fuel + 1, nesting, cs =>
    (skipAll? cs).bind fun cs =>
      match cs with
      | ']' :: cs => some ([], cs)
      | cs =>
        (value? fuel nesting cs).bind fun (v, cs) =>
          (skipAll? cs).bind fun cs =>
            match cs with
            | ',' :: cs => (items? fuel nesting cs).map fun (vs, cs) => (v :: vs, cs)
            | ']' :: cs => some ([v], cs)
            | _ => none

/-- The entries of an inline table up to its end, added to those before them. -/
def fields? : Nat → Nat → Entries → List Char → Option (Entries × List Char)
  | 0, _, _, _ => none
  | fuel + 1, nesting, es, cs =>
    (skipAll? cs).bind fun cs =>
      match cs with
      | '}' :: cs => some (es, cs)
      | cs =>
        (key? cs).bind fun (key, cs) =>
          ((skipAll? cs).bind (takeChar? '=')).bind fun cs =>
            ((skipAll? cs).bind (value? fuel nesting)).bind fun (v, cs) =>
              (Entries.insertDotted v key es).bind fun es =>
                (skipAll? cs).bind fun cs =>
                  match cs with
                  | ',' :: cs => fields? fuel nesting es cs
                  | '}' :: cs => some (es, cs)
                  | _ => none

end

/-! ## Lines -/

/-- The root table so far, and the header that entries are added below. -/
structure Draft where
  root : Entries
  header : List String

/-- The draft after a header, read from after its opening bracket. -/
def headerLine? (d : Draft) (cs : List Char) : Option (Draft × List Char) :=
  match cs with
  | '[' :: cs =>
    (key? cs).bind fun (key, cs) =>
      match cs with
      | ']' :: ']' :: cs =>
        (Entries.atHeader Entries.openElement key d.root).map fun root => (⟨root, key⟩, cs)
      | _ => none
  | cs =>
    (key? cs).bind fun (key, cs) =>
      match cs with
      | ']' :: cs =>
        (Entries.atHeader Entries.openTable key d.root).map fun root => (⟨root, key⟩, cs)
      | _ => none

/-- The draft after an entry. -/
def entryLine? (d : Draft) (cs : List Char) : Option (Draft × List Char) :=
  (key? cs).bind fun (key, cs) =>
    match cs with
    | '=' :: cs =>
      (value? (cs.length + 1) maxNesting (skipSpaces cs)).bind fun (v, cs) =>
        (Entries.insertBelow (Entries.insertDotted v key) d.header d.root).map fun root =>
          ({ d with root }, cs)
    | _ => none

/-- The draft after all lines. The first argument bounds their number. -/
def lines? : Nat → Draft → List Char → Option Draft
  | 0, _, _ => none
  | fuel + 1, d, cs =>
    (skipAll? cs).bind fun cs =>
      let line := match cs with
        | [] => none
        | '[' :: cs => headerLine? d cs
        | cs => entryLine? d cs
      if cs.isEmpty then some d
      else line.bind fun (d, cs) => (endOfLine? cs).bind fun cs => lines? fuel d cs

/-- The root table of a text; a byte order mark before it is passed over. -/
def parse? (s : String) : Option Entries :=
  let cs := match s.toList with
    | '\ufeff' :: cs => cs
    | cs => cs
  (lines? (cs.length + 1) ⟨[], []⟩ cs).map Draft.root

end BuildBoard.Toml
