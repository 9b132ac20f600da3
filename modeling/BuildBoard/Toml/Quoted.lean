import BuildBoard.Document.Literal

/-!
# Quoted strings of configuration texts

A string stands between double quotes, where escapes are read, or between single quotes, where they
are not. Between triple quotes it may contain line ends.
-/

namespace BuildBoard.Toml

/-- Whether a character may not stand in a string or comment as it is. -/
def isControl (c : Char) : Bool := (c.toNat < 0x20 && c != '\t') || c.toNat == 0x7F

def isSpace (c : Char) : Bool := c == ' ' || c == '\t'

/-- The text after a line end, if there is one at its start. -/
def afterNewline? : List Char → Option (List Char)
  | '\n' :: cs => some cs
  | '\x0d' :: '\n' :: cs => some cs
  | _ => none

/-! ## Escapes -/

/-- The character with this number. -/
def scalar? (n : Nat) : Option Char := if h : n.isValidChar then some (Char.ofNatAux n h) else none

/-- The number of `n` hexadecimal digits at the start of a text, and what follows. -/
def takeHex? (n : Nat) (cs : List Char) : Option (Nat × List Char) :=
  let digits := cs.take n
  if digits.length < n then none
  else (digits.foldlM (fun acc c => (Literal.hexValue? c).map fun d => 16 * acc + d) 0).map
    fun value => (value, cs.drop n)

/-- The character that an escape stands for, read from after the backslash, and what follows. -/
def escape? : List Char → Option (Char × List Char)
  | 'b' :: cs => some ('\x08', cs)
  | 't' :: cs => some ('\t', cs)
  | 'n' :: cs => some ('\n', cs)
  | 'f' :: cs => some ('\x0c', cs)
  | 'r' :: cs => some ('\x0d', cs)
  | 'e' :: cs => some ('\x1b', cs)
  | '"' :: cs => some ('"', cs)
  | '\\' :: cs => some ('\\', cs)
  | 'x' :: cs => (takeHex? 2 cs).bind fun (n, cs) => (scalar? n).map fun c => (c, cs)
  | 'u' :: cs => (takeHex? 4 cs).bind fun (n, cs) => (scalar? n).map fun c => (c, cs)
  | 'U' :: cs => (takeHex? 8 cs).bind fun (n, cs) => (scalar? n).map fun c => (c, cs)
  | _ => none

/-! ## Strings on one line -/

/-- The text up to a double quote, and what follows that. The first argument bounds the steps. -/
def basicBody : Nat → List Char → Option (List Char × List Char)
  | 0, _ => none
  | _ + 1, [] => none
  | fuel + 1, c :: cs =>
    if c = '"' then some ([], cs)
    else if c = '\\' then
      (escape? cs).bind fun (d, cs) => (basicBody fuel cs).map fun (s, cs) => (d :: s, cs)
    else if isControl c then none
    else (basicBody fuel cs).map fun (s, cs) => (c :: s, cs)

/-- The text up to a single quote, and what follows that. -/
def literalBody (cs : List Char) : Option (List Char × List Char) :=
  let body := cs.takeWhile (· != '\'')
  match cs.dropWhile (· != '\'') with
  | [] => none
  | _ :: rest => if body.any isControl then none else some (body, rest)

/-! ## Strings over several lines -/

/-- Whether the text starts with three `q`s. -/
def startsTriple (q : Char) (cs : List Char) : Bool := [q, q, q].isPrefixOf cs

/-- The end of a string at three `q`s: up to two more may belong to the string. -/
def closeTriple (q : Char) (cs : List Char) : List Char × List Char :=
  let quotes := cs.takeWhile (· == q)
  let inside := min 2 (quotes.length - 3)
  (List.replicate inside q, cs.drop (3 + inside))

/-- The text after its blanks and line ends. -/
def skipBlankLines (cs : List Char) : List Char :=
  match cs with
  | ' ' :: cs | '\t' :: cs | '\n' :: cs | '\x0d' :: '\n' :: cs => skipBlankLines cs
  | cs => cs

/-- The text after a backslash at the end of a line: blanks and line ends are passed over. -/
def afterContinuation? (cs : List Char) : Option (List Char) :=
  (afterNewline? (cs.dropWhile isSpace)).map skipBlankLines

/-- The text up to three `q`s, and what follows them; escapes are read if `escapes`. The first
argument bounds the steps. -/
def tripleBody (q : Char) (escapes : Bool) : Nat → List Char → Option (List Char × List Char)
  | 0, _ => none
  | _ + 1, [] => none
  | fuel + 1, c :: cs =>
    if startsTriple q (c :: cs) then some (closeTriple q (c :: cs))
    else if c = '\\' && escapes then
      match afterContinuation? cs with
      | some cs => tripleBody q escapes fuel cs
      | none =>
        (escape? cs).bind fun (d, cs) =>
          (tripleBody q escapes fuel cs).map fun (s, cs) => (d :: s, cs)
    else match afterNewline? (c :: cs) with
      | some rest =>
        (tripleBody q escapes fuel rest).map fun (s, rest') =>
          ((c :: cs).take (cs.length + 1 - rest.length) ++ s, rest')
      | none =>
        if isControl c then none
        else (tripleBody q escapes fuel cs).map fun (s, cs) => (c :: s, cs)

/-! ## All strings -/

/-- A string at the start of a text that is on one line, and what follows it. -/
def singleString? : List Char → Option (List Char × List Char)
  | '"' :: cs => basicBody (cs.length + 1) cs
  | '\'' :: cs => literalBody cs
  | _ => none

/-- A string at the start of a text, and what follows it. A line end right after three quotes does
not belong to the string. -/
def string? (cs : List Char) : Option (List Char × List Char) :=
  if startsTriple '"' cs || startsTriple '\'' cs then
    let body := cs.drop 3
    let body := (afterNewline? body).getD body
    match cs.head? with
    | some q => tripleBody q (q == '"') (body.length + 1) body
    | none => none
  else singleString? cs

end BuildBoard.Toml
