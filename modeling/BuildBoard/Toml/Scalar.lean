import BuildBoard.Number.LeadingInt
import BuildBoard.Toml.Value

/-!
# Words of configuration texts

A value that is not quoted is a word: a number, a date or time, or one of a few names. A word is
read as a whole.
-/

namespace BuildBoard.Toml

/-! ## Underscores -/

/-- The text without its underscores, each of which stands between two digits. -/
def ungrouped? (isDigit : Char → Bool) : List Char → Option (List Char)
  | [] => some []
  | '_' :: _ => none
  | c :: '_' :: d :: rest =>
    if isDigit c && isDigit d then (ungrouped? isDigit (d :: rest)).map (c :: ·) else none
  | c :: rest => (ungrouped? isDigit rest).map (c :: ·)

/-- Whether a run of digits may stand before the point of a number: it does not start with a zero
that could be left out. -/
def isWhole (digits : List Char) : Bool :=
  !digits.isEmpty && (digits.head? != some '0' || digits.length == 1)

def splitSign : List Char → Bool × List Char
  | '-' :: cs => (true, cs)
  | '+' :: cs => (false, cs)
  | cs => (false, cs)

/-! ## Integers -/

def baseValue (base : Nat) (digits : List Char) : Nat :=
  digits.foldl (fun n c =>
    let d := if c.isDigit then c.toNat - 48 else c.toLower.toNat - 87
    base * n + d) 0

def isHexDigit (c : Char) : Bool :=
  c.isDigit || ('a' ≤ c && c ≤ 'f') || ('A' ≤ c && c ≤ 'F')

def isOctalDigit (c : Char) : Bool := '0' ≤ c && c ≤ '7'

def isBinaryDigit (c : Char) : Bool := c == '0' || c == '1'

/-- An integer that can be read: 128 bits hold it, with a sign or without. -/
def Value.ofInt (n : Int) : Value :=
  if -(Nat.pow 2 127 : Int) ≤ n && n < (Nat.pow 2 128 : Int) then .integer n else .unreadable

/-- The integer of digits in a base; there may be none of them. -/
def baseInteger? (base : Nat) (isDigit : Char → Bool) (cs : List Char) : Option Value :=
  if cs.all fun c => isDigit c || c == '_' then
    (ungrouped? isDigit cs).map fun digits =>
      if digits.isEmpty then .unreadable else Value.ofInt (baseValue base digits)
  else none

/-- The integer of a word with nothing before its digits but a sign. Groups of digits are only
checked where they meet: one that holds anything else makes the number unreadable, not the text. -/
def decimalInteger? (negative : Bool) (cs : List Char) : Option Value :=
  let lead := cs.takeWhile Char.isDigit
  let rest := cs.dropWhile Char.isDigit
  if rest.isEmpty then
    if isWhole lead then
      let n := digitsValue lead
      some (Value.ofInt (if negative then -(n : Int) else n))
    else none
  else if rest.head? = some '_' && cs.head? != some '0' then
    (ungrouped? isHexDigit cs).map fun digits =>
      if digits.all Char.isDigit then
        let n := digitsValue digits
        Value.ofInt (if negative then -(n : Int) else n)
      else .unreadable
  else none

/-! ## Floats -/

def isExponentMark (c : Char) : Bool := c == 'e' || c == 'E'

/-- The exponent after its mark: a sign and digits, in which leading zeros are allowed. -/
def exponent? (cs : List Char) : Option Int :=
  let (negative, digits) := splitSign cs
  if digits.isEmpty || !digits.all Char.isDigit then none
  else some (if negative then -(digitsValue digits : Int) else digitsValue digits)

/-- The least number that is infinite when it is rounded to a binary number of 64 bits. -/
def overflowThreshold : Nat := Nat.pow 2 1024 - Nat.pow 2 970

/-- The number of decimal digits of `overflowThreshold`. -/
def overflowDigits : Nat := 309

/-- Whether the number that digits denote, times a power of ten, overflows. With more or fewer
digits before the point than the threshold has, there is nothing to calculate. -/
def overflows (digits : List Char) (power : Int) : Bool :=
  let digits := digits.dropWhile (· == '0')
  let places := digits.length + power
  if digits.isEmpty || places < overflowDigits then false
  else if overflowDigits < places then true
  else
    decide (overflowThreshold * Nat.pow 10 (-power).toNat ≤
      digitsValue digits * Nat.pow 10 power.toNat)

/-- The float of a word without its sign: a whole part, and a fraction or an exponent. -/
def float? (cs : List Char) : Option Value := do
  let cs ← ungrouped? Char.isDigit cs
  let whole := cs.takeWhile Char.isDigit
  let rest := cs.dropWhile Char.isDigit
  guard (isWhole whole)
  let (fraction, rest) ← match rest with
    | '.' :: rest =>
      let fraction := rest.takeWhile Char.isDigit
      if fraction.isEmpty then none else some (fraction, rest.dropWhile Char.isDigit)
    | rest => some ([], rest)
  let exponent ← match rest with
    | [] => some 0
    | c :: rest => if isExponentMark c then exponent? rest else none
  guard (!fraction.isEmpty || !rest.isEmpty)
  some (if overflows (whole ++ fraction) (exponent - fraction.length) then .unreadable else .float)

/-! ## Numbers -/

/-- The number of a word. A base can only be given where there is no sign. -/
def number? (cs : List Char) : Option Value :=
  match cs with
  | '0' :: 'x' :: digits => baseInteger? 16 isHexDigit digits
  | '0' :: 'o' :: digits => baseInteger? 8 isOctalDigit digits
  | '0' :: 'b' :: digits => baseInteger? 2 isBinaryDigit digits
  | cs =>
    let (negative, body) := splitSign cs
    if body = "inf".toList || body = "nan".toList then some .float
    else if body.any fun c => c == '.' || isExponentMark c then float? body
    else decimalInteger? negative body

/-! ## Dates and times -/

/-- The number of a run of exactly `n` digits at the start of a text, and what follows. -/
def takeDigits? (n : Nat) (cs : List Char) : Option (Nat × List Char) :=
  let digits := cs.take n
  if digits.length = n && digits.all Char.isDigit then some (digitsValue digits, cs.drop n)
  else none

def takeChar? (c : Char) : List Char → Option (List Char)
  | d :: rest => if d = c then some rest else none
  | [] => none

def daysIn (year month : Nat) : Nat :=
  if month = 2 then
    if year % 4 = 0 && (year % 100 ≠ 0 || year % 400 = 0) then 29 else 28
  else if month = 4 || month = 6 || month = 9 || month = 11 then 30
  else 31

/-- What follows a date. -/
def afterDate? (cs : List Char) : Option (List Char) := do
  let (year, cs) ← takeDigits? 4 cs
  let cs ← takeChar? '-' cs
  let (month, cs) ← takeDigits? 2 cs
  let cs ← takeChar? '-' cs
  let (day, cs) ← takeDigits? 2 cs
  if 1 ≤ month && month ≤ 12 && 1 ≤ day && day ≤ daysIn year month then some cs else none

/-- What follows hours and minutes. -/
def afterMinutes? (cs : List Char) : Option (List Char) := do
  let (hours, cs) ← takeDigits? 2 cs
  let cs ← takeChar? ':' cs
  let (minutes, cs) ← takeDigits? 2 cs
  if hours ≤ 23 && minutes ≤ 59 then some cs else none

/-- What follows a fraction of a second, if there is one. -/
def afterFraction? : List Char → Option (List Char)
  | '.' :: cs =>
    if (cs.takeWhile Char.isDigit).isEmpty then none else some (cs.dropWhile Char.isDigit)
  | cs => some cs

/-- What follows a time of day, the seconds of which may be missing. -/
def afterTime? (cs : List Char) : Option (List Char) := do
  let cs ← afterMinutes? cs
  match cs with
  | ':' :: cs =>
    let (seconds, cs) ← takeDigits? 2 cs
    if seconds ≤ 60 then afterFraction? cs else none
  | cs => some cs

/-- Whether the text is an offset from UTC, or nothing. -/
def isOffset : List Char → Bool
  | [] => true
  | ['Z'] | ['z'] => true
  | '+' :: cs | '-' :: cs => afterMinutes? cs == some []
  | _ => false

/-- Whether the word is a date, a time, or both with a letter or a space between them. -/
def isDatetime (cs : List Char) : Bool :=
  match afterDate? cs with
  | some [] => true
  | some (c :: cs) =>
    (c == 'T' || c == 't' || c == ' ') && ((afterTime? cs).map isOffset).getD false
  | none => afterTime? cs == some []

/-! ## Words -/

/-- The characters that end a word. -/
def delimiters : List Char :=
  ['=', ',', '[', ']', '\x7b', '\x7d', ' ', '\t', '#', '\x0d', '\n', '\'', '"']

def isWordChar (c : Char) : Bool := !delimiters.contains c

/-- The value of a word. -/
def word? (cs : List Char) : Option Value :=
  if cs = "true".toList then some (.boolean true)
  else if cs = "false".toList then some (.boolean false)
  else if isDatetime cs then some .datetime
  else number? cs

/-- A word at the start of a text, and what follows it. After a date, a space and a time belong to
the same word. -/
def takeWord (cs : List Char) : List Char × List Char :=
  let word := cs.takeWhile isWordChar
  let rest := cs.dropWhile isWordChar
  match rest with
  | ' ' :: d :: rest' =>
    if afterDate? word = some [] && d.isDigit then
      (word ++ ' ' :: d :: rest'.takeWhile isWordChar, rest'.dropWhile isWordChar)
    else (word, rest)
  | _ => (word, rest)

end BuildBoard.Toml
