/-!
# Percent-encoding

A name becomes part of a link by writing each byte of its UTF-8 form that is not an ASCII letter,
digit or one of `-_.~` as `%` and two hexadecimal digits.
-/

namespace BuildBoard.Percent

/-- The characters that stand for themselves. -/
def isUnreserved (c : Char) : Bool :=
  c.isAlphanum || c == '-' || c == '_' || c == '.' || c == '~'

def hexDigit (n : Nat) : Char :=
  if n < 10 then Char.ofNat (48 + n) else Char.ofNat (55 + n)

def encodeByte (b : UInt8) : List Char := ['%', hexDigit (b.toNat / 16), hexDigit (b.toNat % 16)]

def encodeChar (c : Char) : List Char :=
  if isUnreserved c then [c] else (String.utf8EncodeChar c).flatMap encodeByte

def encodeChars (cs : List Char) : List Char := cs.flatMap encodeChar

def encode (s : String) : String := String.ofList (encodeChars s.toList)

/-- The encoding of each piece between slashes, which stay. -/
def encodePath (path : String) : String :=
  String.ofList (path.toList.flatMap fun c => if c = '/' then ['/'] else encodeChar c)

@[simp] theorem encodeChars_append (a b : List Char) :
    encodeChars (a ++ b) = encodeChars a ++ encodeChars b := by
  simp [encodeChars]

end BuildBoard.Percent
