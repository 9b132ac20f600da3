import BuildBoard.Text.Printable

/-!
# Quoted text in messages

A text in a message stands between double quotes. Quotes and backslashes are escaped, and so is
whatever would not show: the usual letters for the usual control characters, and the code point in
braces for all others that are not printable.
-/

namespace BuildBoard.Quoted

/-- The code point in hexadecimal digits between braces. -/
def codePoint (c : Char) : List Char :=
  '\\' :: 'u' :: '\x7b' :: (Nat.toDigits 16 c.toNat ++ ['\x7d'])

def escapeChar (c : Char) : List Char :=
  if c = '"' then ['\\', '"']
  else if c = '\\' then ['\\', '\\']
  else if c = '\t' then ['\\', 't']
  else if c = '\n' then ['\\', 'n']
  else if c = '\x0d' then ['\\', 'r']
  else if c = '\x00' then ['\\', '0']
  else if isPrintable c then [c]
  else codePoint c

def quote (s : String) : String := String.ofList ('"' :: (s.toList.flatMap escapeChar ++ ['"']))

example : quote "a\tb" = "\"a\\tb\"" := by decide +kernel
example : escapeChar '\u200b' = "\\u\x7b200b\x7d".toList := by decide +kernel

end BuildBoard.Quoted
