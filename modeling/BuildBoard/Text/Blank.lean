/-!
# White space

The characters with the Unicode property `White_Space`.
-/

namespace BuildBoard

def isBlank (c : Char) : Bool :=
  let n := c.toNat
  (0x09 ≤ n && n ≤ 0x0D) || n == 0x20 || n == 0x85 || n == 0xA0 || n == 0x1680 ||
    (0x2000 ≤ n && n ≤ 0x200A) || n == 0x2028 || n == 0x2029 || n == 0x202F || n == 0x205F ||
    n == 0x3000

example : isBlank '\u0085' = true ∧ isBlank '\u200b' = false ∧ isBlank '\u3000' = true := by decide

end BuildBoard
