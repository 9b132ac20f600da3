/-!
# String literals of documents

A string stands between double quotes. Quotes, backslashes and control characters inside are
escaped; any character may be written as `\u` and four hexadecimal digits, those beyond the basic
plane as a surrogate pair.
-/

namespace BuildBoard.Literal

/-! ## Writing -/

def lowerHex (n : Nat) : Char := Nat.digitChar n

def escapeChar (c : Char) : List Char :=
  if c = '"' then ['\\', '"']
  else if c = '\\' then ['\\', '\\']
  else if c = '\x08' then ['\\', 'b']
  else if c = '\x0c' then ['\\', 'f']
  else if c = '\n' then ['\\', 'n']
  else if c = '\x0d' then ['\\', 'r']
  else if c = '\t' then ['\\', 't']
  else if c.toNat < 0x20 then
    ['\\', 'u', '0', '0', lowerHex (c.toNat / 16), lowerHex (c.toNat % 16)]
  else [c]

/-- The literal of a text, quotes included. -/
def encode (cs : List Char) : List Char := '"' :: (cs.flatMap escapeChar ++ ['"'])

/-! ## Reading -/

def hexValue? (c : Char) : Option Nat :=
  if c.isDigit then some (c.toNat - 48)
  else if 'a' ≤ c && c ≤ 'f' then some (c.toNat - 87)
  else if 'A' ≤ c && c ≤ 'F' then some (c.toNat - 55)
  else none

/-- The UTF-16 unit that four hexadecimal digits denote. -/
def unit? (a b c d : Char) : Option Nat := do
  let a ← hexValue? a
  let b ← hexValue? b
  let c ← hexValue? c
  let d ← hexValue? d
  some (((a * 16 + b) * 16 + c) * 16 + d)

def isHigh (u : Nat) : Bool := 0xD800 ≤ u && u < 0xDC00

def isLow (u : Nat) : Bool := 0xDC00 ≤ u && u < 0xE000

/-- The character of a surrogate pair. -/
def pairChar (high low : Nat) : Char :=
  Char.ofNat (0x10000 + (high - 0xD800) * 0x400 + (low - 0xDC00))

def unescape? (c : Char) : Option Char :=
  if c = '"' then some '"'
  else if c = '\\' then some '\\'
  else if c = '/' then some '/'
  else if c = 'b' then some '\x08'
  else if c = 'f' then some '\x0c'
  else if c = 'n' then some '\n'
  else if c = 'r' then some '\x0d'
  else if c = 't' then some '\t'
  else none

/-- The UTF-16 unit written at the start of a text, and what follows it. -/
def takeUnit? : List Char → Option (Nat × List Char)
  | a :: b :: c :: d :: rest => (unit? a b c d).map fun u => (u, rest)
  | _ => none

/-- The rest of a text that starts with `\u`. -/
def afterMark? : List Char → Option (List Char)
  | a :: b :: rest => if a = '\\' && b = 'u' then some rest else none
  | _ => none

/-- The character written after `\u`: a unit that is no surrogate, or a pair of surrogates. -/
def takeUnicode? (cs : List Char) : Option (Char × List Char) :=
  (takeUnit? cs).bind fun (u, rest) =>
    if isLow u then none
    else if isHigh u then
      ((afterMark? rest).bind takeUnit?).bind fun (v, rest) =>
        if isLow v then some (pairChar u v, rest) else none
    else some (Char.ofNat u, rest)

/-- The first character written in a literal's inside, and what follows it. There is none at the
closing quote, before a raw control character, a lone surrogate or an unknown escape. -/
def next? : List Char → Option (Char × List Char)
  | [] => none
  | c :: rest =>
    if c = '\\' then
      match rest with
      | [] => none
      | e :: rest => if e = 'u' then takeUnicode? rest else (unescape? e).map fun c => (c, rest)
    else if c = '"' || c.toNat < 0x20 then none
    else some (c, rest)

theorem length_of_takeUnit? {cs rest : List Char} {u : Nat} (h : takeUnit? cs = some (u, rest)) :
    rest.length < cs.length := by
  unfold takeUnit? at h
  split at h
  · obtain ⟨_, _, h⟩ := Option.map_eq_some_iff.1 h
    cases h; simp only [List.length_cons]; omega
  · cases h

theorem length_of_takeUnicode? {cs rest : List Char} {c : Char}
    (h : takeUnicode? cs = some (c, rest)) : rest.length < cs.length := by
  obtain ⟨⟨u, r⟩, hu, h⟩ := Option.bind_eq_some_iff.1 h
  have hr := length_of_takeUnit? hu
  dsimp only at h
  split at h
  · cases h
  split at h
  · obtain ⟨⟨v, r'⟩, hv, h⟩ := Option.bind_eq_some_iff.1 h
    obtain ⟨m, hm, hv⟩ := Option.bind_eq_some_iff.1 hv
    have hr' := length_of_takeUnit? hv
    have hm' : m.length < r.length := by
      unfold afterMark? at hm
      split at hm
      · split at hm
        · cases hm; simp only [List.length_cons]; omega
        · cases hm
      · cases hm
    dsimp only at h
    split at h
    · simp only [Option.some.injEq, Prod.mk.injEq] at h
      obtain ⟨_, rfl⟩ := h
      omega
    · cases h
  · simp only [Option.some.injEq, Prod.mk.injEq] at h
    obtain ⟨_, rfl⟩ := h
    exact hr

theorem length_of_next? {cs rest : List Char} {c : Char} (h : next? cs = some (c, rest)) :
    rest.length < cs.length := by
  unfold next? at h
  split at h
  · cases h
  split at h
  · split at h
    · cases h
    split at h
    · have := length_of_takeUnicode? h
      simp only [List.length_cons]; omega
    · obtain ⟨_, _, h⟩ := Option.map_eq_some_iff.1 h
      cases h; simp only [List.length_cons]; omega
  split at h
  · cases h
  · cases h; simp

/-- The text of a literal whose opening quote has been read, and what follows the closing one. -/
def decode (cs : List Char) : Option (List Char × List Char) :=
  if cs.head? = some '"' then some ([], cs.tail)
  else
    match h : next? cs with
    | none => none
    | some (c, rest) =>
      have := length_of_next? h
      (decode rest).map fun (s, rest) => (c :: s, rest)
termination_by cs.length

theorem length_of_decode {cs s rest : List Char} (h : decode cs = some (s, rest)) :
    rest.length < cs.length := by
  fun_induction decode cs generalizing s rest with
  | case1 cs hq =>
    cases h
    cases cs with
    | nil => simp at hq
    | cons => simp
  | case2 => cases h
  | case3 cs _ c r hn hlt ih =>
    obtain ⟨⟨s', r'⟩, hd, he⟩ := Option.map_eq_some_iff.1 h
    cases he
    exact Nat.lt_trans (ih hd) hlt

end BuildBoard.Literal
