import BuildBoard.Number.Checked
import BuildBoard.Number.LeadingInt
import Mathlib.Data.List.Basic

/-!
# The integer that a text begins with

A counter or a time may be any text at all. It is read as the longest run of digits after white
space and one sign, where a word holds their number, and else as no number. The number is looked at
before the sign is put to it, so a word holds the result as well, and the least word is never read.

The reading can be done on the bytes of the text: the first byte tells the sign, and the text is cut
behind it and where the digits end. In UTF-8 a byte below 128 is a character by itself. Signs and
digits are such characters, so no cut goes through one, whatever the text goes on with.

Results:
1. `leadingMagnitude?_eq`, `leadingInt?_of_signed`: digits, and the sign before them.
2. `leadingInt?_eq_some_iff`, `leadingInt?_eq_none_iff`: the integer by the parts of the text.
3. `cut_append`, `firstByte?_eq_iff`, `digitsEnd_append`: bytes and characters.
4. `readBytes_eq`: the reading by bytes never breaks off, and reads the same.
5. `leading_integer`: all of it.
-/

namespace BuildBoard.LeadingInt

/-! ## Definitions -/

/-- The number that digits denote: a digit counts ten times as much as the one after it, and the
last one counts ones. -/
def decimalValue : List Char → Nat
  | [] => 0
  | c :: digits => (c.toNat - '0'.toNat) * Nat.pow 10 digits.length + decimalValue digits

/-- The characters are a sign, a run of digits that does not go on, and a rest. -/
structure Parts (cs : List Char) (sign : Sign) (digits rest : List Char) : Prop where
  text : cs = sign.chars ++ (digits ++ rest)
  nonempty : digits ≠ []
  digit : ∀ c ∈ digits, c.isDigit
  maximal : ∀ c ∈ rest.head?, ¬ c.isDigit

instance (cs : List Char) (sign : Sign) (digits rest : List Char) :
    Decidable (Parts cs sign digits rest) :=
  decidable_of_iff (cs = sign.chars ++ (digits ++ rest) ∧ digits ≠ [] ∧
      digits.all Char.isDigit ∧ rest.head?.all fun c => !c.isDigit) <| by
    have hhead : (rest.head?.all fun c => !c.isDigit) ↔ ∀ c ∈ rest.head?, ¬ c.isDigit := by
      cases rest <;> simp
    rw [List.all_eq_true, hhead]
    exact ⟨fun ⟨htext, hnonempty, hdigit, hmaximal⟩ => ⟨htext, hnonempty, hdigit, hmaximal⟩,
      fun h => ⟨h.text, h.nonempty, h.digit, h.maximal⟩⟩

/-! ## A reading by bytes -/

/-- Why a reading by bytes breaks off: a cut that is not between characters, or a product that no
word holds. -/
inductive ByteFault where
  | insideCharacter
  | beyondWord
deriving DecidableEq

/-- The parts of a text before a byte and from it on, which has to be the first of a character or
that behind the last one. -/
def cut (s : String) (i : Nat) : Except ByteFault (String × String) :=
  match s.pos? ⟨i⟩ with
  | some p => .ok ((s.sliceTo p).copy, (s.sliceFrom p).copy)
  | none => .error .insideCharacter

def firstByte? (s : String) : Option UInt8 := s.toUTF8.data.toList.head?

/-- How many bytes stand before the first character that is no digit. -/
def digitsEnd : List Char → Nat
  | [] => 0
  | c :: cs => if c.isDigit then c.utf8Size + digitsEnd cs else 0

/-- The product of two words, which has to be one. -/
def product (m n : Int) : Except ByteFault Int :=
  if FitsWord (m * n) then .ok (m * n) else .error .beyondWord

/-- The digits at the beginning, as a word, times a factor. -/
def readDigits (factor : Int) (s : String) : Except ByteFault (Option Int) := do
  let stop := digitsEnd s.toList
  if stop = 0 then return none
  else
    let (digits, _) ← cut s stop
    let n : Int := decimalValue digits.toList
    if n ≤ int64Max then
      let signed ← product factor n
      return some signed
    else return none

/-- The integer that a text begins with, by its bytes. -/
def readBytes (s : String) : Except ByteFault (Option Int) := do
  let text := String.ofList (s.toList.dropWhile isBlank)
  let first := firstByte? text
  if first = some '-'.toUInt8 then
    let (_, digits) ← cut text 1
    readDigits (-1) digits
  else if first = some '+'.toUInt8 then
    let (_, digits) ← cut text 1
    readDigits 1 digits
  else readDigits 1 text

/-! ## Digits -/

variable {cs digits rest : List Char} {sign : Sign}

/-- What is read so far moves by one place for every digit that follows. -/
theorem foldl_digits (n : Nat) (digits : List Char) :
    digits.foldl (fun n c => 10 * n + (c.toNat - '0'.toNat)) n =
      n * Nat.pow 10 digits.length + decimalValue digits := by
  induction digits generalizing n with
  | nil => exact (Nat.mul_one n).symm
  | cons c digits ih =>
    have hpow : Nat.pow 10 (c :: digits).length = 10 * Nat.pow 10 digits.length :=
      Nat.mul_comm _ _
    rw [List.foldl_cons, ih, hpow, decimalValue, Nat.add_mul, Nat.mul_comm 10 n, Nat.mul_assoc,
      Nat.add_assoc]

theorem digitsValue_eq (digits : List Char) : digitsValue digits = decimalValue digits := by
  rw [digitsValue, foldl_digits, Nat.zero_mul, Nat.zero_add]

/-- Every text is a run of digits, perhaps none, and a rest that begins with no digit. -/
theorem exists_digits (cs : List Char) : ∃ digits rest, cs = digits ++ rest ∧
    (∀ c ∈ digits, c.isDigit) ∧ ∀ c ∈ rest.head?, ¬ c.isDigit := by
  refine ⟨cs.takeWhile Char.isDigit, cs.dropWhile Char.isDigit,
    List.takeWhile_append_dropWhile.symm, fun c hc => ?_, fun c hc => ?_⟩
  · exact List.all_eq_true.mp List.all_takeWhile c hc
  · have hhead := List.head?_dropWhile_not Char.isDigit cs
    rw [Option.mem_def.mp hc] at hhead
    exact Bool.eq_false_iff.mp hhead

theorem leadingMagnitude?_eq (hdigits : ∀ c ∈ digits, c.isDigit)
    (hrest : ∀ c ∈ rest.head?, ¬ c.isDigit) : leadingMagnitude? (digits ++ rest) =
      if digits ≠ [] ∧ (decimalValue digits : Int) ≤ int64Max then some (decimalValue digits)
      else none := by
  have hword : decimalValue digits < Nat.pow 2 63 ↔ (decimalValue digits : Int) ≤ int64Max := by
    have hpow : Nat.pow 2 63 = 9223372036854775808 := by decide
    rw [hpow, int64Max]
    omega
  rw [leadingMagnitude?_append hdigits hrest, digitsValue_eq, if_congr hword rfl rfl]
  by_cases hnil : digits = []
  · rw [if_pos hnil, if_neg fun h => h.1 hnil]
  · rw [if_neg hnil]
    exact if_congr (and_iff_right hnil).symm rfl rfl

/-! ## The sign -/

/-- No digit is a sign, so the digits begin behind the only one. -/
theorem Parts.signed (h : Parts cs sign digits rest) : Signed cs sign (digits ++ rest) := by
  refine ⟨h.text, fun _ c hc => ?_⟩
  rw [List.head?_append_of_ne_nil _ h.nonempty] at hc
  exact ne_sign_of_isDigit (h.digit c (List.mem_of_mem_head? hc))

theorem leadingInt?_eq_some_iff (s : String) (v : Int) : leadingInt? s = some v ↔
    ∃ sign digits rest, Parts (s.toList.dropWhile isBlank) sign digits rest ∧
      (decimalValue digits : Int) ≤ int64Max ∧ v = sign.factor * decimalValue digits := by
  constructor
  · intro h
    obtain ⟨sign, cs, hsigned⟩ := exists_signed (s.toList.dropWhile isBlank)
    obtain ⟨digits, rest, rfl, hdigits, hrest⟩ := exists_digits cs
    rw [leadingInt?_of_signed hsigned, leadingMagnitude?_eq hdigits hrest] at h
    split at h
    · next hread =>
      refine ⟨sign, digits, rest, ⟨hsigned.text, hread.1, hdigits, hrest⟩, hread.2, ?_⟩
      exact (Option.some.inj h).symm
    · cases h
  · rintro ⟨sign, digits, rest, hparts, hfits, rfl⟩
    rw [leadingInt?_of_signed hparts.signed, leadingMagnitude?_eq hparts.digit hparts.maximal,
      if_pos ⟨hparts.nonempty, hfits⟩]
    rfl

theorem leadingInt?_eq_none_iff (s : String) : leadingInt? s = none ↔
    ∀ sign digits rest, Parts (s.toList.dropWhile isBlank) sign digits rest →
      int64Max < decimalValue digits := by
  constructor
  · intro hnone sign digits rest hparts
    by_contra hle
    have hsome := (leadingInt?_eq_some_iff s _).mpr
      ⟨sign, digits, rest, hparts, Int.not_lt.mp hle, rfl⟩
    cases hnone.symm.trans hsome
  · intro hlarge
    refine Option.eq_none_iff_forall_ne_some.mpr fun v hsome => ?_
    obtain ⟨sign, digits, rest, hparts, hfits, -⟩ := (leadingInt?_eq_some_iff s v).mp hsome
    exact Int.not_lt.mpr hfits (hlarge sign digits rest hparts)

/-! ## Bytes and characters -/

/-- A text that is put together is cut where its parts meet. -/
theorem cut_append (a b : String) : cut (a ++ b) a.utf8ByteSize = .ok (a, b) := by
  have hvalid : String.Pos.Raw.IsValid (a ++ b) ⟨a.utf8ByteSize⟩ :=
    String.Pos.Raw.isValid_iff_exists_append.mpr ⟨a, b, rfl, rfl⟩
  have hpos : (a ++ b).pos? ⟨a.utf8ByteSize⟩ = some ((a ++ b).pos _ hvalid) := by
    have hslice := String.Pos.Raw.isValidForSlice_eq_true_iff.mpr hvalid.toSlice
    rw [String.pos?, String.Slice.pos?, dif_pos hslice]
    rfl
  have hparts : ((a ++ b).pos _ hvalid).Splits a b := ⟨rfl, rfl⟩
  rw [cut, hpos]
  exact congrArg Except.ok
    (Prod.ext ((String.Pos.splits _).eq_left hparts) ((String.Pos.splits _).eq_right hparts))

example : cut "é1" 2 = .ok ("é", "1") ∧ cut "é1" 1 = .error .insideCharacter := by decide +kernel

/-- Behind a character of one byte a text is cut at byte 1. -/
theorem cut_ofList_cons {c : Char} (hc : c.utf8Size = 1) (cs : List Char) :
    cut (String.ofList (c :: cs)) 1 = .ok (String.singleton c, String.ofList cs) := by
  rw [String.ofList_cons, ← hc, ← String.utf8ByteSize_singleton, cut_append]

/-- The first byte of a character below 128 is that character, and of any other 128 or more. -/
theorem exists_utf8EncodeChar (c : Char) : ∃ b bytes, String.utf8EncodeChar c = b :: bytes ∧
    (b.toNat = c.toNat ∨ 128 ≤ b.toNat ∧ 128 ≤ c.toNat) := by
  have hval : c.toNat = c.val.toNat := rfl
  fun_cases String.utf8EncodeChar c with
  | case1 v h => exact ⟨_, _, rfl, .inl (by simp; omega)⟩
  | case2 v h h' => exact ⟨_, _, rfl, .inr ⟨by simp; omega, by omega⟩⟩
  | case3 v h h' => exact ⟨_, _, rfl, .inr ⟨by simp; omega, by omega⟩⟩
  | case4 v h h' => exact ⟨_, _, rfl, .inr ⟨by simp; omega, by omega⟩⟩

theorem firstByte?_ofList_cons (c : Char) (cs : List Char) :
    firstByte? (String.ofList (c :: cs)) = (String.utf8EncodeChar c).head? := by
  rw [firstByte?, String.toUTF8_eq_toByteArray, String.toByteArray_ofList, List.utf8Encode_cons,
    ByteArray.data_append, Array.toList_append, List.utf8Encode_singleton,
    List.toList_data_toByteArray, List.head?_append_of_ne_nil _ String.utf8EncodeChar_ne_nil]

/-- The first byte of a text tells whether it begins with a given character below 128. -/
theorem firstByte?_eq_iff {a : Char} (ha : a.toNat < 128) (c : Char) (cs : List Char) :
    firstByte? (String.ofList (c :: cs)) = some a.toUInt8 ↔ c = a := by
  have hbyte : a.toUInt8.toNat = a.toNat := by
    show a.toNat % 2 ^ 8 = a.toNat
    omega
  obtain ⟨b, bytes, hbytes, hb⟩ := exists_utf8EncodeChar c
  rw [firstByte?_ofList_cons, hbytes, List.head?_cons, Option.some.injEq, ← UInt8.toNat_inj, hbyte,
    ← Char.toNat_inj]
  omega

theorem digitsEnd_append (hdigits : ∀ c ∈ digits, c.isDigit)
    (hrest : ∀ c ∈ rest.head?, ¬ c.isDigit) :
    digitsEnd (digits ++ rest) = (String.ofList digits).utf8ByteSize := by
  induction digits with
  | nil =>
    cases rest with
    | nil => rfl
    | cons c rest => exact if_neg (hrest c rfl)
  | cons c digits ih =>
    obtain ⟨hc, hdigits⟩ := List.forall_mem_cons.mp hdigits
    rw [List.cons_append, digitsEnd, if_pos hc, ih hdigits, String.ofList_cons,
      String.utf8ByteSize_append, String.utf8ByteSize_singleton]

/-! ## The reading by bytes goes through -/

/-- What a word holds without its sign, it holds with it. -/
theorem product_factor (sign : Sign) {n : Nat} (h : (n : Int) ≤ int64Max) :
    product sign.factor n = .ok (sign.factor * n) := by
  refine if_pos ?_
  unfold FitsWord int64Min
  unfold int64Max at *
  cases sign <;> simp only [Sign.factor] <;> omega

example : product Sign.minus.factor int64Min = .error .beyondWord := by decide

theorem readDigits_ofList (sign : Sign) (cs : List Char) :
    readDigits sign.factor (String.ofList cs) =
      .ok ((leadingMagnitude? cs).map fun n : Nat => sign.factor * (n : Int)) := by
  obtain ⟨digits, rest, rfl, hdigits, hrest⟩ := exists_digits cs
  rw [readDigits, String.toList_ofList, digitsEnd_append hdigits hrest,
    leadingMagnitude?_eq hdigits hrest]
  by_cases hnil : digits = []
  · subst hnil
    rfl
  · have hstop : (String.ofList digits).utf8ByteSize ≠ 0 := by
      simpa using hnil
    rw [if_neg hstop, String.ofList_append, cut_append]
    show (if (decimalValue (String.ofList digits).toList : Int) ≤ int64Max then _ else _) = _
    rw [String.toList_ofList]
    by_cases hfits : (decimalValue digits : Int) ≤ int64Max
    · rw [if_pos hfits, if_pos ⟨hnil, hfits⟩, product_factor sign hfits]
      rfl
    · rw [if_neg hfits, if_neg fun h => hfits h.2]
      rfl

theorem readBytes_of_signed {s : String} (h : Signed (s.toList.dropWhile isBlank) sign rest) :
    readBytes s = readDigits sign.factor (String.ofList rest) := by
  rw [readBytes, h.text]
  cases sign with
  | absent =>
    -- a first character of several bytes is no sign by its first byte either
    have hfirst (a : Char) (ha : a.toNat < 128) (hne : ∀ c ∈ rest.head?, c ≠ a) :
        firstByte? (String.ofList rest) ≠ some a.toUInt8 := by
      cases rest with
      | nil => exact nofun
      | cons c rest => exact mt (firstByte?_eq_iff ha c rest).mp (hne c rfl)
    have hminus := hfirst '-' (by decide) fun c hc => (h.unsigned rfl c hc).1
    have hplus := hfirst '+' (by decide) fun c hc => (h.unsigned rfl c hc).2
    exact (if_neg hminus).trans (if_neg hplus)
  | plus =>
    have hminus := mt (firstByte?_eq_iff (by decide : '-'.toNat < 128) '+' rest).mp (by decide)
    have hplus := (firstByte?_eq_iff (by decide : '+'.toNat < 128) '+' rest).mpr rfl
    refine (if_neg hminus).trans ((if_pos hplus).trans ?_)
    show (cut (String.ofList ('+' :: rest)) 1 >>= _) = _
    rw [cut_ofList_cons (by decide)]
    rfl
  | minus =>
    have hminus := (firstByte?_eq_iff (by decide : '-'.toNat < 128) '-' rest).mpr rfl
    refine (if_pos hminus).trans ?_
    show (cut (String.ofList ('-' :: rest)) 1 >>= _) = _
    rw [cut_ofList_cons (by decide)]
    rfl

/-- The reading by bytes goes through, and reads what the text is read as. -/
theorem readBytes_eq (s : String) : readBytes s = .ok (leadingInt? s) := by
  obtain ⟨sign, rest, hsigned⟩ := exists_signed (s.toList.dropWhile isBlank)
  rw [readBytes_of_signed hsigned, readDigits_ofList, leadingInt?_of_signed hsigned]

/-! ## The integer of a text -/

/-- A text is read as the integer that it begins with: behind white space one sign may stand, and
then stand the digits, as far as they go. Without digits, or where no word holds their number, it is
read as none. The reading by bytes gives the same, so it cuts the text between characters only, and
what it multiplies is a word. -/
theorem leading_integer (s : String) :
    (∀ v : Int, leadingInt? s = some v ↔
      ∃ sign digits rest, Parts (s.toList.dropWhile isBlank) sign digits rest ∧
        (decimalValue digits : Int) ≤ int64Max ∧ v = sign.factor * decimalValue digits) ∧
    (leadingInt? s = none ↔
      ∀ sign digits rest, Parts (s.toList.dropWhile isBlank) sign digits rest →
        int64Max < decimalValue digits) ∧
    readBytes s = .ok (leadingInt? s) :=
  ⟨leadingInt?_eq_some_iff s, leadingInt?_eq_none_iff s, readBytes_eq s⟩

/-- Zeros count for nothing, and a letter of two bytes ends the digits. No word holds the number of
the second text, though one would with its sign. -/
theorem integers_before_letters :
    let s := "\u3000-0042é7"
    let least := "-9223372036854775808é"
    leadingInt? s = some (-42) ∧ readBytes s = .ok (some (-42)) ∧
      leadingInt? least = none ∧ readBytes least = .ok none ∧
      int64Max < decimalValue "9223372036854775808".toList := by
  intro s least
  obtain ⟨hread, -, hbytes⟩ := leading_integer s
  obtain ⟨-, hnone, hbytes'⟩ := leading_integer least
  have hparts : Parts (s.toList.dropWhile isBlank) .minus ['0', '0', '4', '2'] ['é', '7'] := by
    decide +kernel
  have hvalue : leadingInt? s = some (-42) :=
    (hread (-42)).mpr ⟨_, _, _, hparts, by decide, by decide⟩
  have hparts' :
      Parts (least.toList.dropWhile isBlank) .minus "9223372036854775808".toList ['é'] := by
    decide +kernel
  have hnovalue : leadingInt? least = none := by decide +kernel
  exact ⟨hvalue, hvalue ▸ hbytes, hnovalue, hnovalue ▸ hbytes', hnone.mp hnovalue _ _ _ hparts'⟩

end BuildBoard.LeadingInt
