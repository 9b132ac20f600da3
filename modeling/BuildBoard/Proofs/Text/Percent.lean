import BuildBoard.Document.Literal
import BuildBoard.Text.Fields
import BuildBoard.Text.Percent
import Mathlib.Data.List.Basic
import Mathlib.Data.Option.Basic

/-!
# Percent-encoded text read back

Encoded text is made of few characters, and none of them has a meaning of its own in an address: the
letters and digits of ASCII, four marks and the `%`. Read back, `%` and two hexadecimal digits are a
byte and any other character is the bytes of its UTF-8 form. That gives the bytes of the text that was
encoded, whatever characters it has, and so the text.

A path is encoded between its slashes, so encoding and cutting at slashes may change places.

Results:
1. `isEncodedChar_of_mem`: the characters of encoded text.
2. `decode?_encodeChars`: encoded text is read back as the text.
3. `split_encodePath`: the pieces of an encoded path are the encoded pieces of the path.
4. `count_encodePath`, `encodePath_injective`: what follows for whole paths.
-/

namespace BuildBoard.Percent

/-! ## Definitions -/

/-- A character that encoded text may be made of. -/
def IsEncodedChar (c : Char) : Prop := isUnreserved c ∨ c = '%'

instance (c : Char) : Decidable (IsEncodedChar c) := inferInstanceAs (Decidable (_ ∨ _))

/-- A text that needs no encoding. -/
def IsPlain (s : String) : Prop := ∀ c ∈ s.toList, isUnreserved c

instance (s : String) : Decidable (IsPlain s) :=
  List.decidableBAll (isUnreserved · = true) s.toList

/-- The bytes that a text stands for: `%` and two hexadecimal digits are one byte, and any other
character is the bytes of its UTF-8 form. -/
def decodeBytes : List Char → List UInt8
  | [] => []
  | '%' :: a :: b :: rest =>
    match Literal.hexValue? a, Literal.hexValue? b with
    | some high, some low => UInt8.ofNat (16 * high + low) :: decodeBytes rest
    | _, _ => String.utf8EncodeChar '%' ++ decodeBytes (a :: b :: rest)
  | c :: rest => String.utf8EncodeChar c ++ decodeBytes rest

/-- The text that percent-encoded text stands for, if its bytes are the UTF-8 form of one. -/
def decode? (cs : List Char) : Option (List Char) :=
  (decodeBytes cs).toByteArray.utf8Decode?.map Array.toList

/-! ## The characters of encoded text -/

theorem isUnreserved_hexDigit {n : Nat} (h : n < 16) : isUnreserved (hexDigit n) := by
  have hall : ∀ n < 16, isUnreserved (hexDigit n) := by decide
  exact hall n h

theorem isEncodedChar_of_mem_encodeByte {b : UInt8} {c : Char} (h : c ∈ encodeByte b) :
    IsEncodedChar c := by
  have hb := b.toNat_lt
  simp only [encodeByte, List.mem_cons, List.not_mem_nil, or_false] at h
  rcases h with rfl | rfl | rfl
  · exact .inr rfl
  · exact .inl (isUnreserved_hexDigit (by omega))
  · exact .inl (isUnreserved_hexDigit (by omega))

theorem isEncodedChar_of_mem_encodeChar {c d : Char} (h : d ∈ encodeChar c) : IsEncodedChar d := by
  unfold encodeChar at h
  split at h
  · next hc =>
    rw [List.mem_singleton.mp h]
    exact .inl hc
  · obtain ⟨b, -, hb⟩ := List.mem_flatMap.mp h
    exact isEncodedChar_of_mem_encodeByte hb

theorem isEncodedChar_of_mem {cs : List Char} {c : Char} (h : c ∈ encodeChars cs) :
    IsEncodedChar c := by
  obtain ⟨d, -, hd⟩ := List.mem_flatMap.mp h
  exact isEncodedChar_of_mem_encodeChar hd

/-- No other character is found in encoded text. -/
theorem notMem_encodeChars {c : Char} (h : ¬ IsEncodedChar c) (cs : List Char) :
    c ∉ encodeChars cs :=
  fun hc => h (isEncodedChar_of_mem hc)

theorem encodeChars_of_isPlain {s : String} (h : IsPlain s) : encodeChars s.toList = s.toList := by
  have hchar : ∀ c ∈ s.toList, encodeChar c = [c] := fun c hc => if_pos (h c hc)
  rw [encodeChars, List.flatMap_congr hchar, List.flatMap_singleton']

/-! ## Reading back -/

theorem hexValue?_hexDigit {n : Nat} (h : n < 16) : Literal.hexValue? (hexDigit n) = some n := by
  have hall : ∀ n < 16, Literal.hexValue? (hexDigit n) = some n := by decide
  exact hall n h

theorem decodeBytes_encodeByte (b : UInt8) (rest : List Char) :
    decodeBytes (encodeByte b ++ rest) = b :: decodeBytes rest := by
  have hb := b.toNat_lt
  have hhigh := hexValue?_hexDigit (n := b.toNat / 16) (by omega)
  have hlow := hexValue?_hexDigit (n := b.toNat % 16) (by omega)
  show decodeBytes ('%' :: _ :: _ :: rest) = _
  rw [decodeBytes, hhigh, hlow]
  simp only [Nat.div_add_mod, UInt8.ofNat_toNat]

theorem decodeBytes_flatMap_encodeByte (bytes : List UInt8) (rest : List Char) :
    decodeBytes (bytes.flatMap encodeByte ++ rest) = bytes ++ decodeBytes rest := by
  induction bytes with
  | nil => rfl
  | cons b bytes ih =>
    rw [List.flatMap_cons, List.append_assoc, decodeBytes_encodeByte, ih, List.cons_append]

theorem decodeBytes_cons {c : Char} (h : c ≠ '%') (rest : List Char) :
    decodeBytes (c :: rest) = String.utf8EncodeChar c ++ decodeBytes rest := by
  conv_lhs => unfold decodeBytes
  split <;> simp_all

theorem decodeBytes_encodeChar (c : Char) (rest : List Char) :
    decodeBytes (encodeChar c ++ rest) = String.utf8EncodeChar c ++ decodeBytes rest := by
  unfold encodeChar
  split
  · next hc =>
    refine decodeBytes_cons ?_ rest
    rintro rfl
    exact absurd hc (by decide)
  · exact decodeBytes_flatMap_encodeByte _ rest

theorem decodeBytes_encodeChars (cs : List Char) :
    decodeBytes (encodeChars cs) = cs.flatMap String.utf8EncodeChar := by
  induction cs with
  | nil => rfl
  | cons c cs ih =>
    rw [encodeChars, List.flatMap_cons, decodeBytes_encodeChar, ← encodeChars, ih,
      List.flatMap_cons]

theorem decode?_encodeChars (cs : List Char) : decode? (encodeChars cs) = some cs := by
  have hbytes : (decodeBytes (encodeChars cs)).toByteArray = cs.utf8Encode := by
    rw [decodeBytes_encodeChars]
    rfl
  rw [decode?, hbytes, List.utf8Decode?_utf8Encode]
  rfl

/-! ## Paths -/

open Fields (split)

theorem encodePath_append (s t : String) : encodePath (s ++ t) = encodePath s ++ encodePath t := by
  rw [← String.toList_inj]
  simp [encodePath]

/-- Encoding leaves the slashes of a path where they are and makes no others. -/
theorem split_encodePath (path : String) :
    split '/' (encodePath path).toList = (split '/' path.toList).map encodeChars := by
  rw [encodePath, String.toList_ofList]
  induction path.toList with
  | nil => rfl
  | cons c cs ih =>
    rw [List.flatMap_cons]
    by_cases hc : c = '/'
    · rw [if_pos hc, List.singleton_append, split, if_pos rfl, ih, hc, split, if_pos rfl]
      rfl
    · obtain ⟨fields, hfields⟩ := Fields.split_eq_cons '/' cs
      rw [hfields, List.map_cons] at ih
      have hslash : '/' ∉ encodeChar c := fun h =>
        absurd (isEncodedChar_of_mem_encodeChar h) (by decide)
      rw [if_neg hc, Fields.split_append hslash ih, split, if_neg hc, hfields]
      rfl

theorem map_decode?_split_encodePath (path : String) :
    (split '/' (encodePath path).toList).map decode? = (split '/' path.toList).map some := by
  rw [split_encodePath, List.map_map]
  exact List.map_congr_left fun piece _ => decode?_encodeChars piece

theorem isEncodedChar_of_mem_encodePath {path : String} {c : Char}
    (h : c ∈ (encodePath path).toList) : c = '/' ∨ IsEncodedChar c := by
  rw [encodePath, String.toList_ofList] at h
  obtain ⟨d, -, hd⟩ := List.mem_flatMap.mp h
  split at hd
  · exact .inl (List.mem_singleton.mp hd)
  · exact .inr (isEncodedChar_of_mem_encodeChar hd)

theorem count_encodePath (path : String) :
    (encodePath path).toList.count '/' = path.toList.count '/' := by
  have hlength := congrArg List.length (split_encodePath path)
  rw [List.length_map, Fields.length_split, Fields.length_split] at hlength
  exact Nat.succ.inj hlength

theorem encodePath_injective {path path' : String} (h : encodePath path = encodePath path') :
    path = path' := by
  have hpieces : (split '/' path.toList).map some = (split '/' path'.toList).map some := by
    rw [← map_decode?_split_encodePath, ← map_decode?_split_encodePath, h]
  have hsplit := List.map_injective_iff.mpr (Option.some_injective _) hpieces
  rw [← String.toList_inj, ← Fields.join_split '/' path.toList, hsplit, Fields.join_split]

end BuildBoard.Percent
