import BuildBoard.Duration
import BuildBoard.Text.Fields
import BuildBoard.Proofs.Report.NumberText
import Mathlib.Data.List.Basic

/-!
# Durations read back

A duration is written in three fields of digits with colons between them. Filling up to two digits
adds zeros that count for nothing, and no digit is a colon, so the fields are found again and give
the seconds back. What cannot be seen from the text is whether a duration was negative.

The time between two moments is empty for what has not started, and nothing else is: the text of a
duration has its colons.

Results:
1. `digitsValue_paddedDigits`, `isHours_paddedDigits`: the digits of a field.
2. `read?_text`: a duration's text is read as the duration, if that is not negative.
3. `duration_reads_back`: all of it, with the time between two moments.
-/

namespace BuildBoard.Duration

/-! ## Definitions -/

/-- There are only digits here. -/
def IsDigits (cs : List Char) : Prop := ∀ c ∈ cs, c.isDigit

instance (cs : List Char) : Decidable (IsDigits cs) := List.decidableBAll (Char.isDigit · = true) cs

/-- The hours as they are written: at least two digits, and more only where they are needed. -/
def IsHours (cs : List Char) : Prop :=
  IsDigits cs ∧ 2 ≤ cs.length ∧ (2 < cs.length → cs.head? ≠ some '0')

/-- Minutes or seconds as they are written: two digits, up to 59. -/
def IsSixtieth (cs : List Char) : Prop :=
  IsDigits cs ∧ cs.length = 2 ∧ digitsValue cs < 60

instance (cs : List Char) : Decidable (IsHours cs) := inferInstanceAs (Decidable (_ ∧ _ ∧ _))

instance (cs : List Char) : Decidable (IsSixtieth cs) := inferInstanceAs (Decidable (_ ∧ _ ∧ _))

/-- The seconds that three fields stand for. -/
def total (hours minutes seconds : List Char) : Nat :=
  3600 * digitsValue hours + 60 * digitsValue minutes + digitsValue seconds

/-- The seconds that a text stands for, if it is one of a duration. -/
def read? (s : String) : Option Nat :=
  match Fields.split ':' s.toList with
  | [hours, minutes, seconds] =>
    if IsHours hours ∧ IsSixtieth minutes ∧ IsSixtieth seconds then
      some (total hours minutes seconds)
    else none
  | _ => none

/-! ## Fields of digits -/

theorem isDigits_paddedDigits (width n : Nat) : IsDigits (paddedDigits width n) := by
  intro c h
  rcases List.mem_append.mp h with hzero | hdigit
  · rw [List.eq_of_mem_replicate hzero]
    rfl
  · exact isDigit_of_mem_decimalDigits hdigit

theorem digitsValue_paddedDigits (width n : Nat) : digitsValue (paddedDigits width n) = n := by
  show Nat.ofDigitChars 10 (List.replicate _ '0' ++ decimalDigits n) 0 = n
  rw [Nat.ofDigitChars_append, Nat.ofDigitChars_replicate_zero, Nat.mul_zero]
  exact digitsValue_decimalDigits n

theorem length_paddedDigits (width n : Nat) :
    (paddedDigits width n).length = max width (decimalDigits n).length := by
  rw [paddedDigits, List.length_append, List.length_replicate]
  omega

theorem length_decimalDigits_le_iff (n : Nat) : (decimalDigits n).length ≤ 2 ↔ n < 100 :=
  Nat.length_toDigits_le_iff (by decide) (by decide)

/-- The digits of a number do not begin with a zero. -/
theorem head?_decimalDigits {n : Nat} (h : 0 < n) : (decimalDigits n).head? ≠ some '0' := by
  induction n using Nat.strongRecOn with
  | ind n ih =>
    rw [decimalDigits, Nat.toDigits_eq_if (by decide)]
    split
    · simp only [List.head?_cons, ne_eq, Option.some.injEq, Nat.digitChar_eq_zero]
      exact Nat.ne_of_gt h
    · next hge =>
      rw [List.head?_append_of_ne_nil _ Nat.toDigits_ne_nil]
      exact ih (n / 10) (Nat.div_lt_self h (by decide)) (Nat.div_pos (Nat.not_lt.mp hge) (by decide))

theorem isHours_paddedDigits (n : Nat) : IsHours (paddedDigits 2 n) := by
  refine ⟨isDigits_paddedDigits 2 n, ?_, fun hlong => ?_⟩
  · rw [length_paddedDigits]
    exact Nat.le_max_left _ _
  · -- with three digits there is nothing to fill up
    rw [length_paddedDigits] at hlong
    have hdigits : 2 < (decimalDigits n).length := by omega
    have hn : 0 < n := by
      have := mt (length_decimalDigits_le_iff n).mpr (Nat.not_le.mpr hdigits)
      omega
    have hfill : 2 - (decimalDigits n).length = 0 := by omega
    rw [paddedDigits, hfill, List.replicate_zero, List.nil_append]
    exact head?_decimalDigits hn

theorem isSixtieth_paddedDigits {n : Nat} (h : n < 60) : IsSixtieth (paddedDigits 2 n) := by
  refine ⟨isDigits_paddedDigits 2 n, ?_, ?_⟩
  · have hdigits := (length_decimalDigits_le_iff n).mpr (by omega)
    rw [length_paddedDigits]
    omega
  · rw [digitsValue_paddedDigits]
    exact h

/-! ## The text of a duration -/

/-- The three fields of a duration's text. -/
theorem exists_fields (n : Int) : ∃ hours minutes seconds,
    text n = String.ofList (hours ++ ':' :: (minutes ++ ':' :: seconds)) ∧ IsHours hours ∧
      IsSixtieth minutes ∧ IsSixtieth seconds ∧ total hours minutes seconds = n.toNat := by
  refine ⟨paddedDigits 2 (n.toNat / 3600), paddedDigits 2 (n.toNat % 3600 / 60),
    paddedDigits 2 (n.toNat % 60), ?_, isHours_paddedDigits _, isSixtieth_paddedDigits (by omega),
    isSixtieth_paddedDigits (by omega), ?_⟩
  · rw [text, List.append_assoc]
    rfl
  · rw [total, digitsValue_paddedDigits, digitsValue_paddedDigits, digitsValue_paddedDigits]
    omega

theorem read?_of_fields {hours minutes seconds : List Char} (hhours : IsHours hours)
    (hminutes : IsSixtieth minutes) (hseconds : IsSixtieth seconds) :
    read? (String.ofList (hours ++ ':' :: (minutes ++ ':' :: seconds))) =
      some (total hours minutes seconds) := by
  have hcolon {field : List Char} (h : IsDigits field) : ':' ∉ field :=
    fun hmem => absurd (h _ hmem) (by decide)
  rw [read?, String.toList_ofList, Fields.split_append_sep (hcolon hhours.1),
    Fields.split_append_sep (hcolon hminutes.1), Fields.split_of_notMem (hcolon hseconds.1)]
  exact if_pos ⟨hhours, hminutes, hseconds⟩

theorem read?_text (n : Int) : read? (text n) = some n.toNat := by
  obtain ⟨hours, minutes, seconds, htext, hhours, hminutes, hseconds, htotal⟩ := exists_fields n
  rw [htext, read?_of_fields hhours hminutes hseconds, htotal]

theorem text_ne_empty (n : Int) : text n ≠ "" := by
  intro hempty
  have hread := read?_text n
  rw [hempty] at hread
  cases hread

/-! ## The time between two moments -/

theorem between_of_ne_zero {start : Int} (h : start ≠ 0) (stop : Option Int) :
    between (some start) stop =
      text (match stop with | some stop => word (stop - start) | none => start) :=
  if_neg h

theorem between_eq_empty_iff (start stop : Option Int) :
    between start stop = "" ↔ start = none ∨ start = some 0 := by
  cases start with
  | none => exact iff_of_true rfl (.inl rfl)
  | some start =>
    by_cases h : start = 0
    · subst h
      exact iff_of_true rfl (.inr rfl)
    · rw [between_of_ne_zero h]
      exact iff_of_false (text_ne_empty _) (by simp [h])

/-- The text of a duration can be read: it has hours, minutes and seconds as they are written, which
together are the duration, or nothing if that is negative. So no two durations have one text. The
time between two moments is empty exactly where nothing has started, and else is read as the time
from one to the other, or as the first where there is no other. -/
theorem duration_reads_back :
    (∀ n : Int, ∃ hours minutes seconds : List Char,
      text? (some n) = String.ofList (hours ++ ':' :: (minutes ++ ':' :: seconds)) ∧
      IsHours hours ∧ IsSixtieth minutes ∧ IsSixtieth seconds ∧
      (total hours minutes seconds : Int) = max n 0) ∧
    (∀ m n : Int, 0 ≤ m → 0 ≤ n → text? (some m) = text? (some n) → m = n) ∧
    ∀ start stop : Option Int, (∀ a ∈ start, ∀ b ∈ stop, FitsWord (b - a)) →
      (between start stop = "" ↔ start = none ∨ start = some 0) ∧
      ∀ a, start = some a → a ≠ 0 →
        (read? (between start stop)).map (fun n : Nat => (n : Int)) =
          some (match stop with | some b => max 0 (b - a) | none => max 0 a) := by
  refine ⟨fun n => ?_, fun m n hm hn hsame => ?_, fun start stop hfits => ?_⟩
  · obtain ⟨hours, minutes, seconds, htext, hhours, hminutes, hseconds, htotal⟩ := exists_fields n
    refine ⟨hours, minutes, seconds, htext, hhours, hminutes, hseconds, ?_⟩
    rw [htotal]
    exact Int.toNat_eq_max n
  · have hread : some m.toNat = some n.toNat := by
      rw [← read?_text, ← read?_text]
      exact congrArg read? hsame
    have htoNat := Option.some.inj hread
    omega
  · refine ⟨between_eq_empty_iff start stop, ?_⟩
    rintro a rfl hne
    rw [between_of_ne_zero hne, read?_text, Option.map_some]
    cases stop with
    | none => exact congrArg some (by dsimp only; omega)
    | some b =>
      have hword : word (b - a) = b - a := (word_eq_self_iff _).mpr (hfits a rfl b rfl)
      exact congrArg some (by dsimp only; rw [hword]; omega)

/-- A time of more than a hundred hours, between moments on both sides of zero. -/
theorem long_duration_reads_back :
    let start : Int := -5
    let stop : Int := 399995
    FitsWord (stop - start) ∧ between (some start) (some stop) = "111:06:40" ∧
      between (some start) (some stop) ≠ "" ∧
      (read? (between (some start) (some stop))).map (fun n : Nat => (n : Int)) = some 400000 ∧
      ∀ m : Int, 0 ≤ m → text? (some m) = "111:06:40" → m = 400000 := by
  intro start stop
  obtain ⟨-, hinjective, hbetween⟩ := duration_reads_back
  have hfits : FitsWord (stop - start) := by decide
  obtain ⟨hempty, hread⟩ := hbetween (some start) (some stop) (by rintro _ ⟨⟩ _ ⟨⟩; exact hfits)
  have htext : text? (some 400000) = "111:06:40" := by decide +kernel
  refine ⟨hfits, by decide +kernel, mt hempty.mp (by decide), hread start rfl (by decide), ?_⟩
  exact fun m hm hsame => hinjective m 400000 hm (by decide) (hsame.trans htext.symm)

end BuildBoard.Duration
