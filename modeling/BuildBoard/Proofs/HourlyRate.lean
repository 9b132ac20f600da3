import BuildBoard.Number.Checked
import BuildBoard.Rate.Hourly
import BuildBoard.Proofs.Number.Rounding

/-!
# The hourly rate and the exact one

The packages of an hour are calculated in two quotients, each of which is rounded, and the result is
rounded up. Both errors together are far smaller than the distance of a rate that is not whole from
the next whole one: such a rate is rounded up to what it should be. A whole rate, however, may come
out a little too great, and is then rounded up to the next one.

Results:
1. `abs_calculated_sub_le`: the rate before it is rounded up is off by at most `2 ^ -51` of it.
2. `perHour_eq`: the rate that is shown.
3. `hourly_rate`: it is the exact ceiling, but for whole rates that come out too great, which are
   shown one too great; no rate over a multiple of 225 seconds is among them.
4. `whole_rate_exceeded`: one that is.
-/

namespace BuildBoard.Rate

open Binary64

/-! ## Definitions -/

/-- The packages of an hour. -/
def exactRate (pkgs secs : Int) : ℚ := (pkgs * 3600 : Int) / secs

/-- The time in hours as it is calculated. -/
def hours (secs : Int) : Binary64 := (ofInt secs).div (ofInt 3600)

/-- The packages of an hour as they are calculated, before they are rounded up. -/
def calculatedRate (pkgs secs : Int) : Binary64 := (ofInt pkgs).div (hours secs)

/-- The greatest number of packages, and of seconds, that is considered. -/
def maxFigure : Int := 2147483648

/-- So many packages in so many seconds are considered; packages may have become fewer. -/
structure Moderate (pkgs secs : Int) : Prop where
  least : -maxFigure ≤ pkgs
  most : pkgs ≤ maxFigure
  elapsed : 0 < secs
  longest : secs ≤ maxFigure

/-! ## The rounding errors -/

variable {pkgs secs : Int}

theorem value_3600 : (ofInt 3600).value = 3600 := value_ofInt (by decide)

theorem value_ofInt_pkgs (h : Moderate pkgs secs) : (ofInt pkgs).value = pkgs := by
  obtain ⟨hleast, hmost, -, -⟩ := h
  unfold maxFigure at hleast hmost
  exact value_ofInt (by omega)

theorem value_ofInt_secs (h : Moderate pkgs secs) : (ofInt secs).value = secs := by
  obtain ⟨-, -, helapsed, hlongest⟩ := h
  unfold maxFigure at hlongest
  exact value_ofInt (by omega)

theorem secs_cast_pos (h : Moderate pkgs secs) : (0 : ℚ) < secs := by exact_mod_cast h.elapsed

theorem one_le_secs_cast (h : Moderate pkgs secs) : (1 : ℚ) ≤ secs := by exact_mod_cast h.elapsed

theorem abs_hours_sub_le (h : Moderate pkgs secs) :
    |(hours secs).value - (secs : ℚ) / 3600| ≤ (2 : ℚ) ^ (-53 : Int) * ((secs : ℚ) / 3600) := by
  have hsecs := secs_cast_pos h
  have habs : |(secs : ℚ) / 3600| = (secs : ℚ) / 3600 := abs_of_pos (by positivity)
  have hrounded := abs_value_div_sub_le (x := ofInt secs) (y := ofInt 3600)
    (by rw [value_3600]; norm_num)
    (.inr (normal_of_le (by
      rw [value_ofInt_secs h, value_3600, habs, le_div_iff₀ (by norm_num)]
      refine le_trans ?_ (one_le_secs_cast h)
      norm_num)))
  rwa [value_ofInt_secs h, value_3600, habs] at hrounded

theorem hours_bounds (h : Moderate pkgs secs) :
    0 < (hours secs).value ∧ (hours secs).value ≤ (2 : ℚ) ^ (22 : Int) := by
  have hclose := abs_le.mp (abs_hours_sub_le h)
  have hleast := secs_cast_pos h
  have hlongest : (secs : ℚ) ≤ 2147483648 := by exact_mod_cast h.longest
  norm_num at hclose ⊢
  constructor <;> linarith [hclose.1, hclose.2]

/-- A quotient changes by about as much of it as its denominator does. -/
theorem abs_quotient_sub_le {p s h u : ℚ} (hs : 0 < s) (hu : u ≤ 1 / 2) (hh : |h - s| ≤ u * s) :
    |p / h - p / s| ≤ 2 * u * |p / s| := by
  have hclose := abs_le.mp hh
  have hhalf : s / 2 ≤ h := by
    have hus : u * s ≤ 1 / 2 * s := by gcongr
    linarith [hclose.1]
  have hpos : 0 < h := by linarith
  have hupos : 0 ≤ u := nonneg_of_mul_nonneg_left (le_trans (abs_nonneg _) hh) hs
  have hdiff : p / h - p / s = p / s * ((s - h) / h) := by
    field_simp
  rw [hdiff, abs_mul, mul_comm]
  gcongr
  rw [abs_div, abs_of_pos hpos, div_le_iff₀ hpos, abs_sub_comm]
  calc |h - s| ≤ u * s := hh
    _ ≤ u * (2 * h) := by
      gcongr
      linarith
    _ = 2 * u * h := by ring

theorem abs_calculated_sub_le (h : Moderate pkgs secs) :
    |(calculatedRate pkgs secs).value - exactRate pkgs secs| ≤
      (2 : ℚ) ^ (-51 : Int) * |exactRate pkgs secs| := by
  have hpkgs := value_ofInt_pkgs h
  have hsecs := secs_cast_pos h
  have hexact : exactRate pkgs secs = pkgs / ((secs : ℚ) / 3600) := by
    unfold exactRate
    push_cast
    field_simp
  obtain ⟨hhours₀, hhours₁⟩ := hours_bounds h
  have hnormal : (ofInt pkgs).value / (hours secs).value = 0 ∨
      (2 : ℚ) ^ (-1000 : Int) ≤ |(ofInt pkgs).value / (hours secs).value| := by
    rw [hpkgs]
    obtain rfl | hne := eq_or_ne pkgs 0
    · exact .inl (by rw [Int.cast_zero, zero_div])
    · have hone : (1 : ℚ) ≤ |(pkgs : ℚ)| := by exact_mod_cast Int.one_le_abs hne
      refine .inr (normal_of_le ?_)
      rw [abs_div, abs_of_pos hhours₀, le_div_iff₀ hhours₀]
      calc (2 : ℚ) ^ (-100 : Int) * (hours secs).value
          ≤ (2 : ℚ) ^ (-100 : Int) * (2 : ℚ) ^ (22 : Int) := by gcongr
        _ ≤ 1 := by norm_num
        _ ≤ |(pkgs : ℚ)| := hone
  have hquotient : |(pkgs : ℚ) / (hours secs).value - pkgs / (secs / 3600)| ≤
      2 * (2 : ℚ) ^ (-53 : Int) * |pkgs / ((secs : ℚ) / 3600)| :=
    abs_quotient_sub_le (by positivity) (by norm_num) (abs_hours_sub_le h)
  have hrounded : |(calculatedRate pkgs secs).value - pkgs / (hours secs).value| ≤
      (2 : ℚ) ^ (-53 : Int) * |pkgs / (hours secs).value| :=
    hpkgs ▸ abs_value_div_sub_le hhours₀.ne' hnormal
  have hsum := abs_sub_le (calculatedRate pkgs secs).value ((pkgs : ℚ) / (hours secs).value)
    (pkgs / (secs / 3600))
  have hsize := abs_sub_abs_le_abs_sub ((pkgs : ℚ) / (hours secs).value) (pkgs / (secs / 3600))
  have hpositive := abs_nonneg ((pkgs : ℚ) / (secs / 3600))
  rw [hexact]
  norm_num at hquotient hrounded ⊢
  linarith

/-! ## Rounding up -/

theorem saturate_of_fits {n : Int} (h : FitsWord n) : saturate n = n := by
  obtain ⟨hmin, hmax⟩ := h
  rw [saturate, min_eq_right hmax, max_eq_right hmin]

theorem abs_exact_le (h : Moderate pkgs secs) :
    |exactRate pkgs secs| ≤ 2147483648 * 3600 / (secs : ℚ) := by
  have hpkgs : |pkgs * 3600| ≤ 2147483648 * 3600 := by
    obtain ⟨hleast, hmost, -, -⟩ := h
    unfold maxFigure at hleast hmost
    rw [abs_le]
    omega
  have hsecs := secs_cast_pos h
  rw [exactRate, abs_div, abs_of_pos hsecs]
  gcongr
  exact_mod_cast hpkgs

theorem abs_exact_le_of_second (h : Moderate pkgs secs) :
    |exactRate pkgs secs| ≤ 2147483648 * 3600 :=
  (abs_exact_le h).trans (div_le_self (by norm_num) (one_le_secs_cast h))

/-- The exact rate is off any other whole number by at least one part in the seconds. -/
theorem one_div_le_abs_sub (h : Moderate pkgs secs) {n : Int} (hne : exactRate pkgs secs ≠ n) :
    1 / (secs : ℚ) ≤ |exactRate pkgs secs - n| := by
  have hsecs := secs_cast_pos h
  have hint : pkgs * 3600 - n * secs ≠ 0 := by
    intro hzero
    refine hne ?_
    rw [exactRate, div_eq_iff hsecs.ne', sub_eq_zero.mp hzero, Int.cast_mul]
  have hone : (1 : ℚ) ≤ |((pkgs * 3600 - n * secs : Int) : ℚ)| := by
    exact_mod_cast Int.one_le_abs hint
  have hdiff : exactRate pkgs secs - n = ((pkgs * 3600 - n * secs : Int) : ℚ) / secs := by
    rw [exactRate, Int.cast_sub, Int.cast_mul n, sub_div, mul_div_cancel_right₀ _ hsecs.ne']
  rw [hdiff, abs_div, abs_of_pos hsecs]
  gcongr

/-- The errors are smaller than that. -/
theorem abs_calculated_sub_lt (h : Moderate pkgs secs) :
    |(calculatedRate pkgs secs).value - exactRate pkgs secs| < 1 / (secs : ℚ) := by
  have hsecs := secs_cast_pos h
  calc |(calculatedRate pkgs secs).value - exactRate pkgs secs|
      ≤ (2 : ℚ) ^ (-51 : Int) * |exactRate pkgs secs| := abs_calculated_sub_le h
    _ ≤ (2 : ℚ) ^ (-51 : Int) * (2147483648 * 3600 / secs) := by
      gcongr
      exact abs_exact_le h
    _ = (2 : ℚ) ^ (-51 : Int) * (2147483648 * 3600) / secs := (mul_div_assoc _ _ _).symm
    _ < 1 / secs := by
      gcongr
      norm_num

theorem abs_calculated_sub_lt_one (h : Moderate pkgs secs) :
    |(calculatedRate pkgs secs).value - exactRate pkgs secs| < 1 :=
  (abs_calculated_sub_lt h).trans_le
    (div_le_one_of_le₀ (one_le_secs_cast h) (secs_cast_pos h).le)

/-- An hourly rate fits a word. -/
theorem ceil_calculated_fits (h : Moderate pkgs secs) :
    FitsWord ⌈(calculatedRate pkgs secs).value⌉ := by
  have hexact := abs_le.mp (abs_exact_le_of_second h)
  have herror := abs_lt.mp (abs_calculated_sub_lt_one h)
  unfold FitsWord int64Min int64Max
  constructor
  · refine Int.le_of_sub_one_lt (Int.lt_ceil.mpr ?_)
    push_cast
    linarith
  · rw [Int.ceil_le]
    push_cast
    linarith

theorem perHour_eq (h : Moderate pkgs secs) :
    perHour pkgs secs = some ⌈(calculatedRate pkgs secs).value⌉ := by
  have hpkgs : word pkgs = pkgs := by
    obtain ⟨hleast, hmost, -, -⟩ := h
    unfold maxFigure at hleast hmost
    rw [word_eq_self_iff, FitsWord, int64Min, int64Max]
    omega
  have hsecs : word secs = secs := by
    obtain ⟨-, -, helapsed, hlongest⟩ := h
    unfold maxFigure at hlongest
    rw [word_eq_self_iff, FitsWord, int64Min, int64Max]
    omega
  have helapsed := h.elapsed
  unfold perHour
  simp only [hpkgs, hsecs]
  rw [if_neg (by omega), ceil_eq]
  exact congrArg some (saturate_of_fits (ceil_calculated_fits h))

theorem perHour_of_nonpos (pkgs : Int) (hfits : FitsWord secs) (hsecs : secs ≤ 0) :
    perHour pkgs secs = none := by
  unfold perHour
  simp only [(word_eq_self_iff secs).mpr hfits]
  exact if_pos hsecs

theorem dvd_iff_whole (h : Moderate pkgs secs) :
    secs ∣ pkgs * 3600 ↔ ∃ n : Int, exactRate pkgs secs = n := by
  have hsecs := secs_cast_pos h
  refine exists_congr fun n => ?_
  rw [exactRate, div_eq_iff hsecs.ne', mul_comm secs]
  exact_mod_cast Iff.rfl

/-- What is not whole is rounded up to where it should be, with the errors as without them. -/
theorem ceil_calculated_of_not_whole (h : Moderate pkgs secs)
    (hne : ∀ n : Int, exactRate pkgs secs ≠ n) :
    ⌈(calculatedRate pkgs secs).value⌉ = ⌈exactRate pkgs secs⌉ := by
  have herror := abs_lt.mp (abs_calculated_sub_lt h)
  have hbelow := one_div_le_abs_sub h (hne (⌈exactRate pkgs secs⌉ - 1))
  have habove := one_div_le_abs_sub h (hne ⌈exactRate pkgs secs⌉)
  have hceil := Int.le_ceil (exactRate pkgs secs)
  have hceil' := Int.ceil_lt_add_one (exactRate pkgs secs)
  push_cast at hbelow
  rw [abs_of_nonneg (by linarith)] at hbelow
  rw [abs_of_nonpos (by linarith)] at habove
  rw [Int.ceil_eq_iff]
  constructor <;> linarith [herror.1, herror.2]

/-- A whole rate is rounded up to the next one if the errors make it greater. -/
theorem ceil_calculated_of_whole (h : Moderate pkgs secs) {n : Int}
    (hwhole : exactRate pkgs secs = n) :
    ⌈(calculatedRate pkgs secs).value⌉ =
      n + if exactRate pkgs secs < (calculatedRate pkgs secs).value then 1 else 0 := by
  have herror := abs_lt.mp (abs_calculated_sub_lt_one h)
  rw [hwhole] at herror ⊢
  rw [Int.ceil_eq_iff]
  split
  · next hgreater =>
    push_cast
    constructor <;> linarith [herror.1, herror.2]
  · next hle =>
    push_cast
    constructor <;> linarith [herror.1, herror.2, not_lt.mp hle]

/-- A time that is a multiple of 225 seconds is an exact number of hours. -/
theorem value_hours_of_dvd (h : Moderate pkgs secs) (hdvd : 225 ∣ secs) :
    (hours secs).value = (secs : ℚ) / 3600 := by
  obtain ⟨k, rfl⟩ := hdvd
  have hk : 0 < k := by
    have := h.elapsed
    omega
  have hbits : k.natAbs < 2 ^ 53 := by
    have := h.longest
    unfold maxFigure at this
    omega
  have hquotient : (ofInt (225 * k)).value / (ofInt 3600).value = ((225 * k : Int) : ℚ) / 3600 := by
    rw [value_ofInt_secs h, value_3600]
  rw [← hquotient]
  refine value_div_of_multiple (by rw [value_3600]; norm_num) hbits (j := -4) (by norm_num) ?_
  have hcast : (0 : ℚ) < k := by exact_mod_cast hk
  rw [hquotient, abs_of_pos (by push_cast; positivity), Nat.cast_natAbs, Int.cast_abs,
    abs_of_pos hcast]
  push_cast
  norm_num
  ring

/-- A whole rate over such a time comes out exactly. -/
theorem value_calculated_of_dvd (h : Moderate pkgs secs) (hdvd : 225 ∣ secs) {n : Int}
    (hwhole : exactRate pkgs secs = n) : (calculatedRate pkgs secs).value = exactRate pkgs secs := by
  have hsecs := secs_cast_pos h
  have hquotient : (ofInt pkgs).value / (hours secs).value = exactRate pkgs secs := by
    rw [value_ofInt_pkgs h, value_hours_of_dvd h hdvd, exactRate]
    push_cast
    field_simp
  have hbits : n.natAbs < 2 ^ 53 := by
    have hexact := abs_exact_le_of_second h
    rw [hwhole] at hexact
    have hcast : |n| ≤ 2147483648 * 3600 := by exact_mod_cast hexact
    rw [Int.abs_eq_natAbs] at hcast
    omega
  rw [← hquotient]
  refine value_div_of_multiple (hours_bounds h).1.ne' hbits (j := 0) (by norm_num) ?_
  rw [hquotient, hwhole, zpow_zero, mul_one, Nat.cast_natAbs, Int.cast_abs]

/-- There is no rate over a time that is not positive. Every other rate is the exact ceiling, unless
it is whole and comes out too great; then it is one more. -/
theorem hourly_rate (pkgs secs : Int) :
    (FitsWord secs → secs ≤ 0 → perHour pkgs secs = none) ∧
    (Moderate pkgs secs →
      perHour pkgs secs = some (⌈exactRate pkgs secs⌉ +
        if secs ∣ pkgs * 3600 ∧ exactRate pkgs secs < (calculatedRate pkgs secs).value then 1
        else 0) ∧
      (225 ∣ secs → perHour pkgs secs = some ⌈exactRate pkgs secs⌉)) := by
  refine ⟨perHour_of_nonpos pkgs, fun h => ?_⟩
  rw [perHour_eq h]
  by_cases hwhole : secs ∣ pkgs * 3600
  · obtain ⟨n, hn⟩ := (dvd_iff_whole h).mp hwhole
    have hceil : ⌈exactRate pkgs secs⌉ = n := by rw [hn, Int.ceil_intCast]
    refine ⟨?_, fun hdvd => ?_⟩
    · simp only [ceil_calculated_of_whole h hn, hceil, hwhole, true_and]
    · rw [value_calculated_of_dvd h hdvd hn]
  · have hne := not_exists.mp (mt (dvd_iff_whole h).mpr hwhole)
    rw [ceil_calculated_of_not_whole h hne, if_neg fun hand => hwhole hand.1, add_zero]
    exact ⟨rfl, fun _ => rfl⟩

/-- A package in seven seconds, and thirteen in four times 225 seconds. -/
theorem packages_of_seven_seconds :
    FitsWord 0 ∧ perHour 13 0 = none ∧ Moderate 1 7 ∧ perHour 1 7 = some 515 ∧
      Moderate 13 900 ∧ 225 ∣ (900 : Int) ∧ perHour 13 900 = some 52 := by
  have hnothing : FitsWord 0 := by decide
  have hseven : Moderate 1 7 := by constructor <;> decide
  have hquarter : Moderate 13 900 := by constructor <;> decide
  have hdvd : (225 : Int) ∣ 900 := by decide
  refine ⟨hnothing, (hourly_rate 13 0).1 hnothing (Int.le_refl 0), hseven, ?_, hquarter, hdvd, ?_⟩
  · rw [((hourly_rate 1 7).2 hseven).1, if_neg fun hand => absurd hand.1 (by decide), exactRate]
    norm_num
  · rw [((hourly_rate 13 900).2 hquarter).2 hdvd, exactRate]
    norm_num

/-- Eleven packages in 165 seconds are 240 an hour, and 241 are shown. -/
theorem whole_rate_exceeded :
    ¬ ∀ pkgs secs : Int, Moderate pkgs secs → perHour pkgs secs = some ⌈exactRate pkgs secs⌉ := by
  intro hall
  have hshown : perHour 11 165 = some 241 := by decide +kernel
  have hexact : exactRate 11 165 = (240 : Int) := by
    unfold exactRate
    norm_num
  have hclaimed := hall 11 165 (by constructor <;> decide)
  rw [hshown, hexact, Int.ceil_intCast] at hclaimed
  exact absurd hclaimed (by decide)

end BuildBoard.Rate
