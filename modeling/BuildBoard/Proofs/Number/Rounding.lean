import BuildBoard.Number.Binary64
import Mathlib.Algebra.Order.Field.Power
import Mathlib.Data.Nat.Cast.Order.Field
import Mathlib.Data.Rat.Floor
import Mathlib.Tactic.FieldSimp
import Mathlib.Tactic.Linarith
import Mathlib.Tactic.NormNum
import Mathlib.Tactic.Positivity
import Mathlib.Tactic.Ring

/-!
# How exact a rounded quotient is

A number stands for the rational `± mantissa * 2 ^ exponent`. An operation rounds its exact result
to 53 bits, so that what it gives is off by at most `2 ^ -53` of the result, unless that is smaller
than any number with 53 bits. A result that is a multiple of a power of two with few enough bits is
not rounded at all.

Results:
1. `abs_nearestEven_sub_le`: a rounded quotient is off by at most a half.
2. `magnitude_ofRatio`: a quotient of naturals is rounded in units of its last place.
3. `abs_magnitude_ofRatio_sub_le`: by how much it is changed.
4. `magnitude_ofRatio_of_multiple`: when it is not changed.
5. `abs_value_mul_sub_le`, `abs_value_div_sub_le`: the same for products and quotients of numbers.
6. `value_ofInt_bounds`, `value_mul_bounds`, `value_div_bounds`: the bounds of positive results.
7. `ceil_eq`, `round_le`: the integers that a number is rounded to.
-/

namespace BuildBoard

/-! ## Rounded quotients -/

/-- The quotient and the rest as fractions of the denominator. -/
theorem div_add_mod_cast (num : Nat) {den : Nat} (hden : 0 < den) :
    (num : ℚ) / den = (num / den : Nat) + ((num % den : Nat) : ℚ) / den := by
  have hden' : (den : ℚ) ≠ 0 := by exact_mod_cast hden.ne'
  have hnum : (num : ℚ) = den * (num / den : Nat) + (num % den : Nat) := by
    exact_mod_cast (Nat.div_add_mod num den).symm
  rw [eq_comm, ← sub_eq_zero]
  field_simp
  linarith

theorem abs_nearestEven_sub_le (num : Nat) {den : Nat} (hden : 0 < den) :
    |(nearestEven num den : ℚ) - (num : ℚ) / den| ≤ 1 / 2 := by
  have hpos : (0 : ℚ) < den := by exact_mod_cast hden
  have hrest : ((num % den : Nat) : ℚ) < den := by exact_mod_cast Nat.mod_lt num hden
  have hrest' : (0 : ℚ) ≤ ((num % den : Nat) : ℚ) := Nat.cast_nonneg _
  rw [div_add_mod_cast num hden, abs_le]
  unfold nearestEven
  dsimp only
  split
  · next hdown =>
    have hhalf : 2 * (num % den) ≤ den := by
      simp only [Bool.or_eq_true, decide_eq_true_eq, Bool.and_eq_true, beq_iff_eq] at hdown
      omega
    have hhalf' : 2 * ((num % den : Nat) : ℚ) ≤ den := by exact_mod_cast hhalf
    have hle : ((num % den : Nat) : ℚ) / den ≤ 1 / 2 := by
      rw [div_le_iff₀ hpos]
      linarith
    have hge : 0 ≤ ((num % den : Nat) : ℚ) / den := by positivity
    constructor <;> linarith
  · next hup =>
    have hhalf : den ≤ 2 * (num % den) := by
      simp only [Bool.or_eq_true, decide_eq_true_eq, not_or] at hup
      omega
    have hhalf' : (den : ℚ) ≤ 2 * ((num % den : Nat) : ℚ) := by exact_mod_cast hhalf
    have hge : 1 / 2 ≤ ((num % den : Nat) : ℚ) / den := by
      rw [le_div_iff₀ hpos]
      linarith
    have hle : ((num % den : Nat) : ℚ) / den ≤ 1 := by
      rw [div_le_one hpos]
      exact hrest.le
    push_cast
    constructor <;> linarith

theorem nearestEven_mul_left (k : Nat) {den : Nat} (hden : 0 < den) :
    nearestEven (k * den) den = k := by
  unfold nearestEven
  simp only [Nat.mul_div_cancel k hden, Nat.mul_mod_left, Nat.mul_zero, hden, decide_true,
    Bool.true_or, if_true]

namespace Binary64

/-! ## The number that is meant -/

/-- The magnitude as a rational. -/
def magnitude (x : Binary64) : ℚ := x.mantissa * (2 : ℚ) ^ x.exponent

/-- A magnitude with a sign on it. -/
def signed (negative : Bool) (q : ℚ) : ℚ := if negative then -q else q

/-- The number as a rational. -/
def value (x : Binary64) : ℚ := signed x.negative x.magnitude

variable {x y : Binary64}

theorem abs_signed (negative : Bool) (q : ℚ) : |signed negative q| = |q| := by
  cases negative
  · rfl
  · exact abs_neg q

theorem signed_sub (negative : Bool) (p q : ℚ) :
    signed negative p - signed negative q = signed negative (p - q) := by
  cases negative
  · rfl
  · exact (neg_sub_neg p q).trans (neg_sub p q).symm

theorem signed_mul (a b : Bool) (p q : ℚ) :
    signed a p * signed b q = signed (a != b) (p * q) := by
  cases a <;> cases b <;> simp [signed]

theorem signed_div (a b : Bool) (p q : ℚ) :
    signed a p / signed b q = signed (a != b) (p / q) := by
  cases a <;> cases b <;> simp [signed, neg_div, div_neg]

theorem two_pow_toNat_div (e : Int) :
    ((Nat.pow 2 e.toNat : Nat) : ℚ) / ((Nat.pow 2 (-e).toNat : Nat) : ℚ) = (2 : ℚ) ^ e := by
  have hcast (n : Nat) : ((Nat.pow 2 n : Nat) : ℚ) = (2 : ℚ) ^ (n : Int) := by
    rw [Nat.pow_eq, Nat.cast_pow, Nat.cast_ofNat, zpow_natCast]
  rw [hcast, hcast, ← zpow_sub₀ (by norm_num)]
  congr 1
  omega

theorem den_pos (x : Binary64) : 0 < x.den := Nat.pos_of_ne_zero (by
  rw [den, Nat.pow_eq]
  exact (Nat.two_pow_pos _).ne')

theorem num_div_den (x : Binary64) : (x.num : ℚ) / x.den = x.magnitude := by
  rw [num, den, magnitude, Nat.cast_mul, mul_div_assoc, two_pow_toNat_div]

theorem signedNum_div_den (x : Binary64) : (x.signedNum : ℚ) / x.den = x.value := by
  unfold signedNum value signed
  split
  · rw [Int.cast_neg, Int.cast_natCast, neg_div, num_div_den]
  · rw [Int.cast_natCast, num_div_den]

/-! ## Scaling -/

theorem scaled_den_pos (num : Nat) {den : Nat} (hden : 0 < den) (e : Int) :
    0 < (scaled num den e).2 := by
  unfold scaled
  split
  · rw [Nat.pow_eq]
    positivity
  · exact hden

theorem scaled_quotient (num den : Nat) (e : Int) :
    ((scaled num den e).1 : ℚ) / (scaled num den e).2 = (num : ℚ) / den / (2 : ℚ) ^ e := by
  rw [← two_pow_toNat_div e]
  unfold scaled
  split
  · next he =>
    have hzero : (-e).toNat = 0 := by omega
    rw [hzero, Nat.pow_eq, Nat.pow_eq, pow_zero, Nat.cast_one, div_one, Nat.cast_mul, div_div]
  · next he =>
    have hzero : e.toNat = 0 := by omega
    rw [hzero, Nat.pow_eq, Nat.pow_eq, pow_zero, Nat.cast_one, Nat.cast_mul, one_div, div_inv_eq_mul,
      div_mul_eq_mul_div]

/-- A positive natural lies between two powers of two. -/
theorem log2_bounds {n : Nat} (hn : 0 < n) :
    (2 : ℚ) ^ (n.log2 : Int) ≤ n ∧ (n : ℚ) < (2 : ℚ) ^ ((n.log2 : Int) + 1) := by
  constructor
  · rw [zpow_natCast]
    exact_mod_cast Nat.log2_self_le hn.ne'
  · rw [← Nat.cast_succ, zpow_natCast]
    exact_mod_cast Nat.lt_log2_self

/-- The exponent at which a quotient is rounded, where it is not too small. -/
theorem exponentOf_spec {num den : Nat} (hnum : 0 < num) (hden : 0 < den)
    (hnormal : (2 : ℚ) ^ (-1000 : Int) ≤ (num : ℚ) / den) :
    (2 : ℚ) ^ (exponentOf num den + 52) ≤ (num : ℚ) / den ∧
      (num : ℚ) / den < (2 : ℚ) ^ (exponentOf num den + 53) := by
  obtain ⟨hnum₁, hnum₂⟩ := log2_bounds hnum
  obtain ⟨hden₁, hden₂⟩ := log2_bounds hden
  have hden' : (0 : ℚ) < den := by exact_mod_cast hden
  have two_ne : (2 : ℚ) ≠ 0 := by norm_num
  have hupper : (num : ℚ) / den < (2 : ℚ) ^ ((num.log2 : Int) - den.log2 + 1) := by
    rw [div_lt_iff₀ hden']
    calc (num : ℚ) < (2 : ℚ) ^ ((num.log2 : Int) + 1) := hnum₂
      _ = (2 : ℚ) ^ ((num.log2 : Int) - den.log2 + 1) * (2 : ℚ) ^ (den.log2 : Int) := by
        rw [← zpow_add₀ two_ne]
        congr 1
        omega
      _ ≤ (2 : ℚ) ^ ((num.log2 : Int) - den.log2 + 1) * den := by gcongr
  have hlower : (2 : ℚ) ^ ((num.log2 : Int) - den.log2 - 1) < (num : ℚ) / den := by
    rw [lt_div_iff₀ hden']
    calc (2 : ℚ) ^ ((num.log2 : Int) - den.log2 - 1) * den
        < (2 : ℚ) ^ ((num.log2 : Int) - den.log2 - 1) * (2 : ℚ) ^ ((den.log2 : Int) + 1) := by
          gcongr
      _ = (2 : ℚ) ^ (num.log2 : Int) := by
        rw [← zpow_add₀ two_ne]
        congr 1
        omega
      _ ≤ num := hnum₁
  -- the greater of the two exponents is right if the mantissa has 53 bits with it
  have hsplit : ((scaled num den ((num.log2 : Int) - den.log2 - 52)).1 <
      (scaled num den ((num.log2 : Int) - den.log2 - 52)).2 * Nat.pow 2 52) ↔
      (num : ℚ) / den < (2 : ℚ) ^ ((num.log2 : Int) - den.log2) := by
    have hpos : (0 : ℚ) < (scaled num den ((num.log2 : Int) - den.log2 - 52)).2 := by
      exact_mod_cast scaled_den_pos num hden _
    rw [← Nat.cast_lt (α := ℚ), Nat.cast_mul, mul_comm, ← div_lt_iff₀ hpos, scaled_quotient,
      div_lt_iff₀ (by positivity), Nat.pow_eq, Nat.cast_pow, Nat.cast_ofNat, ← zpow_natCast,
      ← zpow_add₀ two_ne]
    norm_num
  have hmin : -1000 ≤ (num.log2 : Int) - den.log2 := by
    have hlt : (2 : ℚ) ^ (-1000 : Int) < (2 : ℚ) ^ ((num.log2 : Int) - den.log2 + 1) :=
      hnormal.trans_lt hupper
    rw [zpow_lt_zpow_iff_right₀ (by norm_num)] at hlt
    omega
  unfold exponentOf
  dsimp only
  simp only [hsplit]
  unfold minExponent
  split
  · next hlt =>
    rw [max_eq_right (by omega)]
    refine ⟨hlower.le.trans' (le_of_eq ?_), hlt.trans_le (le_of_eq ?_)⟩ <;>
    · congr 1
      omega
  · next hge =>
    rw [max_eq_right (by omega)]
    refine ⟨(not_lt.mp hge).trans' (le_of_eq ?_), hupper.trans_le (le_of_eq ?_)⟩ <;>
    · congr 1
      omega

/-! ## One rounding -/

/-- The scaled quotient is a pair of variables here: taken apart as it stands, it would be calculated
with. -/
theorem ofRatio_of_scaled (negative : Bool) {num den n d : Nat} {e : Int} (hnum : num ≠ 0)
    (he : exponentOf num den = e) (hscaled : scaled num den e = (n, d)) :
    ofRatio negative num den =
      if nearestEven n d = Nat.pow 2 53 then ⟨negative, Nat.pow 2 52, e + 1⟩
      else if nearestEven n d = 0 then zero negative
      else ⟨negative, nearestEven n d, e⟩ := by
  rw [ofRatio, if_neg hnum]
  extract_lets e'
  have he' : e' = e := he
  rw [he', hscaled]

theorem negative_ofRatio (negative : Bool) (num den : Nat) :
    (ofRatio negative num den).negative = negative := by
  by_cases hnum : num = 0
  · rw [ofRatio, if_pos hnum]
    rfl
  · obtain ⟨⟨n, d⟩, hscaled⟩ : ∃ q, scaled num den (exponentOf num den) = q := ⟨_, rfl⟩
    rw [ofRatio_of_scaled negative hnum rfl hscaled]
    split
    · rfl
    · split <;> rfl

theorem magnitude_of_mantissa_eq_zero (h : x.mantissa = 0) : x.magnitude = 0 := by
  rw [magnitude, h, Nat.cast_zero, zero_mul]

theorem magnitude_of_carry (negative : Bool) (e : Int) :
    magnitude ⟨negative, Nat.pow 2 52, e + 1⟩ = ((Nat.pow 2 53 : Nat) : ℚ) * (2 : ℚ) ^ e := by
  have hpow : ((Nat.pow 2 53 : Nat) : ℚ) = ((Nat.pow 2 52 : Nat) : ℚ) * 2 := by norm_num
  rw [hpow, magnitude, zpow_add_one₀ (by norm_num), mul_assoc, mul_comm 2]

/-- The mantissa is the quotient in units of the last place, rounded. -/
theorem magnitude_ofRatio (negative : Bool) {num : Nat} (hnum : 0 < num) (den : Nat) :
    (ofRatio negative num den).magnitude =
      nearestEven (scaled num den (exponentOf num den)).1 (scaled num den (exponentOf num den)).2 *
        (2 : ℚ) ^ exponentOf num den := by
  obtain ⟨⟨n, d⟩, hscaled⟩ : ∃ q, scaled num den (exponentOf num den) = q := ⟨_, rfl⟩
  rw [ofRatio_of_scaled negative hnum.ne' rfl hscaled, hscaled]
  split
  · next hcarry => rw [hcarry, magnitude_of_carry]
  · split
    · next hzero => rw [hzero, magnitude_of_mantissa_eq_zero rfl, Nat.cast_zero, zero_mul]
    · rfl

/-- A quotient that has 53 bits is changed by at most a half of the last one. -/
theorem abs_magnitude_ofRatio_sub_le (negative : Bool) {num den : Nat} (hden : 0 < den)
    (hnormal : num = 0 ∨ (2 : ℚ) ^ (-1000 : Int) ≤ (num : ℚ) / den) :
    |(ofRatio negative num den).magnitude - (num : ℚ) / den| ≤
      (2 : ℚ) ^ (-53 : Int) * ((num : ℚ) / den) := by
  obtain rfl | hnum := Nat.eq_zero_or_pos num
  · have hzero : ofRatio negative 0 den = zero negative := if_pos rfl
    rw [hzero, magnitude_of_mantissa_eq_zero rfl, Nat.cast_zero, zero_div, sub_zero, abs_zero,
      mul_zero]
  replace hnormal := hnormal.resolve_left hnum.ne'
  obtain ⟨hlast, -⟩ := exponentOf_spec hnum hden hnormal
  have hunit : (0 : ℚ) < (2 : ℚ) ^ exponentOf num den := by positivity
  have hround := abs_nearestEven_sub_le (scaled num den (exponentOf num den)).1
    (scaled_den_pos num hden (exponentOf num den))
  rw [scaled_quotient] at hround
  have hsub : (ofRatio negative num den).magnitude - (num : ℚ) / den =
      (nearestEven (scaled num den (exponentOf num den)).1
        (scaled num den (exponentOf num den)).2 -
          (num : ℚ) / den / (2 : ℚ) ^ exponentOf num den) * (2 : ℚ) ^ exponentOf num den := by
    rw [magnitude_ofRatio negative hnum, sub_mul, div_mul_cancel₀ _ hunit.ne']
  calc |(ofRatio negative num den).magnitude - (num : ℚ) / den|
      ≤ 1 / 2 * (2 : ℚ) ^ exponentOf num den := by
        rw [hsub, abs_mul, abs_of_pos hunit]
        gcongr
    _ = (2 : ℚ) ^ (-53 : Int) * (2 : ℚ) ^ (exponentOf num den + 52) := by
      rw [← zpow_add₀ (by norm_num), show -53 + (exponentOf num den + 52) =
        exponentOf num den - 1 by omega, zpow_sub_one₀ (by norm_num)]
      ring
    _ ≤ (2 : ℚ) ^ (-53 : Int) * ((num : ℚ) / den) := by gcongr

/-- A quotient that has no more than 53 bits is not changed. -/
theorem magnitude_ofRatio_of_multiple (negative : Bool) {num den : Nat} (hden : 0 < den)
    {k : Nat} {j : Int} (hk : k < 2 ^ 53) (hj : -1000 ≤ j)
    (hquotient : (num : ℚ) / den = k * (2 : ℚ) ^ j) :
    (ofRatio negative num den).magnitude = (num : ℚ) / den := by
  obtain rfl | hnum := Nat.eq_zero_or_pos num
  · have hzero : ofRatio negative 0 den = zero negative := if_pos rfl
    rw [hzero, magnitude_of_mantissa_eq_zero rfl, Nat.cast_zero, zero_div]
  have two_ne : (2 : ℚ) ≠ 0 := by norm_num
  have hpos : (0 : ℚ) < (num : ℚ) / den := by positivity
  have hkpos : 0 < k := by
    refine Nat.pos_of_ne_zero fun hzero => hpos.ne' ?_
    rw [hquotient, hzero, Nat.cast_zero, zero_mul]
  have hone : (1 : ℚ) ≤ k := by exact_mod_cast hkpos
  have hnormal : (2 : ℚ) ^ (-1000 : Int) ≤ (num : ℚ) / den := by
    calc (2 : ℚ) ^ (-1000 : Int) ≤ (2 : ℚ) ^ j := zpow_le_zpow_right₀ (by norm_num) hj
      _ ≤ k * (2 : ℚ) ^ j := le_mul_of_one_le_left (by positivity) hone
      _ = (num : ℚ) / den := hquotient.symm
  -- the last place of the quotient is no greater than the one that it is a multiple of
  have hlast : exponentOf num den ≤ j := by
    have hlt : (2 : ℚ) ^ (exponentOf num den + 52) < (2 : ℚ) ^ (53 + j) := by
      calc (2 : ℚ) ^ (exponentOf num den + 52) ≤ (num : ℚ) / den :=
            (exponentOf_spec hnum hden hnormal).1
        _ = k * (2 : ℚ) ^ j := hquotient
        _ < (2 : ℚ) ^ (53 : Int) * (2 : ℚ) ^ j := by
          gcongr
          exact_mod_cast hk
        _ = (2 : ℚ) ^ (53 + j) := (zpow_add₀ two_ne _ _).symm
    rw [zpow_lt_zpow_iff_right₀ (by norm_num)] at hlt
    omega
  obtain ⟨i, hi⟩ : ∃ i : Nat, j = i + exponentOf num den :=
    ⟨(j - exponentOf num den).toNat, by omega⟩
  have hd := scaled_den_pos num hden (exponentOf num den)
  have hmultiple : (scaled num den (exponentOf num den)).1 =
      k * 2 ^ i * (scaled num den (exponentOf num den)).2 := by
    have hd' : (0 : ℚ) < (scaled num den (exponentOf num den)).2 := by exact_mod_cast hd
    have hscaled := scaled_quotient num den (exponentOf num den)
    rw [hquotient, hi, zpow_add₀ two_ne, ← mul_assoc, mul_div_cancel_right₀ _ (by positivity),
      div_eq_iff hd'.ne', zpow_natCast] at hscaled
    exact_mod_cast hscaled
  rw [magnitude_ofRatio negative hnum, hmultiple, nearestEven_mul_left _ hd, hquotient, hi,
    zpow_add₀ two_ne, zpow_natCast]
  push_cast
  ring

variable {negative : Bool} {num den : Nat} {v : ℚ}

theorem abs_value_ofRatio_sub_le (hden : 0 < den) (hv : v = signed negative ((num : ℚ) / den))
    (hnormal : v = 0 ∨ (2 : ℚ) ^ (-1000 : Int) ≤ |v|) :
    |(ofRatio negative num den).value - v| ≤ (2 : ℚ) ^ (-53 : Int) * |v| := by
  have hden' : (den : ℚ) ≠ 0 := by exact_mod_cast hden.ne'
  have habs : |v| = (num : ℚ) / den := by
    rw [hv, abs_signed, abs_of_nonneg (by positivity)]
  rw [habs] at hnormal
  rw [habs, value, negative_ofRatio, hv, signed_sub, abs_signed]
  refine abs_magnitude_ofRatio_sub_le negative hden (hnormal.imp_left fun hzero => ?_)
  rw [hzero, abs_zero, eq_comm, div_eq_zero_iff, Nat.cast_eq_zero] at habs
  exact habs.resolve_right hden'

theorem value_ofRatio_of_multiple (hden : 0 < den) (hv : v = signed negative ((num : ℚ) / den))
    {k : Nat} {j : Int} (hk : k < 2 ^ 53) (hj : -1000 ≤ j) (hmultiple : |v| = k * (2 : ℚ) ^ j) :
    (ofRatio negative num den).value = v := by
  have habs : |v| = (num : ℚ) / den := by
    rw [hv, abs_signed, abs_of_nonneg (by positivity)]
  rw [value, negative_ofRatio, hv,
    magnitude_ofRatio_of_multiple negative hden hk hj (habs.symm.trans hmultiple)]

/-- What is not tiny has 53 bits. -/
theorem normal_of_le {q : ℚ} (h : (2 : ℚ) ^ (-100 : Int) ≤ q) : (2 : ℚ) ^ (-1000 : Int) ≤ q :=
  le_trans (zpow_le_zpow_right₀ (by norm_num) (by norm_num)) h

/-! ## Operations -/

/-- An integer is the quotient of itself and one. -/
theorem cast_eq_signed (n : Int) :
    (n : ℚ) = signed (decide (n < 0)) ((n.natAbs : ℚ) / (1 : Nat)) := by
  rw [Nat.cast_one, div_one, Nat.cast_natAbs, Int.cast_abs]
  unfold signed
  split
  · next hneg =>
    rw [abs_of_neg (by exact_mod_cast of_decide_eq_true hneg), neg_neg]
  · next hnonneg =>
    have hle : 0 ≤ n := not_lt.mp (of_decide_eq_false (eq_false_of_ne_true hnonneg))
    rw [abs_of_nonneg (by exact_mod_cast hle)]

theorem abs_value_ofInt_sub_le (n : Int) :
    |(ofInt n).value - n| ≤ (2 : ℚ) ^ (-53 : Int) * |(n : ℚ)| := by
  refine abs_value_ofRatio_sub_le Nat.one_pos (cast_eq_signed n) ?_
  obtain rfl | hn := eq_or_ne n 0
  · exact .inl Int.cast_zero
  · refine .inr (le_trans (zpow_le_one_of_nonpos₀ (by norm_num) (by norm_num)) ?_)
    exact_mod_cast Int.one_le_abs hn

theorem value_ofInt {n : Int} (hn : n.natAbs < 2 ^ 53) : (ofInt n).value = n := by
  refine value_ofRatio_of_multiple Nat.one_pos (cast_eq_signed n) hn (j := 0) (by norm_num) ?_
  rw [zpow_zero, mul_one, Nat.cast_natAbs, Int.cast_abs]

theorem negative_ofInt (n : Int) : (ofInt n).negative = decide (n < 0) := negative_ofRatio _ _ _

theorem negative_mul (x y : Binary64) : (x.mul y).negative = (x.negative != y.negative) :=
  negative_ofRatio _ _ _

theorem negative_div (x y : Binary64) : (x.div y).negative = (x.negative != y.negative) :=
  negative_ofRatio _ _ _

theorem value_mul_eq (x y : Binary64) :
    x.value * y.value = signed (x.negative != y.negative)
      (((x.num * y.num : Nat) : ℚ) / (x.den * y.den : Nat)) := by
  rw [value, value, signed_mul, Nat.cast_mul, Nat.cast_mul, mul_div_mul_comm, num_div_den,
    num_div_den]

theorem value_div_eq (x y : Binary64) :
    x.value / y.value = signed (x.negative != y.negative)
      (((x.num * y.den : Nat) : ℚ) / (x.den * y.num : Nat)) := by
  rw [value, value, signed_div, Nat.cast_mul, Nat.cast_mul, ← num_div_den, ← num_div_den,
    div_div_div_eq]

theorem abs_value_mul_sub_le
    (hnormal : x.value * y.value = 0 ∨ (2 : ℚ) ^ (-1000 : Int) ≤ |x.value * y.value|) :
    |(x.mul y).value - x.value * y.value| ≤ (2 : ℚ) ^ (-53 : Int) * |x.value * y.value| :=
  abs_value_ofRatio_sub_le (Nat.mul_pos x.den_pos y.den_pos) (value_mul_eq x y) hnormal

/-- A number other than zero has a numerator other than zero. -/
theorem num_pos (hy : y.value ≠ 0) : 0 < y.num := by
  refine Nat.pos_of_ne_zero fun hzero => hy ?_
  rw [value, ← num_div_den, hzero, Nat.cast_zero, zero_div, signed, neg_zero, ite_self]

theorem abs_value_div_sub_le (hy : y.value ≠ 0)
    (hnormal : x.value / y.value = 0 ∨ (2 : ℚ) ^ (-1000 : Int) ≤ |x.value / y.value|) :
    |(x.div y).value - x.value / y.value| ≤ (2 : ℚ) ^ (-53 : Int) * |x.value / y.value| :=
  abs_value_ofRatio_sub_le (Nat.mul_pos x.den_pos (num_pos hy)) (value_div_eq x y) hnormal

theorem value_div_of_multiple (hy : y.value ≠ 0) {k : Nat} {j : Int} (hk : k < 2 ^ 53)
    (hj : -1000 ≤ j) (hmultiple : |x.value / y.value| = k * (2 : ℚ) ^ j) :
    (x.div y).value = x.value / y.value :=
  value_ofRatio_of_multiple (Nat.mul_pos x.den_pos (num_pos hy)) (value_div_eq x y) hk hj hmultiple

/-! ## Bounds of positive results -/

theorem bounds_of_abs_sub_le {q u : ℚ} (hq : 0 < q) (h : |v - q| ≤ u * |q|) :
    (1 - u) * q ≤ v ∧ v ≤ (1 + u) * q := by
  rw [abs_of_pos hq] at h
  have hclose := abs_le.mp h
  constructor <;> linarith [hclose.1, hclose.2]

theorem value_ofInt_bounds {n : Int} (hn : 0 < n) :
    (1 - (2 : ℚ) ^ (-53 : Int)) * n ≤ (ofInt n).value ∧
      (ofInt n).value ≤ (1 + (2 : ℚ) ^ (-53 : Int)) * n :=
  bounds_of_abs_sub_le (by exact_mod_cast hn) (abs_value_ofInt_sub_le n)

theorem value_mul_bounds (h : (2 : ℚ) ^ (-100 : Int) ≤ x.value * y.value) :
    (1 - (2 : ℚ) ^ (-53 : Int)) * (x.value * y.value) ≤ (x.mul y).value ∧
      (x.mul y).value ≤ (1 + (2 : ℚ) ^ (-53 : Int)) * (x.value * y.value) := by
  have hpos : 0 < x.value * y.value := h.trans_lt' (by positivity)
  refine bounds_of_abs_sub_le hpos (abs_value_mul_sub_le (.inr (normal_of_le ?_)))
  rwa [abs_of_pos hpos]

theorem value_div_bounds (h : (2 : ℚ) ^ (-100 : Int) ≤ x.value / y.value) :
    (1 - (2 : ℚ) ^ (-53 : Int)) * (x.value / y.value) ≤ (x.div y).value ∧
      (x.div y).value ≤ (1 + (2 : ℚ) ^ (-53 : Int)) * (x.value / y.value) := by
  have hpos : 0 < x.value / y.value := h.trans_lt' (by positivity)
  have hy : y.value ≠ 0 := fun hzero => hpos.ne' (by rw [hzero, div_zero])
  refine bounds_of_abs_sub_le hpos (abs_value_div_sub_le hy (.inr (normal_of_le ?_)))
  rwa [abs_of_pos hpos]

/-! ## Rounding to integers -/

theorem ceil_eq (x : Binary64) : x.ceil = ⌈x.value⌉ := by
  rw [ceil, ← signedNum_div_den, Rat.ceil_intCast_div_natCast]

/-- A number that is not negative is rounded by at most a half. -/
theorem round_le (hx : x.negative = false) : (x.round : ℚ) ≤ x.value + 1 / 2 := by
  have hden : (0 : ℚ) < x.den := by exact_mod_cast x.den_pos
  have hround : x.round = (((2 * x.num + x.den) / (2 * x.den) : Nat) : Int) := by
    unfold round
    rw [hx]
    rfl
  rw [hround, Int.cast_natCast, value, hx]
  calc (((2 * x.num + x.den) / (2 * x.den) : Nat) : ℚ)
      ≤ ((2 * x.num + x.den : Nat) : ℚ) / (2 * x.den : Nat) := Nat.cast_div_le
    _ = (x.num : ℚ) / x.den + 1 / 2 := by
      push_cast
      field_simp
    _ = signed false x.magnitude + 1 / 2 := by rw [num_div_den, signed, if_neg Bool.false_ne_true]

end Binary64

end BuildBoard
