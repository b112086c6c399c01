/-
# Decimal arithmetic with 30 digits

The pricing services calculate with decimal numbers set to 30 significant digits
and rounding half up, which is away from zero.  Sums, products and quotients are
rounded so; comparisons, minimum and maximum are exact.  Amounts leave the
services as text with two decimals, and are kept here in hundredths.
-/

import Finify.Posting.Numeric
import Mathlib.Data.Int.Log
import Mathlib.Tactic.Positivity

namespace Finify.Pricing

open Finify.Posting

/-! ## Rounding -/

theorem roundHalfAway_mono {first second : ℚ} (hle : first ≤ second) :
    roundHalfAway first ≤ roundHalfAway second := by
  unfold roundHalfAway
  split
  case isTrue hfirst =>
    rw [if_pos (hfirst.trans hle)]
    exact Int.floor_le_floor (by linarith)
  case isFalse hfirst =>
    split
    case isTrue hsecond =>
      have hbelow : ⌈first - 1 / 2⌉ ≤ 0 := Int.ceil_le.mpr (by push_cast; linarith)
      exact hbelow.trans (Int.floor_nonneg.mpr (by linarith))
    case isFalse => exact Int.ceil_le_ceil (by linarith)

theorem roundHalfAway_nonneg {q : ℚ} (hq : 0 ≤ q) : 0 ≤ roundHalfAway q := by
  have hle := roundHalfAway_mono hq
  rwa [show roundHalfAway 0 = 0 from roundHalfAway_intCast 0] at hle

/-- `toDecimalPlaces(2)`, in hundredths. -/
def toCents (x : ℚ) : ℤ :=
  roundHalfAway (x * 100)

theorem toCents_mono {first second : ℚ} (hle : first ≤ second) :
    toCents first ≤ toCents second :=
  roundHalfAway_mono (mul_le_mul_of_nonneg_right hle (by norm_num))

theorem toCents_nonneg {x : ℚ} (hx : 0 ≤ x) : 0 ≤ toCents x :=
  roundHalfAway_nonneg (by positivity)

/-- An amount given in hundredths. -/
def ofCents (cents : ℤ) : ℚ := cents / 100

@[simp] theorem toCents_ofCents (cents : ℤ) : toCents (ofCents cents) = cents := by
  unfold toCents ofCents
  rw [div_mul_cancel₀ _ (by norm_num), roundHalfAway_intCast]

theorem ofCents_add (first second : ℤ) :
    ofCents first + ofCents second = ofCents (first + second) := by
  unfold ofCents
  rw [← add_div, Int.cast_add]

theorem ofCents_sub (first second : ℤ) :
    ofCents first - ofCents second = ofCents (first - second) := by
  unfold ofCents
  rw [← sub_div, Int.cast_sub]

/-! ## Significant digits -/

def lastDigit (x : ℚ) : ℚ :=
  10 ^ (Int.log 10 |x| - 29)

/-- Round to 30 significant digits. -/
def toPrecision (x : ℚ) : ℚ :=
  roundHalfAway (x / lastDigit x) * lastDigit x

theorem lastDigit_pos (x : ℚ) : 0 < lastDigit x :=
  zpow_pos (by norm_num) _

theorem toPrecision_nonneg {x : ℚ} (hx : 0 ≤ x) : 0 ≤ toPrecision x := by
  have hround := roundHalfAway_nonneg (div_nonneg hx (lastDigit_pos x).le)
  exact mul_nonneg (by exact_mod_cast hround) (lastDigit_pos x).le

/-- The last digit of a number of at most 28 digits before the point divides
hundredths. -/
theorem cents_div_lastDigit {x : ℚ} (hx : x ≠ 0) (hsmall : |x| < 10 ^ (28 : ℤ)) (cents : ℤ) :
    ∃ n : ℤ, ofCents cents / lastDigit x = n := by
  have hlog : Int.log 10 |x| < 28 := (Int.lt_zpow_iff_log_lt (by norm_num) (abs_pos.mpr hx)).mp hsmall
  obtain ⟨k, hk⟩ : ∃ k : ℕ, 27 - Int.log 10 |x| = k := Int.eq_ofNat_of_zero_le (by omega)
  refine ⟨cents * 10 ^ k, ?_⟩
  have hexponent : Int.log 10 |x| - 29 = -((k + 2 : ℕ) : ℤ) := by
    push_cast
    omega
  rw [lastDigit, hexponent, zpow_neg, zpow_natCast, div_inv_eq_mul, ofCents, pow_add]
  push_cast
  ring

theorem abs_ofCents_lt {cents : ℤ} (hsmall : |cents| < 10 ^ 30) :
    |ofCents cents| < 10 ^ (28 : ℤ) := by
  have hcast : (|(cents : ℚ)|) < 10 ^ 30 := by exact_mod_cast hsmall
  rw [ofCents, abs_div, show |(100 : ℚ)| = 100 from by norm_num, div_lt_iff₀ (by norm_num)]
  calc |(cents : ℚ)| < 10 ^ 30 := hcast
    _ = 10 ^ (28 : ℤ) * 100 := by norm_num

/-- Hundredths of at most 30 digits are exact. -/
theorem toPrecision_ofCents {cents : ℤ} (hsmall : |cents| < 10 ^ 30) :
    toPrecision (ofCents cents) = ofCents cents := by
  by_cases hzero : ofCents cents = 0
  · rw [toPrecision, hzero, zero_div, show roundHalfAway 0 = 0 from roundHalfAway_intCast 0]
    simp
  · obtain ⟨n, hn⟩ := cents_div_lastDigit hzero (abs_ofCents_lt hsmall) cents
    rw [toPrecision, hn, roundHalfAway_intCast, ← hn,
      div_mul_cancel₀ _ (lastDigit_pos _).ne']

/-- Rounding does not pass a bound that is itself exact. -/
theorem toPrecision_le {x : ℚ} {cents : ℤ} (hx : 0 ≤ x) (hle : x ≤ ofCents cents)
    (hsmall : |cents| < 10 ^ 30) : toPrecision x ≤ ofCents cents := by
  rcases hx.eq_or_lt with rfl | hpos
  · simpa [toPrecision, show roundHalfAway 0 = 0 from roundHalfAway_intCast 0] using hle
  have hxsmall : |x| < 10 ^ (28 : ℤ) := by
    rw [abs_of_pos hpos]
    exact hle.trans_lt ((le_abs_self _).trans_lt (abs_ofCents_lt hsmall))
  obtain ⟨n, hn⟩ := cents_div_lastDigit hpos.ne' hxsmall cents
  have hunit := lastDigit_pos x
  have hround : roundHalfAway (x / lastDigit x) ≤ n := by
    rw [← roundHalfAway_intCast n, ← hn]
    exact roundHalfAway_mono (div_le_div_of_nonneg_right hle hunit.le)
  calc toPrecision x ≤ n * lastDigit x :=
        mul_le_mul_of_nonneg_right (by exact_mod_cast hround) hunit.le
    _ = ofCents cents := by rw [← hn, div_mul_cancel₀ _ hunit.ne']

/-! ## Arithmetic -/

/-- `plus`. -/
def plus (first second : ℚ) : ℚ := toPrecision (first + second)

/-- `minus`. -/
def minus (first second : ℚ) : ℚ := toPrecision (first - second)

/-- A sum of hundredths is exact. -/
theorem toCents_plus {first second : ℤ} (hsmall : |first + second| < 10 ^ 30) :
    toCents (plus (ofCents first) (ofCents second)) = first + second := by
  rw [plus, ofCents_add, toPrecision_ofCents hsmall, toCents_ofCents]

/-- A difference of hundredths is exact. -/
theorem toCents_minus {first second : ℤ} (hsmall : |first - second| < 10 ^ 30) :
    toCents (minus (ofCents first) (ofCents second)) = first - second := by
  rw [minus, ofCents_sub, toPrecision_ofCents hsmall, toCents_ofCents]

/-- `times`. -/
def times (first second : ℚ) : ℚ := toPrecision (first * second)

/-- `dividedBy`. -/
def dividedBy (first second : ℚ) : ℚ := toPrecision (first / second)

end Finify.Pricing
