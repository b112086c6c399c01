/-
# Postgres numeric values

`numeric` holds the finite decimals and `NaN`, which Postgres orders above every
number and takes to be equal to itself; that is the order and equality of
`WithTop ℚ` with `⊤` for `NaN`, and `NaN` absorbs under addition as `⊤` does.
Values of type `numeric(18,2)` are kept in hundredths.  A value too large for
its column raises in the source, so such a call is never committed and is left
out here.
-/

import Mathlib.Data.Rat.Floor

namespace Finify.Posting

/-- An unconstrained `numeric`, with `⊤` for `NaN`. -/
abbrev Numeric := WithTop ℚ

/-- A `numeric(18,2)` in hundredths, with `⊤` for `NaN`. -/
abbrev Amount := WithTop ℤ

/-- The order of amounts is decided by the one of the integers. -/
instance Amount.linearOrder : LinearOrder Amount := @WithTop.linearOrder ℤ Int.instLinearOrder

instance Amount.preorder : Preorder Amount := Amount.linearOrder.toPartialOrder.toPreorder

/-- Round to the nearest integer, halves away from zero. -/
def roundHalfAway (q : ℚ) : ℤ :=
  if 0 ≤ q then ⌊q + 1 / 2⌋ else ⌈q - 1 / 2⌉

/-- `round(value, 2)`, stored in hundredths. -/
def round2 (value : Numeric) : Amount :=
  value.map fun q => roundHalfAway (q * 100)

/-- The cast of a `money` column, itself in hundredths, to `numeric`. -/
def moneyToNumeric (money : ℤ) : Numeric :=
  ((money / 100 : ℚ) : Numeric)

/-- The cast to `money`, or to a stored balance: `NaN` has no such value and the
cast raises. -/
def Amount.cents? : Amount → Option ℤ
  | ⊤ => none
  | (cents : ℤ) => some cents

@[simp] theorem Amount.cents?_eq_some {amount : Amount} {cents : ℤ} :
    amount.cents? = some cents ↔ amount = cents := by
  induction amount using WithTop.recTopCoe with
  | top => simp [Amount.cents?]
  | coe c => simp [Amount.cents?]

theorem roundHalfAway_intCast (n : ℤ) : roundHalfAway n = n := by
  unfold roundHalfAway
  split
  · rw [Int.floor_intCast_add, Int.floor_eq_zero_iff.mpr (by norm_num), add_zero]
  · rw [sub_eq_add_neg, Int.ceil_intCast_add, Int.ceil_eq_zero_iff.mpr (by norm_num), add_zero]

@[simp] theorem round2_moneyToNumeric (money : ℤ) : round2 (moneyToNumeric money) = money := by
  unfold round2 moneyToNumeric
  rw [WithTop.map_coe, div_mul_cancel₀ _ (by norm_num), roundHalfAway_intCast]

end Finify.Posting
