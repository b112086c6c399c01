/-
# Amounts of credit

Numbers of the service are exact rationals, or none where they are not finite; amounts in the
tables have two decimals.
-/

import Finify.Posting.Numeric

namespace Finify.Credit

open Finify.Posting (roundHalfAway roundHalfAway_intCast)

/-- A value in a `numeric` column with so many decimals. -/
def toScale (decimals : ℕ) (value : ℚ) : ℚ :=
  roundHalfAway (value * 10 ^ decimals) / 10 ^ decimals

/-- `money`. -/
def money : Option ℚ → ℚ
  | some value => ⌊max 0 value * 100 + 1 / 2⌋ / 100
  | none => 0

/-- An amount with two decimals. -/
def IsCents (amount : ℚ) : Prop := ∃ cents : ℤ, amount = cents / 100

variable {first second amount cents : ℚ}

theorem roundHalfAway_of_nonneg (hnonneg : 0 ≤ amount) : roundHalfAway amount = ⌊amount + 1 / 2⌋ :=
  if_pos hnonneg

theorem roundHalfAway_mono (hle : first ≤ second) : roundHalfAway first ≤ roundHalfAway second := by
  unfold roundHalfAway
  by_cases hfirst : 0 ≤ first
  · rw [if_pos hfirst, if_pos (hfirst.trans hle)]
    exact Int.floor_le_floor (by linarith)
  · rw [if_neg hfirst]
    by_cases hsecond : 0 ≤ second
    · rw [if_pos hsecond]
      calc ⌈first - 1 / 2⌉ ≤ 0 := Int.ceil_le.mpr (by push_cast; linarith)
        _ ≤ ⌊second + 1 / 2⌋ := Int.le_floor.mpr (by push_cast; linarith)
    · rw [if_neg hsecond]
      exact Int.ceil_le_ceil (by linarith)

theorem toScale_two (amount : ℚ) : toScale 2 amount = roundHalfAway (amount * 100) / 100 := by
  norm_num [toScale]

theorem isCents_toScale (amount : ℚ) : IsCents (toScale 2 amount) :=
  ⟨_, toScale_two amount⟩

/-- An amount with two decimals is stored as it is. -/
theorem IsCents.toScale (hcents : IsCents amount) : toScale 2 amount = amount := by
  obtain ⟨n, rfl⟩ := hcents
  rw [toScale_two, div_mul_cancel₀ _ (by norm_num), roundHalfAway_intCast]

@[simp] theorem toScale_zero : toScale 2 0 = 0 := IsCents.toScale ⟨0, by norm_num⟩

theorem toScale_mono (hle : first ≤ second) : toScale 2 first ≤ toScale 2 second := by
  rw [toScale_two, toScale_two]
  apply div_le_div_of_nonneg_right _ (by norm_num)
  exact_mod_cast roundHalfAway_mono (by linarith)

theorem IsCents.add (hfirst : IsCents first) (hsecond : IsCents second) :
    IsCents (first + second) := by
  obtain ⟨n, rfl⟩ := hfirst
  obtain ⟨m, rfl⟩ := hsecond
  exact ⟨n + m, by push_cast; ring⟩

/-- What is left of an amount is stored as what is left of the stored amount. -/
theorem toScale_left (hnonneg : 0 ≤ amount) (hcents : IsCents cents)
    (hle : cents ≤ toScale 2 amount) :
    toScale 2 (max 0 (amount - cents)) = toScale 2 amount - cents := by
  obtain ⟨n, rfl⟩ := hcents
  rw [toScale_two] at hle ⊢
  have hround : roundHalfAway (amount * 100) = ⌊amount * 100 + 1 / 2⌋ :=
    roundHalfAway_of_nonneg (by linarith)
  have hn : n ≤ ⌊amount * 100 + 1 / 2⌋ := by
    rw [hround] at hle
    have hcast : (n : ℚ) ≤ ⌊amount * 100 + 1 / 2⌋ := by linarith
    exact_mod_cast hcast
  have hleft : roundHalfAway (max 0 (amount - n / 100) * 100) = ⌊amount * 100 + 1 / 2⌋ - n := by
    rw [roundHalfAway_of_nonneg (mul_nonneg (le_max_left 0 _) (by norm_num))]
    rcases le_total 0 (amount - n / 100) with hpositive | hnegative
    · rw [max_eq_right hpositive, ← Int.floor_sub_intCast]
      congr 1
      ring
    · -- the amount is rounded up to the cents that are taken from it
      rw [max_eq_left hnegative]
      have hfloor : ⌊amount * 100 + 1 / 2⌋ = n := by
        apply le_antisymm _ hn
        apply Int.lt_add_one_iff.mp
        apply Int.floor_lt.mpr
        push_cast
        linarith
      rw [hfloor, sub_self]
      norm_num
  rw [toScale_two, hleft, hround]
  push_cast
  ring

end Finify.Credit
