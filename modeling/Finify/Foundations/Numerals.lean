/-
# Numerals of a fixed width

The digits of a number below a power of the base, written with leading zeros, are as many as the
power says; they are the shortest numeral filled up in front.
-/

import Finify.Foundations.Slices
import Mathlib.Data.Nat.Digits.Defs

namespace Finify.Foundations

/-- The last digits of a number, highest first. -/
def fixedDigits (base : ℕ) : ℕ → ℕ → List Char
  | 0, _ => []
  | width + 1, value => fixedDigits base width (value / base) ++ [Nat.digitChar (value % base)]

@[simp]
theorem length_fixedDigits (base width value : ℕ) :
    (fixedDigits base width value).length = width := by
  induction width generalizing value with
  | zero => rfl
  | succ width ih => rw [fixedDigits, List.length_append, ih, List.length_singleton]

theorem fixedDigits_zero (base width : ℕ) :
    fixedDigits base width 0 = List.replicate width '0' := by
  induction width with
  | zero => rfl
  | succ width ih =>
    rw [fixedDigits, Nat.zero_div, Nat.zero_mod, ih, List.replicate_succ']
    rfl

theorem fixedDigits_mod (base width value : ℕ) :
    fixedDigits base width (value % base ^ width) = fixedDigits base width value := by
  induction width generalizing value with
  | zero => rfl
  | succ width ih =>
    rw [fixedDigits, fixedDigits, Nat.pow_succ', Nat.mod_mul_right_div_self,
      Nat.mod_mul_right_mod, ih]

/-- Digits that are told apart spell the last places of one number. -/
theorem map_fixedDigits_injective {β : Type} {base : ℕ} {print : Char → β} (hbase : 0 < base)
    (hdigits : ∀ digit < base, ∀ other < base,
      print (Nat.digitChar digit) = print (Nat.digitChar other) → digit = other)
    {width value other : ℕ}
    (heq : (fixedDigits base width value).map print = (fixedDigits base width other).map print) :
    value % base ^ width = other % base ^ width := by
  induction width generalizing value other with
  | zero => rw [Nat.pow_zero, Nat.mod_one, Nat.mod_one]
  | succ width ih =>
    rw [fixedDigits, fixedDigits, List.map_append, List.map_append] at heq
    obtain ⟨hfront, hlast⟩ := List.append_inj heq (by
      rw [List.length_map, List.length_map, length_fixedDigits, length_fixedDigits])
    have hdigit := hdigits _ (Nat.mod_lt value hbase) _ (Nat.mod_lt other hbase)
      (List.cons.inj hlast).1
    rw [Nat.pow_succ', Nat.mod_mul, Nat.mod_mul, ih hfront, hdigit]

/-- A numeral filled up with zeros in front. -/
theorem padStart_toDigits {base width value : ℕ} (hbase : 1 < base)
    (hvalue : value < base ^ (width + 1)) :
    padStart (width + 1) '0' (Nat.toDigits base value) = fixedDigits base (width + 1) value := by
  induction width generalizing value with
  | zero =>
    rw [Nat.zero_add, Nat.pow_one] at hvalue
    rw [Nat.toDigits_of_lt_base hvalue, fixedDigits, fixedDigits, Nat.mod_eq_of_lt hvalue]
    rfl
  | succ width ih =>
    rcases Nat.lt_or_ge value base with hsmall | hlarge
    · rw [Nat.toDigits_of_lt_base hsmall, fixedDigits, Nat.div_eq_of_lt hsmall,
        Nat.mod_eq_of_lt hsmall, fixedDigits_zero]
      rfl
    · have hquotient : value / base < base ^ (width + 1) := by
        rw [Nat.div_lt_iff_lt_mul (by omega), ← Nat.pow_succ]
        exact hvalue
      have hdigits : Nat.toDigits base value =
          Nat.toDigits base (value / base) ++ [Nat.digitChar (value % base)] :=
        Nat.toDigits_of_base_le hbase hlarge
      rw [fixedDigits, ← ih hquotient, hdigits, padStart, padStart, List.length_append,
        List.length_singleton, Nat.add_sub_add_right, List.append_assoc]

end Finify.Foundations
