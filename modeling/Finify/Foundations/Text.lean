/-
# Texts in capitals
-/

import Mathlib.Data.String.Basic

namespace Finify.Foundations

/-- A capital letter is its own capital. -/
theorem toUpper_of_isUpper {letter : Char} (hupper : letter.isUpper) : letter.toUpper = letter := by
  have hvalue : letter.val ≤ 90 := (of_decide_eq_true hupper : 65 ≤ letter.val ∧ letter.val ≤ 90).2
  unfold Char.toUpper
  rw [dif_neg]
  intro hlower
  exact absurd (UInt32.le_trans hlower.1 hvalue) (by decide)

/-- What stands before the first separator is determined. -/
theorem eq_of_append_cons {α : Type} {separator : α} {first second rest other : List α}
    (hfirst : separator ∉ first) (hsecond : separator ∉ second)
    (hsame : first ++ separator :: rest = second ++ separator :: other) : first = second := by
  induction first generalizing second with
  | nil =>
    cases second with
    | nil => rfl
    | cons head tail =>
      rw [List.nil_append, List.cons_append] at hsame
      exact absurd ((List.cons.inj hsame).1 ▸ List.mem_cons_self) hsecond
  | cons head tail ih =>
    cases second with
    | nil =>
      rw [List.nil_append, List.cons_append] at hsame
      exact absurd ((List.cons.inj hsame).1 ▸ List.mem_cons_self) hfirst
    | cons next more =>
      rw [List.cons_append, List.cons_append] at hsame
      obtain ⟨hhead, htail⟩ := List.cons.inj hsame
      rw [hhead, ih (fun hmem => hfirst (List.mem_cons_of_mem _ hmem))
        (fun hmem => hsecond (List.mem_cons_of_mem _ hmem)) htail]

/-- A text in capitals is its own upper case. -/
theorem toUpper_of_capitals {text : String} (hcapitals : ∀ letter ∈ text.toList, letter.isUpper) :
    text.toUpper = text := by
  apply String.toList_injective
  rw [String.toUpper, String.toList_map]
  calc
    text.toList.map Char.toUpper = text.toList.map id :=
      List.map_congr_left fun letter hletter => toUpper_of_isUpper (hcapitals letter hletter)
    _ = text.toList := List.map_id _

/-- The upper case of a letter is its own upper case. -/
theorem toUpper_toUpper_char (letter : Char) : letter.toUpper.toUpper = letter.toUpper := by
  by_cases hlower : letter.val ≥ 'a'.val ∧ letter.val ≤ 'z'.val
  · have hval : letter.toUpper.val = letter.val + ('A'.val - 'a'.val) := by
      unfold Char.toUpper
      rw [dif_pos hlower]
    have hsmall : letter.toUpper.val ≤ 90 := by
      have hfirst : 97 ≤ letter.val.toNat := hlower.1
      have hlast : letter.val.toNat ≤ 122 := hlower.2
      have hshift : ('A'.val - 'a'.val).toNat = 4294967264 := by decide
      rw [hval, UInt32.le_iff_toNat_le, UInt32.toNat_add, hshift]
      change (letter.val.toNat + 4294967264) % 4294967296 ≤ 90
      omega
    generalize letter.toUpper = upper at hsmall
    unfold Char.toUpper
    rw [dif_neg]
    intro hagain
    exact absurd (UInt32.le_trans hagain.1 hsmall) (by decide)
  · have hsame : letter.toUpper = letter := by
      unfold Char.toUpper
      rw [dif_neg hlower]
    rw [hsame, hsame]

/-- The upper case of a text is its own upper case. -/
theorem toUpper_toUpper (text : String) : text.toUpper.toUpper = text.toUpper := by
  apply String.toList_injective
  rw [String.toUpper, String.toUpper, String.toList_map, String.toList_map, List.map_map]
  exact List.map_congr_left fun letter _ => toUpper_toUpper_char letter

end Finify.Foundations
