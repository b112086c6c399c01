/-
# Trails of records between balances

An account statement is a list of records, each of which takes one balance to the
next.  `Trail moves a records b` says that reading the records in order leads
from `a` to `b`.  The lemmas here are what statements are used for: they compose,
they move the balance by the sum of the recorded amounts, and under the two
usual funding conditions no balance on the way is negative.
-/

import Mathlib.Algebra.Order.BigOperators.Group.List
import Mathlib.Algebra.Order.Group.Defs
import Mathlib.Tactic.Abel

namespace Finify.Foundations

universe u v

/-- Reading `records` in order takes the balance from the first to the last
index, one `moves` at a time. -/
inductive Trail {β : Type u} {ρ : Type v} (moves : β → ρ → β → Prop) : β → List ρ → β → Prop
  | nil (a : β) : Trail moves a [] a
  | cons {a b c : β} {record : ρ} {records : List ρ} :
      moves a record b → Trail moves b records c → Trail moves a (record :: records) c

namespace Trail

section General

variable {β : Type u} {ρ : Type v} {moves : β → ρ → β → Prop} {a b c : β} {records : List ρ}

theorem append {later : List ρ} (hfirst : Trail moves a records b)
    (hlater : Trail moves b later c) : Trail moves a (records ++ later) c := by
  induction hfirst with
  | nil => exact hlater
  | cons hmove _ ih => exact .cons hmove (ih hlater)

theorem singleton {record : ρ} (hmove : moves a record b) : Trail moves a [record] b :=
  .cons hmove (.nil b)

/-- The first record moves away from the first balance. -/
theorem first {record : ρ} (htrail : Trail moves a (record :: records) b) :
    ∃ x, moves a record x := by
  cases htrail with
  | cons hmove _ => exact ⟨_, hmove⟩

/-- The last record moves to the last balance. -/
theorem last {record : ρ} (htrail : Trail moves a (records ++ [record]) b) :
    ∃ x, moves x record b := by
  induction records generalizing a with
  | nil =>
    cases htrail with
    | cons hmove hrest =>
      cases hrest
      exact ⟨_, hmove⟩
  | cons other records ih =>
    cases htrail with
    | cons _ hrest => exact ih hrest

end General

/-! ## Balances in a group -/

section Group

variable {α : Type u} {ρ : Type v} [AddCommGroup α] {moves : α → ρ → α → Prop} {a b : α}
  {records : List ρ}

/-- The balance moves by the sum of the recorded amounts. -/
theorem displacement {amount : ρ → α}
    (hmoves : ∀ a record b, moves a record b → b = a + amount record)
    (htrail : Trail moves a records b) : b = a + (records.map amount).sum := by
  induction htrail with
  | nil => simp
  | cons hmove _ ih =>
    rw [ih, hmoves _ _ _ hmove, List.map_cons, List.sum_cons, add_assoc]

end Group

/-! ## Balances that stay non-negative -/

section Ordered

variable {α : Type u} {ρ : Type v} [AddCommGroup α] [LinearOrder α] [IsOrderedAddMonoid α]
  {moves : α → ρ → α → Prop} {credit debit : ρ → α} {a b : α} {records : List ρ}

/-- If the opening balance covers every debit, no credit is needed to keep all
balances non-negative. -/
theorem nonneg_of_debits_covered
    (hmoves : ∀ a record b, moves a record b → b = a + credit record - debit record)
    (hcredit : ∀ record, 0 ≤ credit record) (hdebit : ∀ record, 0 ≤ debit record)
    (htrail : Trail moves a records b) (hcovered : (records.map debit).sum ≤ a) :
    0 ≤ b ∧ ∀ record ∈ records, ∃ x y, moves x record y ∧ 0 ≤ x ∧ 0 ≤ y := by
  induction htrail with
  | nil => exact ⟨by simpa using hcovered, by simp⟩
  | @cons a b c record records hmove htail ih =>
    have hrest : 0 ≤ (records.map debit).sum :=
      List.sum_nonneg fun x hx => by
        obtain ⟨r, _, rfl⟩ := List.mem_map.mp hx
        exact hdebit r
    rw [List.map_cons, List.sum_cons] at hcovered
    have hnext : (records.map debit).sum ≤ b := by
      rw [hmoves _ _ _ hmove, le_sub_iff_add_le, add_comm]
      exact hcovered.trans (le_add_of_nonneg_right (hcredit record))
    obtain ⟨hend, hall⟩ := ih hnext
    refine ⟨hend, fun other hother => ?_⟩
    rcases List.mem_cons.mp hother with rfl | hmem
    · exact ⟨a, b, hmove, (add_nonneg (hdebit other) hrest).trans hcovered, hrest.trans hnext⟩
    · exact hall other hmem

/-- If every credit comes before every debit, it is enough that the opening
balance and the credits together cover the debits. -/
theorem nonneg_of_credits_first
    (hmoves : ∀ a record b, moves a record b → b = a + credit record - debit record)
    (hcredit : ∀ record, 0 ≤ credit record) (hdebit : ∀ record, 0 ≤ debit record)
    (horder : records.Pairwise fun earlier later => 0 < debit earlier → credit later = 0)
    (honeSide : ∀ record ∈ records, debit record = 0 ∨ credit record = 0)
    (htrail : Trail moves a records b) (hstart : 0 ≤ a)
    (hcovered : (records.map debit).sum ≤ a + (records.map credit).sum) :
    0 ≤ b ∧ ∀ record ∈ records, ∃ x y, moves x record y ∧ 0 ≤ x ∧ 0 ≤ y := by
  induction htrail with
  | nil => exact ⟨hstart, by simp⟩
  | @cons a b c record records hmove htail ih =>
    rw [List.pairwise_cons] at horder
    rcases (hdebit record).eq_or_lt with hzero | hpos
    · -- A credit: the balance grows and the same condition holds of the rest.
      simp only [List.map_cons, List.sum_cons] at hcovered
      have hb : b = a + credit record := by rw [hmoves _ _ _ hmove, ← hzero, sub_zero]
      have hbnonneg : 0 ≤ b := by rw [hb]; exact add_nonneg hstart (hcredit record)
      obtain ⟨hend, hall⟩ := ih horder.2
        (fun r hr => honeSide r (List.mem_cons_of_mem _ hr)) hbnonneg (by
          rwa [hb, add_assoc, ← zero_add (List.map debit records).sum, hzero])
      refine ⟨hend, fun other hother => ?_⟩
      rcases List.mem_cons.mp hother with rfl | hmem
      · exact ⟨a, b, hmove, hstart, hbnonneg⟩
      · exact hall other hmem
    · -- The first debit: no credit is left, so the balance alone covers the rest.
      have hnocredit : (records.map credit).sum = 0 := by
        refine List.sum_eq_zero fun x hx => ?_
        obtain ⟨r, hr, rfl⟩ := List.mem_map.mp hx
        exact horder.1 r hr hpos
      have hself : credit record = 0 :=
        (honeSide record (by simp)).resolve_left hpos.ne'
      refine nonneg_of_debits_covered hmoves hcredit hdebit (.cons hmove htail) ?_
      simpa [hnocredit, hself] using hcovered

end Ordered

end Trail

end Finify.Foundations
