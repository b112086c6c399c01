/-
# Stable sorts

A stable sort keeps the order of what compares equal.  Lists that agree on that order are sorted to
one list, and two elements that compare equal keep a list from being sorted like another in which
they stand the other way round.
-/

import Mathlib.Data.List.MinMax
import Mathlib.Data.List.Sort

namespace Finify.Foundations

variable {α : Type} {list first second : List α} {a b : α}

/-- No two elements of a list without repetition stand in both orders. -/
theorem not_sublist_swap (hnodup : list.Nodup) (hforth : [a, b].Sublist list) :
    ¬ [b, a].Sublist list := by
  induction list with
  | nil => cases hforth
  | cons head rest ih =>
    obtain ⟨hhead, hrest⟩ := List.nodup_cons.mp hnodup
    intro hback
    cases hforth with
    | cons _ hforth =>
      cases hback with
      | cons _ hback => exact ih hrest hforth hback
      | cons_cons _ hback =>
        exact hhead (hforth.subset (List.mem_cons_of_mem a List.mem_cons_self))
    | cons_cons _ hforth =>
      cases hback with
      | cons _ hback =>
        exact hhead (hback.subset (List.mem_cons_of_mem b List.mem_cons_self))
      | cons_cons _ hback => exact hhead (hback.subset List.mem_cons_self)

/-- Two elements of a list stand in one order or the other. -/
theorem sublist_pair_or (ha : a ∈ list) (hb : b ∈ list) (hne : a ≠ b) :
    [a, b].Sublist list ∨ [b, a].Sublist list := by
  induction list with
  | nil => cases ha
  | cons head rest ih =>
    rcases List.mem_cons.mp ha with hahead | harest
    · have hlater : b ∈ rest := (List.mem_cons.mp hb).resolve_left (hahead ▸ Ne.symm hne)
      rw [hahead]
      exact Or.inl ((List.singleton_sublist.mpr hlater).cons_cons head)
    · rcases List.mem_cons.mp hb with hbhead | hbrest
      · rw [hbhead]
        exact Or.inr ((List.singleton_sublist.mpr harest).cons_cons head)
      · exact (ih harest hbrest).imp (fun h => h.cons head) fun h => h.cons head

section Sorting

variable {le kept : α → α → Prop} [DecidableRel le] [Std.Total le] [IsTrans α le]

/-- What compares equal stands in its old order. -/
theorem pairwise_stable (hnodup : list.Nodup) (hkept : list.Pairwise kept) :
    (list.insertionSort le).Pairwise fun a b => le a b ∧ (le b a → kept a b) := by
  have hsorted := (List.perm_insertionSort le list).nodup_iff.mpr hnodup
  apply List.pairwise_of_forall_sublist
  intro a b hpair
  refine ⟨(List.pairwise_insertionSort le list).forall_sublist hpair, fun hback => ?_⟩
  have hmem : ∀ c ∈ [a, b], c ∈ list := fun c hc =>
    (List.mem_insertionSort le).mp (hpair.subset hc)
  have hne : a ≠ b := by
    intro heq
    rw [heq] at hpair
    exact not_sublist_swap hsorted hpair hpair
  rcases sublist_pair_or (hmem a List.mem_cons_self)
      (hmem b (List.mem_cons_of_mem a List.mem_cons_self)) hne with hforth | hswapped
  · exact hkept.forall_sublist hforth
  · exact absurd (List.pair_sublist_insertionSort hback hswapped) (not_sublist_swap hsorted hpair)

/-- Lists of the same elements in which those that compare equal stand in one order are sorted
alike. -/
theorem insertionSort_eq (hperm : first.Perm second) (hnodup : first.Nodup)
    (hfirst : first.Pairwise kept) (hsecond : second.Pairwise kept)
    (hone : ∀ a ∈ first, ∀ b ∈ first, le a b → le b a → kept a b → kept b a → a = b) :
    first.insertionSort le = second.insertionSort le := by
  refine List.Perm.eq_of_pairwise ?unique
    (pairwise_stable hnodup hfirst) (pairwise_stable (hperm.nodup_iff.mp hnodup) hsecond) ?perm
  case unique =>
    intro a b ha hb hab hba
    have ha' := (List.mem_insertionSort le).mp ha
    have hb' := hperm.mem_iff.mpr ((List.mem_insertionSort le).mp hb)
    exact hone a ha' b hb' hab.1 hba.1 (hab.2 hba.1) (hba.2 hab.1)
  case perm =>
    exact ((List.perm_insertionSort le first).trans hperm).trans
      (List.perm_insertionSort le second).symm

omit [Std.Total le] [IsTrans α le] in
/-- Elements that compare equal and stand in two orders are sorted in two orders. -/
theorem insertionSort_ne (hnodup : first.Nodup) (hforth : [a, b].Sublist first)
    (hback : [b, a].Sublist second) (hab : le a b) (hba : le b a) :
    first.insertionSort le ≠ second.insertionSort le := by
  intro heq
  have hsorted := (List.perm_insertionSort le first).nodup_iff.mpr hnodup
  have hpair := List.pair_sublist_insertionSort hab hforth
  have hswapped := List.pair_sublist_insertionSort hba hback
  rw [← heq] at hswapped
  exact not_sublist_swap hsorted hpair hswapped

end Sorting

section First

variable {β : Type} [LinearOrder β] {key : α → β} {condition : α → Bool}

/-- Where the first element of a kind is after one is inserted. -/
theorem find?_orderedInsert
    (hsorted : list.Pairwise fun first second => key first ≤ key second) :
    (list.orderedInsert (fun first second => key first ≤ key second) a).find? condition =
      if condition a then
        some ((list.find? condition).elim a fun other => if key other < key a then other else a)
      else list.find? condition := by
  induction list with
  | nil => cases hcondition : condition a <;> simp [hcondition]
  | cons head rest ih =>
    obtain ⟨hhead, hrest⟩ := List.pairwise_cons.mp hsorted
    rw [List.orderedInsert]
    by_cases hle : key a ≤ key head
    · rw [if_pos hle, List.find?_cons]
      cases hcondition : condition a with
      | false => rfl
      | true =>
        cases hfound : (head :: rest).find? condition with
        | none => rfl
        | some other =>
          have hother : key head ≤ key other := by
            rcases List.mem_cons.mp (List.mem_of_find?_eq_some hfound) with rfl | hmem
            · exact le_refl _
            · exact hhead other hmem
          simp [not_lt.mpr (hle.trans hother)]
    · rw [if_neg hle, List.find?_cons, List.find?_cons, ih hrest]
      cases hcondition : condition head with
      | false => rfl
      | true => simp [not_le.mp hle]

/-- The first element of a kind in a sorted list has the least key of its kind. -/
theorem find?_insertionSort (list : List α) :
    (list.insertionSort fun first second => key first ≤ key second).find? condition =
      (list.filter condition).argmin key := by
  induction list with
  | nil => rfl
  | cons head rest ih =>
    rw [List.insertionSort_cons, find?_orderedInsert (List.pairwise_insertionSort _ rest), ih,
      List.filter_cons]
    cases hcondition : condition head with
    | false => rfl
    | true =>
      rw [if_pos rfl, if_pos rfl, List.argmin_cons]
      cases (rest.filter condition).argmin key with
      | none => rfl
      | some other => exact apply_ite some _ _ _

end First

end Finify.Foundations
