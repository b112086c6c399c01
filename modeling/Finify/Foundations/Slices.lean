/-
# Slices of one width

A list is cut into slices of one width, the last of which may be short.  The slices of a list of
groups of that width are the groups, and the slices filled up put the list together again with what
filled the last one behind it.
-/

import Mathlib.Data.List.Basic
import Mathlib.Data.Nat.Basic

namespace Finify.Foundations

variable {α β : Type}

def slices (width count : ℕ) (list : List α) : List (List α) :=
  (List.range count).map fun index => (list.drop (index * width)).take width

def padEnd (width : ℕ) (fill : α) (list : List α) : List α :=
  list ++ List.replicate (width - list.length) fill

def padStart (width : ℕ) (fill : α) (list : List α) : List α :=
  List.replicate (width - list.length) fill ++ list

theorem length_padEnd {width : ℕ} {list : List α} (hshort : list.length ≤ width) (fill : α) :
    (padEnd width fill list).length = width := by
  rw [padEnd, List.length_append, List.length_replicate]
  omega

theorem slices_succ (width count : ℕ) (list : List α) :
    slices width (count + 1) list =
      list.take width :: slices width count (list.drop width) := by
  rw [slices, List.range_succ_eq_map, List.map_cons, List.map_map, Nat.zero_mul, List.drop_zero]
  congr 1
  apply List.map_congr_left
  intro index _
  rw [Function.comp_apply, List.drop_drop, Nat.succ_mul, Nat.add_comm]

/-- The slices of a list of groups of one width are the groups. -/
theorem slices_flatMap {width : ℕ} {group : α → List β} {items : List α}
    (hwidth : ∀ item ∈ items, (group item).length = width) (rest : List β) :
    slices width items.length (items.flatMap group ++ rest) = items.map group := by
  induction items with
  | nil => rfl
  | cons item items ih =>
    have hhead := hwidth item List.mem_cons_self
    rw [List.length_cons, slices_succ, List.flatMap_cons, List.append_assoc,
      List.take_left' hhead, List.drop_left' hhead, List.map_cons,
      ih fun other hmem => hwidth other (List.mem_cons_of_mem item hmem)]

/-- The slices that cover a list, each filled up, are the list with what fills it up to their
common length. -/
theorem flatten_slices {width count : ℕ} {list : List α} {fill : α}
    (hcovers : list.length ≤ count * width) (htight : count * width < list.length + width) :
    ((slices width count list).map (padEnd width fill)).flatten =
      list ++ List.replicate (count * width - list.length) fill := by
  induction count generalizing list with
  | zero =>
    have hempty : list = [] := List.eq_nil_of_length_eq_zero (by omega)
    rw [hempty, Nat.zero_mul]
    rfl
  | succ count ih =>
    rw [Nat.succ_mul] at hcovers htight
    rw [slices_succ, List.map_cons, List.flatten_cons]
    rcases Nat.lt_or_ge list.length width with hshort | hlong
    · have hlast : count = 0 := by
        by_contra hmore
        have : width ≤ count * width := Nat.le_mul_of_pos_left width (by omega)
        omega
      rw [hlast, List.take_of_length_le (Nat.le_of_lt hshort), Nat.zero_add, Nat.one_mul]
      exact List.append_nil _
    · have hfull : padEnd width fill (list.take width) = list.take width := by
        rw [padEnd, List.length_take, Nat.min_eq_left hlong, Nat.sub_self, List.replicate_zero,
          List.append_nil]
      rw [hfull, ih (by rw [List.length_drop]; omega) (by rw [List.length_drop]; omega),
        ← List.append_assoc, List.take_append_drop, List.length_drop]
      congr 2
      rw [Nat.succ_mul]
      omega

end Finify.Foundations
