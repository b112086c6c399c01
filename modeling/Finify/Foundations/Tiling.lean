/-
# Spans that tile the days

Spans of days, the last of which may be open.  Spans tile when each begins on the day after
the one before it ends and the last is open: then no day lies in two of them, and from the
first day on every day lies in one.
-/

import Mathlib.Data.List.Count
import Mathlib.Data.Int.Order.Basic

namespace Finify.Foundations

/-- The days from a first to a last one, or without end. -/
structure Span where
  first : ℤ
  last : Option ℤ
  deriving DecidableEq

def Span.Covers (span : Span) (day : ℤ) : Prop :=
  span.first ≤ day ∧ ∀ last ∈ span.last, day ≤ last

instance (span : Span) (day : ℤ) : Decidable (span.Covers day) :=
  inferInstanceAs (Decidable (_ ∧ _))

/-- Each span ends on the day before the next begins, and the last is open. -/
def Tiles : List Span → Prop
  | [] => True
  | [span] => span.last = none
  | span :: next :: rest =>
    span.last = some (next.first - 1) ∧ span.first < next.first ∧ Tiles (next :: rest)

namespace Tiles

variable {span final : Span} {spans : List Span} {day : ℤ}

/-- What begins after the day does not count for it. -/
theorem countP_eq_zero (htiles : Tiles (span :: spans)) (hday : day < span.first) :
    (span :: spans).countP (fun span => span.Covers day) = 0 := by
  induction spans generalizing span with
  | nil =>
    rw [List.countP_eq_zero]
    intro only honly hcovers
    rw [List.mem_singleton.mp honly] at hcovers
    exact absurd (of_decide_eq_true hcovers).1 (not_le.mpr hday)
  | cons next rest ih =>
    obtain ⟨_, hlt, hrest⟩ := htiles
    rw [List.countP_cons_of_neg, ih hrest (lt_trans hday hlt)]
    intro hcovers
    exact absurd (of_decide_eq_true hcovers).1 (not_le.mpr hday)

/-- Every day from the first on lies in exactly one of the spans. -/
theorem countP_covers (htiles : Tiles (span :: spans)) (day : ℤ) :
    (span :: spans).countP (fun span => span.Covers day) = if span.first ≤ day then 1 else 0 := by
  induction spans generalizing span with
  | nil =>
    have hopen : span.last = none := htiles
    simp [List.countP_cons, Span.Covers, hopen]
  | cons next rest ih =>
    obtain ⟨hlast, hlt, hrest⟩ := htiles
    by_cases hnext : next.first ≤ day
    · -- the first span has ended
      have hended : ¬ span.Covers day := by
        intro hcovers
        have hle := hcovers.2 (next.first - 1) (by rw [hlast]; rfl)
        omega
      rw [List.countP_cons_of_neg (by simpa using hended), ih hrest, if_pos hnext,
        if_pos (le_trans (le_of_lt hlt) hnext)]
    · have hzero := countP_eq_zero hrest (not_le.mp hnext)
      rw [List.countP_cons, hzero, Nat.zero_add]
      have hcovers : span.Covers day ↔ span.first ≤ day := by
        rw [Span.Covers, hlast]
        constructor
        · exact And.left
        · intro hfirst
          refine ⟨hfirst, fun last hmem => ?_⟩
          cases hmem
          omega
      simp [hcovers]

/-- No span begins before the first. -/
theorem first_le (htiles : Tiles (span :: spans)) : ∀ other ∈ span :: spans,
    span.first ≤ other.first := by
  induction spans generalizing span with
  | nil =>
    intro other hother
    rw [List.mem_singleton.mp hother]
  | cons next rest ih =>
    obtain ⟨_, hlt, hrest⟩ := htiles
    intro other hother
    cases List.mem_cons.mp hother with
    | inl hsame => rw [hsame]
    | inr hlater => exact le_trans (le_of_lt hlt) (ih hrest other hlater)

/-- A span that is open is the last one. -/
theorem last_open (htiles : Tiles (spans ++ [final])) :
    final.last = none ∧ ∀ span ∈ spans, span.last ≠ none := by
  induction spans with
  | nil => exact ⟨htiles, by simp⟩
  | cons span rest ih =>
    cases rest with
    | nil =>
      obtain ⟨hlast, _, hrest⟩ := htiles
      refine ⟨hrest, ?_⟩
      intro other hother
      rw [List.mem_singleton.mp hother, hlast]
      exact Option.some_ne_none _
    | cons next others =>
      obtain ⟨hlast, _, hrest⟩ := htiles
      obtain ⟨hopen, hclosed⟩ := ih hrest
      refine ⟨hopen, List.forall_mem_cons.mpr ⟨?_, hclosed⟩⟩
      rw [hlast]
      exact Option.some_ne_none _

/-- Ending the last span on the day before a later one begins keeps the spans tiling. -/
theorem extend (htiles : Tiles (spans ++ [final])) (hlater : final.first < day) :
    Tiles (spans ++ [⟨final.first, some (day - 1)⟩, ⟨day, none⟩]) := by
  induction spans with
  | nil => exact ⟨rfl, hlater, rfl⟩
  | cons span rest ih =>
    cases rest with
    | nil | cons next others =>
      obtain ⟨hlast, hlt, hrest⟩ := htiles
      exact ⟨hlast, hlt, ih hrest⟩

end Tiles

end Finify.Foundations
