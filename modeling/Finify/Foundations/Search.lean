/-
# Searching a finite graph

A breadth-first search over a list of edges.  Every edge is put on the queue at most once, so
that one step for each edge and the start is enough, and what is found is exactly what can be
reached.
-/

import Mathlib.Data.List.Basic
import Mathlib.Logic.Relation

namespace Finify.Foundations.Search

universe u

variable {α : Type u}

/-- There is an edge between two keys. -/
def Edge (edges : List (α × α)) (source target : α) : Prop := (source, target) ∈ edges

/-- A key can be reached from another. -/
def Reaches (edges : List (α × α)) : α → α → Prop := Relation.ReflTransGen (Edge edges)

/-- A walk out of a set of keys uses an edge that leaves it. -/
theorem Reaches.leaves {edges : List (α × α)} {source target : α} (keys : Set α)
    (hreaches : Reaches edges source target) (hsource : source ∈ keys) (htarget : target ∉ keys) :
    ∃ first second, Edge edges first second ∧ first ∈ keys ∧ second ∉ keys := by
  induction hreaches with
  | refl => exact absurd hsource htarget
  | @tail middle last _ hedge ih =>
    by_cases hmiddle : middle ∈ keys
    · exact ⟨middle, last, hedge, hmiddle, htarget⟩
    · exact ih hmiddle

variable [DecidableEq α]

def targets (edges : List (α × α)) (key : α) : List α :=
  (edges.filter fun edge => edge.1 = key).map Prod.snd

/-- Take keys off the queue until it is empty. -/
def search (edges : List (α × α)) : ℕ → List α → List α → List α
  | 0, _, found => found
  | _ + 1, [], found => found
  | n + 1, key :: queue, found =>
    if key ∈ found then search edges n queue found
    else search edges n (queue ++ targets edges key) (key :: found)

/-- All that is found from a key. -/
def reachable (edges : List (α × α)) (start : α) : List α :=
  search edges (edges.length + 2) [start] []

theorem mem_targets {edges : List (α × α)} {source target : α} :
    target ∈ targets edges source ↔ Edge edges source target := by
  simp only [targets, List.mem_map, List.mem_filter, decide_eq_true_eq, Edge]
  constructor
  · intro hmem
    obtain ⟨⟨first, second⟩, ⟨hedge, rfl⟩, rfl⟩ := hmem
    exact hedge
  · intro hedge
    exact ⟨(source, target), ⟨hedge, rfl⟩, rfl⟩

def pending (edges : List (α × α)) (found : List α) : List (α × α) :=
  edges.filter fun edge => edge.1 ∉ found

/-- Finding a key uses up its edges. -/
theorem length_pending_cons {edges : List (α × α)} {found : List α} {key : α}
    (hnew : key ∉ found) :
    (pending edges (key :: found)).length + (targets edges key).length =
      (pending edges found).length := by
  unfold pending targets
  rw [List.length_map]
  induction edges with
  | nil => rfl
  | cons edge edges ih =>
    by_cases hkey : edge.1 = key
    · simp only [List.filter_cons, hkey, hnew, List.mem_cons, true_or, not_true_eq_false,
        decide_false, Bool.false_eq_true, if_false, decide_true, if_true, List.length_cons,
        not_false_eq_true] at ih ⊢
      omega
    · by_cases hfound : edge.1 ∈ found
      · simp only [List.filter_cons, hkey, hfound, List.mem_cons, or_true, not_true_eq_false,
          decide_false, Bool.false_eq_true, if_false] at ih ⊢
        exact ih
      · simp only [List.filter_cons, hkey, hfound, List.mem_cons, or_self, not_false_eq_true,
          decide_true, decide_false, Bool.false_eq_true, if_true, if_false,
          List.length_cons] at ih ⊢
        omega

/-- With enough steps the search ends with a set that is closed under the edges, holds all it
began with, and holds nothing else. -/
theorem search_spec (edges : List (α × α)) (n : ℕ) (queue found : List α)
    (hfuel : queue.length + (pending edges found).length < n)
    (hclosed : ∀ source ∈ found, ∀ target, Edge edges source target →
      target ∈ found ∨ target ∈ queue) :
    (∀ key, key ∈ found ∨ key ∈ queue → key ∈ search edges n queue found) ∧
      (∀ source ∈ search edges n queue found, ∀ target, Edge edges source target →
        target ∈ search edges n queue found) ∧
      ∀ key ∈ search edges n queue found,
        ∃ origin, (origin ∈ found ∨ origin ∈ queue) ∧ Reaches edges origin key := by
  induction n generalizing queue found with
  | zero => exact absurd hfuel (Nat.not_lt_zero _)
  | succ n ih =>
    cases queue with
    | nil =>
      refine ⟨fun key hkey => ?_, fun source hsource target hedge => ?_, fun key hkey => ?_⟩
      · exact hkey.resolve_right List.not_mem_nil
      · exact (hclosed source hsource target hedge).resolve_right List.not_mem_nil
      · exact ⟨key, .inl hkey, .refl⟩
    | cons first queue =>
      by_cases hfound : first ∈ found
      · rw [search, if_pos hfound]
        obtain ⟨hkept, hstep, horigin⟩ := ih queue found
          (by simp only [List.length_cons] at hfuel; omega) (by
            intro source hsource target hedge
            rcases hclosed source hsource target hedge with hold | hqueued
            · exact .inl hold
            · rcases List.mem_cons.mp hqueued with rfl | hlater
              · exact .inl hfound
              · exact .inr hlater)
        refine ⟨fun key hkey => hkept key ?_, hstep, fun key hkey => ?_⟩
        · rcases hkey with hold | hqueued
          · exact .inl hold
          · rcases List.mem_cons.mp hqueued with rfl | hlater
            · exact .inl hfound
            · exact .inr hlater
        · obtain ⟨origin, hfrom, hreaches⟩ := horigin key hkey
          exact ⟨origin, hfrom.imp_right (List.mem_cons_of_mem _), hreaches⟩
      · rw [search, if_neg hfound]
        have hlength : (pending edges (first :: found)).length + (targets edges first).length =
            (pending edges found).length := length_pending_cons hfound
        obtain ⟨hkept, hstep, horigin⟩ := ih (queue ++ targets edges first) (first :: found)
          (by simp only [List.length_cons, List.length_append] at hfuel ⊢; omega) (by
            intro source hsource target hedge
            rcases List.mem_cons.mp hsource with rfl | hold
            · exact .inr (List.mem_append_right _ (mem_targets.mpr hedge))
            · rcases hclosed source hold target hedge with hbefore | hqueued
              · exact .inl (List.mem_cons_of_mem _ hbefore)
              · rcases List.mem_cons.mp hqueued with rfl | hlater
                · exact .inl List.mem_cons_self
                · exact .inr (List.mem_append_left _ hlater))
        refine ⟨fun key hkey => hkept key ?_, hstep, fun key hkey => ?_⟩
        · rcases hkey with hold | hqueued
          · exact .inl (List.mem_cons_of_mem _ hold)
          · rcases List.mem_cons.mp hqueued with rfl | hlater
            · exact .inl List.mem_cons_self
            · exact .inr (List.mem_append_left _ hlater)
        · obtain ⟨origin, hfrom, hreaches⟩ := horigin key hkey
          rcases hfrom with hfound' | hqueued
          · rcases List.mem_cons.mp hfound' with rfl | hold
            · exact ⟨_, .inr List.mem_cons_self, hreaches⟩
            · exact ⟨origin, .inl hold, hreaches⟩
          · rcases List.mem_append.mp hqueued with hlater | htarget
            · exact ⟨origin, .inr (List.mem_cons_of_mem _ hlater), hreaches⟩
            · exact ⟨first, .inr List.mem_cons_self, .head (mem_targets.mp htarget) hreaches⟩

/-- The search finds exactly what can be reached. -/
theorem mem_reachable {edges : List (α × α)} {start key : α} :
    key ∈ reachable edges start ↔ Reaches edges start key := by
  have hpending : (pending edges []).length ≤ edges.length := List.length_filter_le _ _
  obtain ⟨hkept, hstep, horigin⟩ := search_spec edges (edges.length + 2) [start] []
    (by simp only [List.length_singleton]; omega) (fun _ hmem => absurd hmem List.not_mem_nil)
  constructor
  · intro hkey
    obtain ⟨origin, hfrom, hreaches⟩ := horigin key hkey
    rcases hfrom with hnone | hstart
    · cases hnone
    · rw [List.mem_singleton] at hstart
      rw [← hstart]
      exact hreaches
  · intro hreaches
    induction hreaches with
    | refl => exact hkept start (.inr (List.mem_singleton_self _))
    | tail _ hedge ih => exact hstep _ ih _ hedge

end Finify.Foundations.Search
