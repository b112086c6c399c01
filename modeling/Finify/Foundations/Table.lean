/-
# Keyed tables

Two kinds of table with the guarantees a database gives them.  `Table key` has a
primary key: no two rows share one, and inserting a second is refused.  `Log
serial` draws its key from a sequence: rows are only appended, every stored key
is below the next value, so insertion order is key order and an insertion always
succeeds.  Both carry the guarantee as a field, so that no operation can break
it.
-/

import Mathlib.Algebra.BigOperators.Group.List.Basic
import Mathlib.Data.List.MinMax
import Mathlib.Data.List.Nodup
import Mathlib.Tactic.Abel

namespace Finify.Foundations

universe u v w

/-! ## The first and the last row -/

section Ordered

variable {ρ : Type u} {α : Type v} [LinearOrder α] {key : ρ → α} {rows : List ρ}

/-- `ORDER BY key DESC LIMIT 1`. -/
def latest (key : ρ → α) (rows : List ρ) : Option ρ := rows.argmax key

/-- `ORDER BY key LIMIT 1`. -/
def earliest (key : ρ → α) (rows : List ρ) : Option ρ := rows.argmin key

theorem latest_mem {row : ρ} (hlatest : latest key rows = some row) : row ∈ rows :=
  List.argmax_mem hlatest

theorem earliest_mem {row : ρ} (hearliest : earliest key rows = some row) : row ∈ rows :=
  List.argmin_mem hearliest

theorem le_latest {row other : ρ} (hlatest : latest key rows = some row) (hother : other ∈ rows) :
    key other ≤ key row :=
  List.le_of_mem_argmax hother hlatest

theorem earliest_le {row other : ρ} (hearliest : earliest key rows = some row)
    (hother : other ∈ rows) : key row ≤ key other :=
  List.le_of_mem_argmin hother hearliest

theorem latest_eq_none : latest key rows = none ↔ rows = [] :=
  List.argmax_eq_none

theorem earliest_eq_none : earliest key rows = none ↔ rows = [] :=
  List.argmin_eq_none

/-- The latest row depends only on how the keys of the rows compare. -/
theorem latest_congr {β : Type w} [LinearOrder β] {other : ρ → β}
    (hsame : ∀ first ∈ rows, ∀ second ∈ rows,
      (key first < key second ↔ other first < other second)) :
    latest key rows = latest other rows := by
  induction rows using List.reverseRecOn with
  | nil => rfl
  | append_singleton rows last ih =>
    have hrows := ih fun first hfirst second hsecond =>
      hsame first (List.mem_append_left _ hfirst) second (List.mem_append_left _ hsecond)
    unfold latest at hrows ⊢
    rw [List.argmax_concat, List.argmax_concat, hrows]
    cases hlatest : List.argmax other rows with
    | none => rfl
    | some row =>
      simp only [hsame row (List.mem_append_left _ (List.argmax_mem hlatest)) last (by simp)]

/-- Of rows in increasing order the latest is the last. -/
theorem latest_of_increasing
    (hincreasing : rows.Pairwise fun earlier later => key earlier < key later) :
    latest key rows = rows.getLast? := by
  rcases List.eq_nil_or_concat rows with rfl | ⟨init, last, rfl⟩
  · rfl
  · rw [List.concat_eq_append] at hincreasing ⊢
    rw [List.getLast?_concat]
    cases hlatest : latest key (init ++ [last]) with
    | none => simp [latest_eq_none] at hlatest
    | some row =>
      rcases List.mem_append.mp (latest_mem hlatest) with hinit | hlast
      · have hless := (List.pairwise_append.mp hincreasing).2.2 row hinit last (by simp)
        exact absurd (le_latest hlatest (by simp)) (not_le.mpr hless)
      · rw [List.mem_singleton.mp hlast]

/-- Of rows in increasing order the earliest is the first. -/
theorem earliest_of_increasing
    (hincreasing : rows.Pairwise fun earlier later => key earlier < key later) :
    earliest key rows = rows.head? := by
  cases rows with
  | nil => rfl
  | cons first rest =>
    cases hearliest : earliest key (first :: rest) with
    | none => simp [earliest_eq_none] at hearliest
    | some row =>
      cases List.mem_cons.mp (earliest_mem hearliest) with
      | inl hfirst => rw [hfirst, List.head?_cons]
      | inr hrest =>
        have hless := List.rel_of_pairwise_cons hincreasing hrest
        exact absurd (earliest_le hearliest (by simp)) (not_le.mpr hless)

/-- Sorted rows up to a key are those before it and those of it. -/
theorem filter_le_eq_append (k : α)
    (hsorted : rows.Pairwise fun earlier later => key earlier ≤ key later) :
    (rows.filter fun row => key row ≤ k) =
      (rows.filter fun row => key row < k) ++ rows.filter fun row => key row = k := by
  induction rows with
  | nil => rfl
  | cons row rows ih =>
    obtain ⟨hfirst, hrest⟩ := List.pairwise_cons.mp hsorted
    rcases lt_trichotomy (key row) k with hlt | heq | hgt
    · simp [hlt, hlt.le, hlt.ne, ih hrest]
    · have hnone : (rows.filter fun row => key row < k) = [] := by
        apply List.filter_eq_nil_iff.mpr
        intro other hother
        simpa [heq] using hfirst other hother
      simp [heq, ih hrest, hnone]
    · have hnone : (rows.filter fun row => key row ≤ k) = [] := by
        apply List.filter_eq_nil_iff.mpr
        intro other hother
        simpa using hgt.trans_le (hfirst other hother)
      have hsplit := ih hrest
      rw [hnone] at hsplit
      simp [hgt.not_ge, hgt.le.not_gt, hgt.ne', hnone, ← hsplit]

end Ordered

/-! ## Tables with a primary key -/

/-- Rows no two of which have the same key. -/
structure Table {ρ : Type u} {κ : Type v} (key : ρ → κ) where
  rows : List ρ
  nodup : (rows.map key).Nodup

namespace Table

variable {ρ : Type u} {κ : Type v} {key : ρ → κ}

/-- The table without rows. -/
def empty : Table key := ⟨[], by simp⟩

@[simp] theorem rows_empty : (empty : Table key).rows = [] := rfl

/-- The table of one row. -/
def single (row : ρ) : Table key := ⟨[row], List.nodup_singleton _⟩

/-- Two rows of one table with the same key are the same row. -/
theorem eq_of_key_eq (table : Table key) {first second : ρ} (hfirst : first ∈ table.rows)
    (hsecond : second ∈ table.rows) (hkey : key first = key second) : first = second :=
  List.inj_on_of_nodup_map table.nodup hfirst hsecond hkey

/-- Rewrite every row without touching its key. -/
def map (table : Table key) (change : ρ → ρ) (hkey : ∀ row, key (change row) = key row) :
    Table key where
  rows := table.rows.map change
  nodup := by
    have hkeys : (table.rows.map change).map key = table.rows.map key := by
      simp [Function.comp_def, hkey]
    rw [hkeys]
    exact table.nodup

@[simp] theorem rows_map (table : Table key) (change : ρ → ρ)
    (hkey : ∀ row, key (change row) = key row) :
    (table.map change hkey).rows = table.rows.map change := rfl

/-- Delete the rows of some keys and store fresh rows under such keys. -/
def replace (table : Table key) (select : κ → Bool) (fresh : List ρ)
    (hnodup : (fresh.map key).Nodup) (hselect : ∀ row ∈ fresh, select (key row)) :
    Table key where
  rows := (table.rows.filter fun row => !select (key row)) ++ fresh
  nodup := by
    rw [List.map_append]
    refine List.Nodup.append (table.nodup.sublist (List.filter_sublist.map key)) hnodup ?_
    intro k hleft hright
    obtain ⟨old, hold, rfl⟩ := List.mem_map.mp hleft
    obtain ⟨row, hrow, hkey⟩ := List.mem_map.mp hright
    have hkept := (List.mem_filter.mp hold).2
    rw [← hkey, hselect row hrow] at hkept
    cases hkept

@[simp] theorem rows_replace (table : Table key) (select : κ → Bool) (fresh : List ρ)
    (hnodup : (fresh.map key).Nodup) (hselect : ∀ row ∈ fresh, select (key row)) :
    (table.replace select fresh hnodup hselect).rows =
      (table.rows.filter fun row => !select (key row)) ++ fresh := rfl

/-- The rows of the replaced keys are the fresh ones. -/
theorem filter_replace (table : Table key) (select : κ → Bool) (fresh : List ρ)
    (hnodup : (fresh.map key).Nodup) (hselect : ∀ row ∈ fresh, select (key row)) :
    ((table.replace select fresh hnodup hselect).rows.filter fun row => select (key row)) =
      fresh := by
  have hold : ((table.rows.filter fun row => !select (key row)).filter fun row =>
      select (key row)) = [] := by
    rw [List.filter_filter]
    apply List.filter_eq_nil_iff.mpr
    intro row _
    simp
  rw [rows_replace, List.filter_append, hold, List.filter_eq_self.mpr hselect, List.nil_append]

variable [DecidableEq κ]

/-- The row stored under a key. -/
def find? (table : Table key) (k : κ) : Option ρ :=
  table.rows.find? fun row => decide (key row = k)

theorem find?_eq_some {table : Table key} {k : κ} {row : ρ} :
    table.find? k = some row ↔ row ∈ table.rows ∧ key row = k := by
  constructor
  · intro hfind
    exact ⟨List.mem_of_find?_eq_some hfind, by simpa using List.find?_some hfind⟩
  · rintro ⟨hmem, rfl⟩
    cases hfind : table.find? (key row) with
    | none =>
      have := List.find?_eq_none.mp hfind row hmem
      simp at this
    | some other =>
      have hother : key other = key row := by simpa using List.find?_some hfind
      rw [table.eq_of_key_eq (List.mem_of_find?_eq_some hfind) hmem hother]

theorem find?_key {table : Table key} {row : ρ} (hmem : row ∈ table.rows) :
    table.find? (key row) = some row :=
  find?_eq_some.mpr ⟨hmem, rfl⟩

theorem find?_eq_none {table : Table key} {k : κ} :
    table.find? k = none ↔ ∀ row ∈ table.rows, key row ≠ k := by
  simp [find?]

@[simp] theorem find?_map (table : Table key) (change : ρ → ρ)
    (hkey : ∀ row, key (change row) = key row) (k : κ) :
    (table.map change hkey).find? k = (table.find? k).map change := by
  unfold find?
  rw [rows_map, List.find?_map]
  simp [Function.comp_def, hkey]

def modify (table : Table key) (k : κ) (change : ρ → ρ)
    (hkey : ∀ row, key (change row) = key row) : Table key :=
  table.map (fun row => if key row = k then change row else row) fun row => by
    split <;> simp [hkey]

@[simp] theorem find?_modify_self (table : Table key) (k : κ) (change : ρ → ρ)
    (hkey : ∀ row, key (change row) = key row) :
    (table.modify k change hkey).find? k = (table.find? k).map change := by
  rw [modify, find?_map]
  cases hfind : table.find? k with
  | none => rfl
  | some row => simp [(find?_eq_some.mp hfind).2]

theorem find?_modify_of_ne (table : Table key) {k other : κ} (hne : other ≠ k) (change : ρ → ρ)
    (hkey : ∀ row, key (change row) = key row) :
    (table.modify k change hkey).find? other = table.find? other := by
  rw [modify, find?_map]
  cases hfind : table.find? other with
  | none => rfl
  | some row => simp [(find?_eq_some.mp hfind).2, hne]

theorem find?_modify (table : Table key) (k : κ) (change : ρ → ρ)
    (hkey : ∀ row, key (change row) = key row) (other : κ) :
    (table.modify k change hkey).find? other =
      if other = k then (table.find? other).map change else table.find? other := by
  split
  case isTrue hsame =>
    rw [hsame, find?_modify_self]
  case isFalse hne => exact find?_modify_of_ne _ hne _ _

/-- The rewritten row is found under its key. -/
theorem find?_modify_of_find? {table : Table key} {k : κ} {row : ρ}
    (hrow : table.find? k = some row) (change : ρ → ρ) (hkey : ∀ row, key (change row) = key row) :
    (table.modify k change hkey).find? k = some (change row) := by
  rw [find?_modify_self, hrow]
  rfl

/-- Store a row whose key is not taken. -/
def add (table : Table key) (row : ρ) (hfresh : ∀ other ∈ table.rows, key other ≠ key row) :
    Table key where
  rows := table.rows ++ [row]
  nodup := by
    rw [List.map_append]
    refine List.Nodup.append table.nodup (by simp) ?_
    intro k hleft hright
    obtain ⟨other, hother, rfl⟩ := List.mem_map.mp hleft
    exact hfresh other hother (by simpa using hright)

/-- Store a new row, unless its key is taken. -/
def insert? (table : Table key) (row : ρ) : Option (Table key) :=
  if hfresh : ∀ other ∈ table.rows, key other ≠ key row then some (table.add row hfresh)
  else none

/-- Store a new row, or rewrite the one that has its key. -/
def upsert (table : Table key) (row : ρ) (change : ρ → ρ)
    (hkey : ∀ row, key (change row) = key row) : Table key :=
  if hfresh : ∀ other ∈ table.rows, key other ≠ key row then table.add row hfresh
  else table.modify (key row) change hkey

theorem insert?_eq_some {table table' : Table key} {row : ρ}
    (hinsert : table.insert? row = some table') :
    table.find? (key row) = none ∧ table'.rows = table.rows ++ [row] := by
  unfold insert? at hinsert
  split at hinsert
  case isTrue hfresh =>
    cases hinsert
    exact ⟨find?_eq_none.mpr hfresh, rfl⟩
  case isFalse => cases hinsert

theorem insert?_of_fresh {table : Table key} {row : ρ} (hfresh : table.find? (key row) = none) :
    ∃ table', table.insert? row = some table' :=
  ⟨_, dif_pos (find?_eq_none.mp hfresh)⟩

theorem find?_of_insert? {table table' : Table key} {row : ρ}
    (hinsert : table.insert? row = some table') (k : κ) :
    table'.find? k = if k = key row then some row else table.find? k := by
  obtain ⟨hfresh, hrows⟩ := insert?_eq_some hinsert
  unfold find? at hfresh ⊢
  rw [hrows, List.find?_append]
  by_cases hk : k = key row
  · subst hk
    simp [hfresh]
  · cases table.rows.find? (fun other => decide (key other = k)) <;> simp [hk, Ne.symm hk]

/-- Delete the row stored under a key. -/
def erase (table : Table key) (k : κ) : Table key where
  rows := table.rows.filter fun row => decide (key row ≠ k)
  nodup := table.nodup.sublist (List.filter_sublist.map key)

theorem mem_erase {table : Table key} {k : κ} {row : ρ} :
    row ∈ (table.erase k).rows ↔ row ∈ table.rows ∧ key row ≠ k := by
  simp [erase]

theorem find?_upsert (table : Table key) (row : ρ) (change : ρ → ρ)
    (hkey : ∀ row, key (change row) = key row) (k : κ) :
    (table.upsert row change hkey).find? k =
      if k = key row then some ((table.find? k).elim row change) else table.find? k := by
  unfold upsert
  split
  case isTrue hfresh =>
    have hinsert : table.insert? row = some (table.add row hfresh) := dif_pos hfresh
    rw [find?_of_insert? hinsert]
    by_cases hk : k = key row
    · subst hk
      rw [if_pos rfl, if_pos rfl, find?_eq_none.mpr hfresh]
      rfl
    · rw [if_neg hk, if_neg hk]
  case isFalse htaken =>
    by_cases hk : k = key row
    · subst hk
      rw [if_pos rfl, find?_modify_self]
      cases hfind : table.find? (key row) with
      | none => exact absurd (find?_eq_none.mp hfind) htaken
      | some other => rfl
    · rw [if_neg hk, find?_modify_of_ne _ hk]

theorem mem_upsert {table : Table key} {row : ρ} {change : ρ → ρ}
    {hkey : ∀ row, key (change row) = key row} {other : ρ}
    (hother : other ∈ (table.upsert row change hkey).rows) :
    (key other = key row ∧ other = (table.find? (key row)).elim row change) ∨
      (key other ≠ key row ∧ other ∈ table.rows) := by
  have hfind := find?_upsert table row change hkey (key other)
  rw [find?_key hother] at hfind
  by_cases hsame : key other = key row
  · rw [if_pos hsame, Option.some.injEq, hsame] at hfind
    exact .inl ⟨hsame, hfind⟩
  · rw [if_neg hsame] at hfind
    exact .inr ⟨hsame, (find?_eq_some.mp hfind.symm).1⟩

/-- The selected rows stay as they were if neither the row that is stored nor the one that is
rewritten is among them. -/
theorem filter_upsert_of_not {table : Table key} {row : ρ} {change : ρ → ρ}
    {hkey : ∀ row, key (change row) = key row} {select : ρ → Bool}
    (hnew : select ((table.find? (key row)).elim row change) = false)
    (hold : ∀ old ∈ table.find? (key row), select old = false) :
    (table.upsert row change hkey).rows.filter select = table.rows.filter select := by
  by_cases hfresh : ∀ other ∈ table.rows, key other ≠ key row
  · rw [find?_eq_none.mpr hfresh] at hnew
    rw [upsert, dif_pos hfresh]
    change (table.rows ++ [row]).filter select = _
    have hrow : [row].filter select = [] := List.filter_eq_nil_iff.mpr (by simpa using hnew)
    rw [List.filter_append, hrow, List.append_nil]
  · rw [upsert, dif_neg hfresh]
    change (table.rows.map fun other => if key other = key row then change other else other).filter
      select = _
    rw [List.filter_map]
    have hselect : table.rows.filter
        (select ∘ fun other => if key other = key row then change other else other) =
          table.rows.filter select := by
      apply List.filter_congr
      intro other hother
      by_cases hsame : key other = key row
      · have hfind : table.find? (key row) = some other := hsame ▸ find?_key hother
        rw [hfind] at hnew
        rw [Function.comp_apply, if_pos hsame, hold other hfind]
        exact hnew
      · rw [Function.comp_apply, if_neg hsame]
    rw [hselect]
    apply (List.map_congr_left ?_).trans (List.map_id _)
    intro other hother
    obtain ⟨hmem, hselected⟩ := List.mem_filter.mp hother
    by_cases hsame : key other = key row
    · have hfind : table.find? (key row) = some other := hsame ▸ find?_key hmem
      rw [hold other hfind] at hselected
      cases hselected
    · exact if_neg hsame

/-- Storing or rewriting a row leaves the table as it was exactly when a row is there that
the rewriting does not change. -/
theorem upsert_eq_self {table : Table key} {row : ρ} {change : ρ → ρ}
    {hkey : ∀ row, key (change row) = key row} :
    table.upsert row change hkey = table ↔
      ∃ old, table.find? (key row) = some old ∧ change old = old := by
  constructor
  · intro hsame
    have hfind := find?_upsert table row change hkey (key row)
    rw [hsame, if_pos rfl] at hfind
    cases hold : table.find? (key row) with
    | none =>
      rw [hold] at hfind
      cases hfind
    | some old =>
      rw [hold] at hfind
      exact ⟨old, rfl, (Option.some.inj hfind).symm⟩
  · intro ⟨old, hold, hunchanged⟩
    obtain ⟨hmem, hkeyOld⟩ := find?_eq_some.mp hold
    have htaken : ¬ ∀ other ∈ table.rows, key other ≠ key row := fun hfresh =>
      hfresh old hmem hkeyOld
    have hrows : table.rows.map (fun other => if key other = key row then change other else other) =
        table.rows := by
      apply (List.map_congr_left ?_).trans (List.map_id _)
      intro other hother
      by_cases hsame : key other = key row
      · rw [if_pos hsame, table.eq_of_key_eq hother hmem (hsame.trans hkeyOld.symm), hunchanged, id]
      · exact if_neg hsame
    rw [upsert, dif_neg htaken]
    cases table
    simpa only [modify, map, mk.injEq] using hrows

/-- Changing one row changes a column's total by what the column changes there. -/
theorem sum_modify {α : Type w} [AddCommGroup α] (column : ρ → α) {table : Table key} {k : κ}
    {row : ρ} (hfind : table.find? k = some row) (change : ρ → ρ)
    (hkey : ∀ row, key (change row) = key row) :
    ((table.modify k change hkey).rows.map column).sum =
      (table.rows.map column).sum + (column (change row) - column row) := by
  obtain ⟨hmem, rfl⟩ := find?_eq_some.mp hfind
  obtain ⟨before, after, hrows⟩ := List.append_of_mem hmem
  have hnodup := table.nodup
  rw [hrows, List.map_append, List.map_cons, List.nodup_middle, List.nodup_cons] at hnodup
  have houtside : ∀ other ∈ before ++ after, key other ≠ key row := by
    intro other hother hsame
    exact hnodup.1 (by rw [← hsame, ← List.map_append]; exact List.mem_map_of_mem hother)
  have hbefore : before.map (fun r => if key r = key row then change r else r) = before :=
    (List.map_congr_left fun other hother =>
      if_neg (houtside other (List.mem_append_left _ hother))).trans (List.map_id _)
  have hafter : after.map (fun r => if key r = key row then change r else r) = after :=
    (List.map_congr_left fun other hother =>
      if_neg (houtside other (List.mem_append_right _ hother))).trans (List.map_id _)
  rw [modify, rows_map, hrows]
  simp only [List.map_append, List.map_cons, hbefore, hafter, if_true, List.sum_append,
    List.sum_cons]
  abel

/-- A sum over the row of one key. -/
theorem sum_of_key {α : Type w} [AddCommMonoid α] (table : Table key) (k : κ) (value : ρ → α) :
    (table.rows.map fun row => if k = key row then value row else 0).sum =
      (table.find? k).elim 0 value := by
  cases hfind : table.find? k with
  | none =>
    apply List.sum_eq_zero
    intro x hx
    obtain ⟨row, hrow, rfl⟩ := List.mem_map.mp hx
    exact if_neg fun hkey => find?_eq_none.mp hfind row hrow hkey.symm
  | some row =>
    obtain ⟨hmem, rfl⟩ := find?_eq_some.mp hfind
    obtain ⟨before, after, hrows⟩ := List.append_of_mem hmem
    have hnodup := table.nodup
    rw [hrows, List.map_append, List.map_cons, List.nodup_middle, List.nodup_cons] at hnodup
    have houtside : ∀ part : List ρ, (∀ other ∈ part, other ∈ before ++ after) →
        (part.map fun other => if key row = key other then value other else 0).sum = 0 := by
      intro part hpart
      apply List.sum_eq_zero
      intro x hx
      obtain ⟨other, hother, rfl⟩ := List.mem_map.mp hx
      apply if_neg
      intro hsame
      apply hnodup.1
      rw [hsame, ← List.map_append]
      exact List.mem_map_of_mem (hpart other hother)
    rw [hrows, List.map_append, List.map_cons, List.sum_append, List.sum_cons,
      houtside before fun _ => List.mem_append_left _,
      houtside after fun _ => List.mem_append_right _, if_pos rfl, zero_add, add_zero]
    rfl

/-- A join with the rows that records refer to, summed by rows or by records. -/
theorem sum_join {α : Type w} [AddCommMonoid α] {σ : Type*} (table : Table key)
    (refersTo : σ → κ) (value : ρ → σ → α) (records : List σ) :
    (table.rows.map fun row =>
      ((records.filter fun record => refersTo record = key row).map (value row)).sum).sum =
        (records.map fun record =>
          (table.find? (refersTo record)).elim 0 fun row => value row record).sum := by
  induction records with
  | nil =>
    apply List.sum_eq_zero
    intro x hx
    obtain ⟨row, _, rfl⟩ := List.mem_map.mp hx
    rfl
  | cons record records ih =>
    have hsplit : ∀ row, (((record :: records).filter fun other =>
        refersTo other = key row).map (value row)).sum =
        (if refersTo record = key row then value row record else 0) +
          ((records.filter fun other => refersTo other = key row).map (value row)).sum := by
      intro row
      by_cases href : refersTo record = key row
      · simp [href]
      · simp [href]
    simp only [hsplit, List.map_cons, List.sum_cons]
    rw [List.sum_map_add, sum_of_key, ih]

end Table

/-! ## Tables whose key is drawn from a sequence -/

/-- Appended rows with increasing serial numbers, all below the next one. -/
structure Log {ρ : Type u} (serial : ρ → ℕ) where
  rows : List ρ
  next : ℕ
  increasing : rows.Pairwise fun earlier later => serial earlier < serial later
  below : ∀ row ∈ rows, serial row < next

namespace Log

variable {ρ : Type u} {serial : ρ → ℕ}

/-- The log without rows, whose first serial number will be `1`. -/
def empty : Log serial := ⟨[], 1, List.Pairwise.nil, by simp⟩

@[simp] theorem rows_empty : (empty : Log serial).rows = [] := rfl

/-- Append the row that `make` builds around the next serial number. -/
def append (log : Log serial) (make : ℕ → ρ) (hserial : ∀ n, serial (make n) = n) :
    Log serial where
  rows := log.rows ++ [make log.next]
  next := log.next + 1
  increasing := by
    refine List.pairwise_append.mpr ⟨log.increasing, by simp, ?_⟩
    intro earlier hearlier later hlater
    rw [List.mem_singleton.mp hlater, hserial]
    exact log.below earlier hearlier
  below := by
    intro row hrow
    rcases List.mem_append.mp hrow with hold | hnew
    · exact Nat.lt_succ_of_lt (log.below row hold)
    · rw [List.mem_singleton.mp hnew, hserial]
      exact Nat.lt_succ_self _

@[simp] theorem rows_append (log : Log serial) (make : ℕ → ρ)
    (hserial : ∀ n, serial (make n) = n) :
    (log.append make hserial).rows = log.rows ++ [make log.next] := rfl

/-- Rewrite every row without touching its serial number. -/
def map (log : Log serial) (change : ρ → ρ) (hserial : ∀ row, serial (change row) = serial row) :
    Log serial where
  rows := log.rows.map change
  next := log.next
  increasing := by
    rw [List.pairwise_map]
    exact log.increasing.imp fun h => by simpa [hserial] using h
  below := by
    intro row hrow
    obtain ⟨old, hold, rfl⟩ := List.mem_map.mp hrow
    rw [hserial]
    exact log.below old hold

@[simp] theorem rows_map (log : Log serial) (change : ρ → ρ)
    (hserial : ∀ row, serial (change row) = serial row) :
    (log.map change hserial).rows = log.rows.map change := rfl

/-- No serial number occurs twice. -/
theorem nodup_serial (log : Log serial) : (log.rows.map serial).Nodup :=
  (List.pairwise_map.mpr log.increasing).imp fun hlt => hlt.ne

/-- Two rows of one log with the same serial number are the same row. -/
theorem eq_of_serial_eq (log : Log serial) {first second : ρ} (hfirst : first ∈ log.rows)
    (hsecond : second ∈ log.rows) (hserial : serial first = serial second) : first = second :=
  List.inj_on_of_nodup_map log.nodup_serial hfirst hsecond hserial

/-- The row with a serial number. -/
def find? (log : Log serial) (n : ℕ) : Option ρ :=
  log.rows.find? fun row => decide (serial row = n)

theorem find?_eq_some {log : Log serial} {n : ℕ} {row : ρ} :
    log.find? n = some row ↔ row ∈ log.rows ∧ serial row = n := by
  constructor
  · intro hfind
    exact ⟨List.mem_of_find?_eq_some hfind, by simpa using List.find?_some hfind⟩
  · rintro ⟨hmem, rfl⟩
    cases hfind : log.find? (serial row) with
    | none =>
      have := List.find?_eq_none.mp hfind row hmem
      simp at this
    | some other =>
      have hother : serial other = serial row := by simpa using List.find?_some hfind
      rw [log.eq_of_serial_eq (List.mem_of_find?_eq_some hfind) hmem hother]

def modify (log : Log serial) (n : ℕ) (change : ρ → ρ)
    (hserial : ∀ row, serial (change row) = serial row) : Log serial :=
  log.map (fun row => if serial row = n then change row else row) fun row => by
    split <;> simp [hserial]

theorem find?_map (log : Log serial) (change : ρ → ρ)
    (hserial : ∀ row, serial (change row) = serial row) (n : ℕ) :
    (log.map change hserial).find? n = (log.find? n).map change := by
  unfold find?
  rw [rows_map, List.find?_map]
  simp [Function.comp_def, hserial]

/-- The appended row is found under its serial number only. -/
theorem find?_append_of_ne (log : Log serial) (make : ℕ → ρ) (hserial : ∀ n, serial (make n) = n)
    {n : ℕ} (hne : n ≠ log.next) : (log.append make hserial).find? n = log.find? n := by
  unfold find?
  rw [rows_append, List.find?_append]
  simp [hserial, hne.symm]

/-- Delete the rows that are not to be kept. -/
def filter (log : Log serial) (keep : ρ → Bool) : Log serial where
  rows := log.rows.filter keep
  next := log.next
  increasing := log.increasing.filter keep
  below row hrow := log.below row (List.mem_of_mem_filter hrow)

@[simp] theorem rows_filter (log : Log serial) (keep : ρ → Bool) :
    (log.filter keep).rows = log.rows.filter keep := rfl

def appendEach {ι : Type*} (log : Log serial) (items : List ι) (make : ι → ℕ → ρ)
    (hserial : ∀ item n, serial (make item n) = n) : Log serial :=
  items.foldl (fun log item => log.append (make item) (hserial item)) log

/-- The rows that are selected stay as they were if no appended row is. -/
theorem filter_appendEach {ι : Type*} (log : Log serial) (items : List ι) (make : ι → ℕ → ρ)
    (hserial : ∀ item n, serial (make item n) = n) {select : ρ → Bool}
    (hselect : ∀ item n, select (make item n) = false) :
    (log.appendEach items make hserial).rows.filter select = log.rows.filter select := by
  induction items generalizing log with
  | nil => rfl
  | cons item items ih =>
    calc ((log.append (make item) (hserial item)).appendEach items make hserial).rows.filter
            select
        = (log.append (make item) (hserial item)).rows.filter select := ih _
      _ = log.rows.filter select := by simp [hselect]

theorem find?_modify_of_ne (log : Log serial) {n other : ℕ} (hne : other ≠ n) (change : ρ → ρ)
    (hserial : ∀ row, serial (change row) = serial row) :
    (log.modify n change hserial).find? other = log.find? other := by
  rw [modify, find?_map]
  cases hfind : log.find? other with
  | none => rfl
  | some row => simp [(find?_eq_some.mp hfind).2, hne]

theorem mem_modify {log : Log serial} {n : ℕ} {change : ρ → ρ}
    {hserial : ∀ row, serial (change row) = serial row} {row : ρ} :
    row ∈ (log.modify n change hserial).rows ↔
      ∃ old ∈ log.rows, row = if serial old = n then change old else old := by
  simp only [modify, rows_map, List.mem_map, eq_comm]

end Log

end Finify.Foundations
