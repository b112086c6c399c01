/-
# Saving a row that was read earlier

A repository hands out rows as objects in memory: a call reads a row, assigns
some columns and saves the object by its key, whatever became of the row in
between.  What such a save does to one column is defined here for the two ways
of telling which columns have to be written, with the cases in which both write
what is in memory.
-/

import Mathlib.Logic.Basic

namespace Finify.Foundations

universe u

/-- The columns that a save writes: those with another value in memory than was read, or those
with another value in memory than in the row as it stands. -/
inductive Saving | changed | differing
  deriving DecidableEq

variable {α : Type u} [DecidableEq α]

def Saving.column (saving : Saving) (read memory row : α) : α :=
  match saving with
  | .changed => if memory = read then row else memory
  | .differing => if memory = row then row else memory

variable {read memory row : α}

@[simp] theorem Saving.column_differing : Saving.differing.column read memory row = memory := by
  simp only [Saving.column]
  split
  next hsame => exact hsame.symm
  next => rfl

/-- A column that the call leaves alone is not written where only changes are. -/
@[simp] theorem Saving.column_untouched : Saving.changed.column read read row = row :=
  if_pos rfl

/-- A value that is new to the call is written. -/
theorem Saving.column_assigned (saving : Saving) (hassigned : memory ≠ read) :
    saving.column read memory row = memory := by
  cases saving with
  | changed => exact if_neg hassigned
  | differing => exact column_differing

/-- A column that stands as it was read holds what is in memory. -/
theorem Saving.column_undisturbed (saving : Saving) : saving.column row memory row = memory := by
  cases saving with
  | changed =>
    simp only [Saving.column]
    split
    next hsame => exact hsame.symm
    next => rfl
  | differing => exact column_differing

/-- What a save writes of one column after it has reloaded the row: nothing where the row holds
what is in memory. -/
def written? (memory reloaded : α) : Option α :=
  if memory = reloaded then none else some memory

theorem written?_eq_some {reloaded value : α} (hwritten : written? memory reloaded = some value) :
    memory = value := by
  simp only [written?, Option.ite_none_left_eq_some, Option.some.injEq] at hwritten
  exact hwritten.2

end Finify.Foundations
