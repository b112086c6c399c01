/-
# Joined texts

Texts put one after another with a separator between them, and a closing mark behind them, are told
apart again when each of them is: what follows a text begins with the separator or the closing mark.
-/

import Mathlib.Data.List.Basic

namespace Finify.Foundations

variable {α β : Type} {isMark : β → Prop} {print : α → List β}

/-- `texts.join(separator)`. -/
def joined (separator : β) : List (List β) → List β
  | [] => []
  | text :: rest => text ++ rest.flatMap (separator :: ·)

/-- Nothing follows, or a mark. -/
def Marked (isMark : β → Prop) (rest : List β) : Prop := ∀ next ∈ rest.head?, isMark next

/-- In front of a mark the text of the item is that of no other, nor longer or shorter. -/
def ReadsAs (isMark : β → Prop) (print : α → List β) (item : α) : Prop :=
  ∀ (other : α) (rest rest' : List β), Marked isMark rest → Marked isMark rest' →
    print item ++ rest = print other ++ rest' → item = other ∧ rest = rest'

theorem marked_cons {next : β} (hnext : isMark next) (rest : List β) :
    Marked isMark (next :: rest) := by
  intro other hother
  rw [List.head?_cons, Option.mem_some_iff] at hother
  rw [← hother]
  exact hnext

section Joined

variable {separator closing : β} {items others : List α} {rest rest' : List β}

theorem marked_tails (hseparator : isMark separator) (hclosing : isMark closing)
    (items : List α) (rest : List β) :
    Marked isMark ((items.map print).flatMap (separator :: ·) ++ closing :: rest) := by
  cases items with
  | nil => exact marked_cons hclosing rest
  | cons item items => exact marked_cons hseparator _

/-- Texts that each follow a separator are told apart. -/
theorem tails_read (hseparator : isMark separator) (hclosing : isMark closing)
    (hne : separator ≠ closing) (hitems : ∀ item ∈ items, ReadsAs isMark print item)
    (heq : (items.map print).flatMap (separator :: ·) ++ closing :: rest =
      (others.map print).flatMap (separator :: ·) ++ closing :: rest') :
    items = others ∧ rest = rest' := by
  induction items generalizing others with
  | nil =>
    cases others with
    | nil => exact ⟨rfl, (List.cons.inj heq).2⟩
    | cons other others => exact absurd (List.cons.inj heq).1.symm hne
  | cons item items ih =>
    cases others with
    | nil => exact absurd (List.cons.inj heq).1 hne
    | cons other others =>
      simp only [List.map_cons, List.flatMap_cons, List.cons_append, List.append_assoc] at heq
      obtain ⟨hhead, htail⟩ := hitems item List.mem_cons_self other _ _
        (marked_tails hseparator hclosing items rest)
        (marked_tails hseparator hclosing others rest') (List.cons.inj heq).2
      obtain ⟨hrest, hend⟩ := ih (fun later hlater => hitems later (List.mem_cons_of_mem _ hlater))
        htail
      exact ⟨by rw [hhead, hrest], hend⟩

/-- Joined texts are told apart. -/
theorem joined_read (hseparator : isMark separator) (hclosing : isMark closing)
    (hne : separator ≠ closing)
    (hstart : ∀ item : α, ∃ first later, print item = first :: later ∧ first ≠ closing)
    (hitems : ∀ item ∈ items, ReadsAs isMark print item)
    (heq : joined separator (items.map print) ++ closing :: rest =
      joined separator (others.map print) ++ closing :: rest') :
    items = others ∧ rest = rest' := by
  cases items with
  | nil =>
    cases others with
    | nil => exact ⟨rfl, (List.cons.inj heq).2⟩
    | cons other others =>
      obtain ⟨first, later, hprint, hfirst⟩ := hstart other
      simp only [List.map_cons, joined, hprint, List.cons_append] at heq
      exact absurd (List.cons.inj heq).1.symm hfirst
  | cons item items =>
    cases others with
    | nil =>
      obtain ⟨first, later, hprint, hfirst⟩ := hstart item
      simp only [List.map_cons, joined, hprint, List.cons_append] at heq
      exact absurd (List.cons.inj heq).1 hfirst
    | cons other others =>
      simp only [List.map_cons, joined, List.append_assoc] at heq
      obtain ⟨hhead, htail⟩ := hitems item List.mem_cons_self other _ _
        (marked_tails hseparator hclosing items rest)
        (marked_tails hseparator hclosing others rest') heq
      obtain ⟨hrest, hend⟩ := tails_read hseparator hclosing hne
        (fun later hlater => hitems later (List.mem_cons_of_mem _ hlater)) htail
      exact ⟨by rw [hhead, hrest], hend⟩

end Joined

end Finify.Foundations
