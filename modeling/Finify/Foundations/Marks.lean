/-
# Who wrote and who approved

Things with a key are written by makers and approved by checkers.  A history is the list of what
was done, the newest first.  `Kept` says that the rows of a table agree with a history: a row that
was approved and not written since has the content that was approved, and the live rows are such
rows.
-/

import Mathlib.Data.List.Basic

namespace Finify.Foundations

universe u v w x

/-- One thing was written, or approved with a content. -/
inductive Mark (κ : Type u) (τ : Type v) (α : Type w)
  | wrote (key : κ) (actor : τ)
  | approved (key : κ) (actor : τ) (content : α)

namespace Mark

variable {κ : Type u} {τ : Type v} {α : Type w}

/-- The thing that was written or approved. -/
def key : Mark κ τ α → κ
  | wrote key _ => key
  | approved key _ _ => key

variable [DecidableEq κ]

/-- Everybody who wrote a thing, the last one first. -/
def writers (k : κ) : List (Mark κ τ α) → List τ
  | [] => []
  | wrote key actor :: earlier => if key = k then actor :: writers k earlier else writers k earlier
  | approved _ _ _ :: earlier => writers k earlier

/-- The last approval of a thing: who approved what. -/
def approval? (k : κ) : List (Mark κ τ α) → Option (τ × α)
  | [] => none
  | wrote _ _ :: earlier => approval? k earlier
  | approved key actor content :: earlier =>
    if key = k then some (actor, content) else approval? k earlier

/-- The last approval of a thing that has not been written since. -/
def standing? (k : κ) : List (Mark κ τ α) → Option (τ × α)
  | [] => none
  | wrote key _ :: earlier => if key = k then none else standing? k earlier
  | approved key actor content :: earlier =>
    if key = k then some (actor, content) else standing? k earlier

variable {k : κ} {history : List (Mark κ τ α)} {mark : Mark κ τ α}

theorem standing?_of_ne (hne : mark.key ≠ k) :
    standing? k (mark :: history) = standing? k history := by
  cases mark with
  | wrote key actor => exact if_neg hne
  | approved key actor content => exact if_neg hne

theorem writers_of_ne (hne : mark.key ≠ k) : writers k (mark :: history) = writers k history := by
  cases mark with
  | wrote key actor => exact if_neg hne
  | approved key actor content => rfl

@[simp] theorem standing?_wrote (actor : τ) : standing? k (wrote k actor :: history) = none :=
  if_pos rfl

@[simp] theorem standing?_approved (actor : τ) (content : α) :
    standing? k (approved k actor content :: history) = some (actor, content) :=
  if_pos rfl

/-- An approval that stands is the last one. -/
theorem approval?_of_standing? {approved : τ × α} (hstanding : standing? k history = some approved) :
    approval? k history = some approved := by
  induction history with
  | nil => cases hstanding
  | cons mark earlier ih =>
    cases mark with
    | wrote key actor =>
      by_cases hkey : key = k
      · rw [standing?, if_pos hkey] at hstanding
        cases hstanding
      · rw [standing?, if_neg hkey] at hstanding
        exact ih hstanding
    | approved key actor content =>
      by_cases hkey : key = k
      · rw [standing?, if_pos hkey] at hstanding
        rw [approval?, if_pos hkey, hstanding]
      · rw [standing?, if_neg hkey] at hstanding
        rw [approval?, if_neg hkey]
        exact ih hstanding

end Mark

/-! ## Tables that agree with a history -/

/-- How a row is read: its key, its content, who approved it, and whether it is live. -/
structure RowView (ρ : Type x) (κ : Type u) (τ : Type v) (α : Type w) where
  key : ρ → κ
  content : ρ → α
  approver : ρ → Option τ
  live : ρ → Prop

variable {ρ : Type x} {κ : Type u} {τ : Type v} {α : Type w} [DecidableEq κ]

/-- The rows agree with the history.  `independent` says who may approve what was written by
whom. -/
structure Kept (view : RowView ρ κ τ α) (independent : τ → List τ → Prop) (rows : List ρ)
    (history : List (Mark κ τ α)) : Prop where
  standing : ∀ row ∈ rows, ∀ actor content,
    Mark.standing? (view.key row) history = some (actor, content) →
      view.approver row = some actor ∧ view.content row = content ∧
        independent actor (Mark.writers (view.key row) history)
  live : ∀ row ∈ rows, view.live row → (Mark.standing? (view.key row) history).isSome

/-- A row after a step agrees with the history because it comes from a row that did, whose content
is the same if an approval of it stands, because it was written and is not live, or because it was
approved. -/
inductive Follows (before after : RowView ρ κ τ α) (independent : τ → List τ → Prop)
    (rows : List ρ) (history : List (Mark κ τ α)) (mark : Option (Mark κ τ α)) (row : ρ) : Prop
  | kept (old : ρ) (hold : old ∈ rows) (hkey : after.key row = before.key old)
      (hmark : ∀ made ∈ mark, made.key ≠ before.key old)
      (happrover : after.approver row = before.approver old)
      (hcontent : (Mark.standing? (before.key old) history).isSome →
        after.content row = before.content old)
      (hlive : after.live row →
        before.live old ∨ (Mark.standing? (before.key old) history).isSome)
  | written (actor : τ) (hmark : mark = some (.wrote (after.key row) actor))
      (hlive : ¬ after.live row)
  | approved (actor : τ)
      (hmark : mark = some (.approved (after.key row) actor (after.content row)))
      (happrover : after.approver row = some actor)
      (hindependent : independent actor (Mark.writers (after.key row) history))

namespace Kept

variable {view before after : RowView ρ κ τ α} {independent : τ → List τ → Prop}
  {rows rows' : List ρ} {history : List (Mark κ τ α)} {mark : Option (Mark κ τ α)}

theorem nil : Kept view independent [] [] where
  standing := by simp
  live := by simp

/-- A step keeps the agreement if every row after it does. -/
theorem step (hkept : Kept before independent rows history)
    (hrows : ∀ row ∈ rows', Follows before after independent rows history mark row) :
    Kept after independent rows' (mark.toList ++ history) where
  standing row hrow actor content hstanding := by
    cases hrows row hrow with
    | kept old hold hkey hmark happrover hcontent hlive =>
      have hsame : Mark.standing? (before.key old) (mark.toList ++ history) =
          Mark.standing? (before.key old) history ∧
          Mark.writers (before.key old) (mark.toList ++ history) =
            Mark.writers (before.key old) history := by
        cases mark with
        | none => exact ⟨rfl, rfl⟩
        | some made =>
          have hne := hmark made rfl
          exact ⟨Mark.standing?_of_ne hne, Mark.writers_of_ne hne⟩
      rw [hkey, hsame.1] at hstanding
      rw [happrover, hcontent (Option.isSome_of_eq_some hstanding), hkey, hsame.2]
      exact hkept.standing old hold actor content hstanding
    | written author hmark hlive =>
      subst hmark
      simp at hstanding
    | approved checker hmark happrover hindependent =>
      subst hmark
      simp only [Option.toList_some, List.singleton_append, Mark.standing?_approved,
        Option.some.injEq, Prod.mk.injEq] at hstanding
      rw [← hstanding.1]
      exact ⟨happrover, hstanding.2, hindependent⟩
  live row hrow hislive := by
    cases hrows row hrow with
    | kept old hold hkey hmark happrover hcontent hlive =>
      have hsame : Mark.standing? (before.key old) (mark.toList ++ history) =
          Mark.standing? (before.key old) history := by
        cases mark with
        | none => rfl
        | some made => exact Mark.standing?_of_ne (hmark made rfl)
      rw [hkey, hsame]
      exact (hlive hislive).elim (hkept.live old hold) id
    | written author hmark hlive => exact absurd hislive hlive
    | approved checker hmark happrover hindependent =>
      subst hmark
      simp

/-- What the agreement says of a live row. -/
theorem of_live (hkept : Kept view independent rows history) {row : ρ} (hrow : row ∈ rows)
    (hlive : view.live row) :
    ∃ actor, Mark.approval? (view.key row) history = some (actor, view.content row) ∧
      view.approver row = some actor ∧
      independent actor (Mark.writers (view.key row) history) := by
  obtain ⟨approved, hstanding⟩ := Option.isSome_iff_exists.mp (hkept.live row hrow hlive)
  obtain ⟨happrover, hcontent, hindependent⟩ :=
    hkept.standing row hrow approved.1 approved.2 hstanding
  refine ⟨approved.1, ?_, happrover, hindependent⟩
  rw [hcontent]
  exact Mark.approval?_of_standing? hstanding

end Kept

end Finify.Foundations
