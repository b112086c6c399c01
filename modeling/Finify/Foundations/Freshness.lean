/-
# Looking up the latest of the rows that have not expired

Each row has a time and an expiry.  A look-up returns any one of the latest rows among those that
have not expired.  Which rows will ever be returned is decided by which rows outrank which.
-/

import Mathlib.Data.List.MinMax

namespace Finify.Foundations

universe u

variable {ρ : Type u}

/-- The look-up may return the row. -/
def Answers (time expiry : ρ → ℤ) (rows : List ρ) (now : ℤ) (row : ρ) : Prop :=
  row ∈ rows ∧ now < expiry row ∧ ∀ other ∈ rows, now < expiry other → time other ≤ time row

/-- The look-up may return this. -/
def LooksUp (time expiry : ρ → ℤ) (rows : List ρ) (now : ℤ) : Option ρ → Prop
  | none => ∀ row ∈ rows, expiry row ≤ now
  | some row => Answers time expiry rows now row

/-- The first row is later and lasts as long. -/
def Outranks (time expiry : ρ → ℤ) (first second : ρ) : Prop :=
  time second < time first ∧ expiry second ≤ expiry first

instance [DecidableEq ρ] (time expiry : ρ → ℤ) (rows : List ρ) (now : ℤ) (row : ρ) :
    Decidable (Answers time expiry rows now row) :=
  inferInstanceAs (Decidable (_ ∧ _ ∧ ∀ other ∈ rows, now < expiry other → time other ≤ time row))

instance [DecidableEq ρ] (time expiry : ρ → ℤ) (rows : List ρ) (now : ℤ) (returned : Option ρ) :
    Decidable (LooksUp time expiry rows now returned) :=
  match returned with
  | none => inferInstanceAs (Decidable (∀ row ∈ rows, expiry row ≤ now))
  | some row => inferInstanceAs (Decidable (Answers time expiry rows now row))

instance (time expiry : ρ → ℤ) (first second : ρ) : Decidable (Outranks time expiry first second) :=
  inferInstanceAs (Decidable (_ ∧ _))

variable {time expiry : ρ → ℤ} {rows left : List ρ} {now : ℤ} {row : ρ}

/-- Only the rows count, not their order. -/
theorem answers_congr (hsame : ∀ row, row ∈ left ↔ row ∈ rows) :
    Answers time expiry left now row ↔ Answers time expiry rows now row := by
  simp only [Answers, hsame]

theorem looksUp_congr (hsame : ∀ row, row ∈ left ↔ row ∈ rows) (returned : Option ρ) :
    LooksUp time expiry left now returned ↔ LooksUp time expiry rows now returned := by
  cases returned with
  | none => simp only [LooksUp, hsame]
  | some row => exact answers_congr hsame

/-- Something is returned if a row has not expired. -/
theorem exists_answers (hrow : row ∈ rows) (hfresh : now < expiry row) :
    ∃ found, Answers time expiry rows now found := by
  have hmem : row ∈ rows.filter fun other => decide (now < expiry other) :=
    List.mem_filter.mpr ⟨hrow, decide_eq_true hfresh⟩
  cases hfound : (rows.filter fun other => decide (now < expiry other)).argmax time with
  | none =>
    rw [List.argmax_eq_none.mp hfound] at hmem
    exact absurd hmem List.not_mem_nil
  | some found =>
    obtain ⟨hfoundMem, hfoundFresh⟩ := List.mem_filter.mp (List.argmax_mem hfound)
    refine ⟨found, hfoundMem, of_decide_eq_true hfoundFresh, ?_⟩
    intro other hother hotherFresh
    have hlisted : other ∈ rows.filter fun other => decide (now < expiry other) :=
      List.mem_filter.mpr ⟨hother, decide_eq_true hotherFresh⟩
    exact List.le_of_mem_argmax hlisted hfound

/-- Nothing is returned exactly if all rows have expired. -/
theorem looksUp_none_iff :
    LooksUp time expiry rows now none ↔ ∀ found, ¬ Answers time expiry rows now found := by
  constructor
  · intro hexpired found hfound
    exact absurd hfound.2.1 (not_lt.mpr (hexpired found hfound.1))
  · intro hnone row hrow
    by_contra hfresh
    obtain ⟨found, hfound⟩ := exists_answers hrow (not_le.mp hfresh)
    exact hnone found hfound

/-- A row is never returned again exactly if it has expired or is outranked. -/
theorem never_answers_iff (hrow : row ∈ rows) :
    (∀ later, now ≤ later → ¬ Answers time expiry rows later row) ↔
      expiry row ≤ now ∨ ∃ better ∈ rows, Outranks time expiry better row := by
  constructor
  · intro hnever
    by_contra hlasting
    rw [not_or, not_le, not_exists] at hlasting
    obtain ⟨hfresh, hbest⟩ := hlasting
    -- at its last moment the row is returned, as whatever lasts as long is not later
    apply hnever (expiry row - 1) (by omega)
    refine ⟨hrow, by omega, ?_⟩
    intro other hother hotherFresh
    by_contra hlater
    exact hbest other ⟨hother, not_le.mp hlater, by omega⟩
  · rintro (hexpired | ⟨better, hbetter, hlater, hlonger⟩) later hle hanswers
    · have := hanswers.2.1
      omega
    · have hfresh := hanswers.2.1
      have := hanswers.2.2 better hbetter (by omega)
      omega

/-- What is returned from now on is good exactly if every other row is outranked. -/
theorem answers_good_iff {good : ρ → Prop} :
    (∀ later, now ≤ later → ∀ row, Answers time expiry rows later row → good row) ↔
      ∀ row ∈ rows, ¬ good row → now < expiry row →
        ∃ better ∈ rows, Outranks time expiry better row := by
  constructor
  · intro hgood row hrow hbad hfresh
    have hnever : ∀ later, now ≤ later → ¬ Answers time expiry rows later row :=
      fun later hle hanswers => hbad (hgood later hle row hanswers)
    exact ((never_answers_iff hrow).mp hnever).resolve_left (not_le.mpr hfresh)
  · intro houtranked later hle row hanswers
    by_contra hbad
    have hfresh : now < expiry row := lt_of_le_of_lt hle hanswers.2.1
    have hbetter := houtranked row hanswers.1 hbad hfresh
    exact (never_answers_iff hanswers.1).mpr (.inr hbetter) later hle hanswers

/-- Without a row the look-ups from now on return what they did exactly if it was not to be
returned. -/
theorem looksUp_without_iff {gone : ρ}
    (hleft : ∀ row, row ∈ left ↔ row ∈ rows ∧ row ≠ gone) :
    (∀ later, now ≤ later → ∀ returned,
        (LooksUp time expiry left later returned ↔ LooksUp time expiry rows later returned)) ↔
      ∀ later, now ≤ later → ¬ Answers time expiry rows later gone := by
  constructor
  · intro hsame later hle hgone
    have hother : Answers time expiry left later gone :=
      (hsame later hle (some gone)).mpr hgone
    exact ((hleft gone).mp hother.1).2 rfl
  · intro hnever later hle
    have hanswers : ∀ row,
        Answers time expiry left later row ↔ Answers time expiry rows later row := by
      intro row
      constructor
      · rintro ⟨hrow, hfresh, hlatest⟩
        refine ⟨((hleft row).mp hrow).1, hfresh, ?_⟩
        intro other hother hotherFresh
        obtain ⟨found, hfound⟩ := exists_answers hother hotherFresh
        have hkept : found ∈ left := by
          refine (hleft found).mpr ⟨hfound.1, ?_⟩
          rintro rfl
          exact hnever later hle hfound
        exact (hfound.2.2 other hother hotherFresh).trans (hlatest found hkept hfound.2.1)
      · rintro ⟨hrow, hfresh, hlatest⟩
        refine ⟨(hleft row).mpr ⟨hrow, ?_⟩, hfresh, ?_⟩
        · rintro rfl
          exact hnever later hle ⟨hrow, hfresh, hlatest⟩
        · exact fun other hother => hlatest other ((hleft other).mp hother).1
    intro returned
    cases returned with
    | some row => exact hanswers row
    | none =>
      rw [looksUp_none_iff, looksUp_none_iff]
      exact forall_congr' fun row => not_congr (hanswers row)

end Finify.Foundations
