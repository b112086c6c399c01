/-
# Runs of blanks

A text in which every run of blanks is one blank and none is at an end.  A rewriting of the
single letters that keeps the blanks and makes none has the same such form whether or not its
argument was brought into it before.
-/

import Mathlib.Data.List.DropRight

namespace Finify.Foundations.Spacing

universe u

variable {α : Type u} (isBlank : α → Bool) (blank : α)

/-- Every run of blanks is one blank; `after` tells that the text follows a blank. -/
def collapseFrom : Bool → List α → List α
  | _, [] => []
  | after, letter :: rest =>
    if isBlank letter then
      if after then collapseFrom true rest else blank :: collapseFrom true rest
    else letter :: collapseFrom false rest

def collapse (text : List α) : List α := collapseFrom isBlank blank false text

def trim (text : List α) : List α := (text.dropWhile isBlank).rdropWhile isBlank

/-- Every run of blanks is one blank, and none is at an end. -/
def tidy (text : List α) : List α := trim isBlank (collapse isBlank blank text)

/-- A rewriting of letters that keeps the blanks and makes none. -/
structure KeepsBlanks (rewrite : α → List α) : Prop where
  keeps : ∀ letter, isBlank letter → rewrite letter = [letter]
  makes : ∀ letter, ¬ isBlank letter → ∀ other ∈ rewrite letter, ¬ isBlank other

section

variable {isBlank : α → Bool} {blank : α} {rewrite : α → List α}

theorem collapseFrom_append_letters {letters : List α}
    (hletters : ∀ letter ∈ letters, ¬ isBlank letter) (hsome : letters ≠ [])
    (after : Bool) (text : List α) :
    collapseFrom isBlank blank after (letters ++ text) =
      letters ++ collapseFrom isBlank blank false text := by
  induction letters generalizing after with
  | nil => exact absurd rfl hsome
  | cons letter letters ih =>
    have hfirst : ¬ isBlank letter := hletters letter List.mem_cons_self
    rw [List.cons_append, collapseFrom, if_neg hfirst, List.cons_append]
    cases letters with
    | nil => rfl
    | cons next rest =>
      rw [ih (fun other hother => hletters other (List.mem_cons_of_mem _ hother))
        (List.cons_ne_nil _ _)]

/-- The runs of a rewritten text are those of the rewriting of its runs. -/
theorem collapseFrom_flatMap (hrewrite : KeepsBlanks isBlank rewrite) (hblank : isBlank blank)
    (text : List α) (inner outer : Bool) (hafter : inner → outer) :
    collapseFrom isBlank blank outer ((collapseFrom isBlank blank inner text).flatMap rewrite) =
      collapseFrom isBlank blank outer (text.flatMap rewrite) := by
  induction text generalizing inner outer with
  | nil => rfl
  | cons letter rest ih =>
    rw [collapseFrom, List.flatMap_cons]
    by_cases hletter : isBlank letter
    case pos =>
      rw [if_pos hletter, hrewrite.keeps letter hletter, List.singleton_append, collapseFrom,
        if_pos hletter]
      cases inner with
      | true =>
        rw [if_pos rfl, hafter rfl, if_pos rfl]
        exact ih true true id
      | false =>
        rw [if_neg Bool.false_ne_true, List.flatMap_cons, hrewrite.keeps blank hblank,
          List.singleton_append, collapseFrom, if_pos hblank, ih true true id]
    case neg =>
      rw [if_neg hletter, List.flatMap_cons]
      by_cases hnone : rewrite letter = []
      case pos =>
        rw [hnone, List.nil_append, List.nil_append]
        exact ih false outer (fun hfalse => nomatch hfalse)
      case neg =>
        rw [collapseFrom_append_letters (hrewrite.makes letter hletter) hnone,
          collapseFrom_append_letters (hrewrite.makes letter hletter) hnone, ih false false id]

/-- Blanks before a text vanish. -/
theorem dropWhile_collapseFrom_append {blanks : List α}
    (hblanks : ∀ letter ∈ blanks, isBlank letter) (hblank : isBlank blank)
    (text : List α) (before after : Bool) :
    (collapseFrom isBlank blank before (blanks ++ text)).dropWhile isBlank =
      (collapseFrom isBlank blank after text).dropWhile isBlank := by
  induction blanks generalizing before with
  | nil =>
    cases text with
    | nil => rfl
    | cons letter rest =>
      rw [List.nil_append, collapseFrom, collapseFrom]
      by_cases hletter : isBlank letter
      case pos => cases before <;> cases after <;> simp [hletter, hblank]
      case neg => simp [hletter]
  | cons letter blanks ih =>
    have hletter : isBlank letter := hblanks letter List.mem_cons_self
    have hrest : ∀ other ∈ blanks, isBlank other :=
      fun other hother => hblanks other (List.mem_cons_of_mem _ hother)
    rw [List.cons_append, collapseFrom, if_pos hletter]
    cases before with
    | true => exact ih hrest true
    | false =>
      rw [if_neg Bool.false_ne_true, List.dropWhile_cons_of_pos hblank]
      exact ih hrest true

/-- Blanks stay blanks. -/
theorem isBlank_of_mem_collapseFrom {blanks : List α} (hblanks : ∀ letter ∈ blanks, isBlank letter)
    (hblank : isBlank blank) (after : Bool) :
    ∀ letter ∈ collapseFrom isBlank blank after blanks, isBlank letter := by
  induction blanks generalizing after with
  | nil =>
    intro letter hletter
    cases hletter
  | cons first rest ih =>
    have hrest := ih (fun letter hletter => hblanks letter (List.mem_cons_of_mem _ hletter)) true
    rw [collapseFrom, if_pos (hblanks first List.mem_cons_self)]
    cases after with
    | true => exact hrest
    | false =>
      intro letter hletter
      rcases List.mem_cons.mp hletter with rfl | hlater
      · exact hblank
      · exact hrest letter hlater

/-- Blanks after a text stay blanks. -/
theorem collapseFrom_append_blanks {blanks : List α} (hblanks : ∀ letter ∈ blanks, isBlank letter)
    (hblank : isBlank blank) (text : List α) (after : Bool) :
    ∃ more, (∀ letter ∈ more, isBlank letter) ∧
      collapseFrom isBlank blank after (text ++ blanks) =
        collapseFrom isBlank blank after text ++ more := by
  induction text generalizing after with
  | nil =>
    exact ⟨collapseFrom isBlank blank after blanks,
      isBlank_of_mem_collapseFrom hblanks hblank after, rfl⟩
  | cons letter rest ih =>
    rw [List.cons_append, collapseFrom, collapseFrom]
    split
    case isTrue =>
      obtain ⟨more, hmore, hsame⟩ := ih true
      refine ⟨more, hmore, ?_⟩
      cases after with
      | true => exact hsame
      | false => exact congrArg (blank :: ·) hsame
    case isFalse =>
      obtain ⟨more, hmore, hsame⟩ := ih false
      exact ⟨more, hmore, congrArg (letter :: ·) hsame⟩

/-- Blanks after a text are cut off with its own. -/
theorem trim_append_blanks {blanks : List α} (hblanks : ∀ letter ∈ blanks, isBlank letter)
    (text : List α) : trim isBlank (text ++ blanks) = trim isBlank text := by
  unfold trim
  rw [List.dropWhile_append]
  split
  case isTrue hnone =>
    have hempty : text.dropWhile isBlank = [] := List.isEmpty_iff.mp hnone
    rw [hempty, List.dropWhile_eq_nil_iff.mpr hblanks]
  case isFalse =>
    rw [List.rdropWhile, List.rdropWhile, List.reverse_append, List.dropWhile_append_of_pos]
    intro letter hletter
    exact hblanks letter (List.mem_reverse.mp hletter)

/-- Blanks around a text vanish. -/
theorem tidy_append_blanks {before after : List α} (hbefore : ∀ letter ∈ before, isBlank letter)
    (hafter : ∀ letter ∈ after, isBlank letter) (hblank : isBlank blank) (text : List α) :
    tidy isBlank blank (before ++ (text ++ after)) = tidy isBlank blank text := by
  obtain ⟨more, hmore, hsame⟩ := collapseFrom_append_blanks hafter hblank text false
  have hdrop := dropWhile_collapseFrom_append hbefore hblank (text ++ after) false false
  calc
    tidy isBlank blank (before ++ (text ++ after)) = tidy isBlank blank (text ++ after) :=
      congrArg (List.rdropWhile isBlank) hdrop
    _ = trim isBlank (collapseFrom isBlank blank false text ++ more) :=
      congrArg (trim isBlank) hsame
    _ = tidy isBlank blank text := trim_append_blanks hmore _

/-- A text is its trimmed form between blanks. -/
theorem exists_trim (isBlank : α → Bool) (text : List α) :
    ∃ before after, (∀ letter ∈ before, isBlank letter) ∧ (∀ letter ∈ after, isBlank letter) ∧
      text = before ++ (trim isBlank text ++ after) := by
  refine ⟨text.takeWhile isBlank, (text.dropWhile isBlank).rtakeWhile isBlank, ?_, ?_, ?_⟩
  · exact fun letter hletter => List.mem_takeWhile_imp hletter
  · exact fun letter hletter => List.mem_rtakeWhile_imp hletter
  · rw [trim, List.rdropWhile_append_rtakeWhile, List.takeWhile_append_dropWhile]

/-- A rewriting of blanks gives these blanks. -/
theorem flatMap_blanks (hrewrite : KeepsBlanks isBlank rewrite) {blanks : List α}
    (hblanks : ∀ letter ∈ blanks, isBlank letter) : blanks.flatMap rewrite = blanks := by
  induction blanks with
  | nil => rfl
  | cons letter rest ih =>
    rw [List.flatMap_cons, hrewrite.keeps letter (hblanks letter List.mem_cons_self),
      ih fun other hother => hblanks other (List.mem_cons_of_mem _ hother)]
    rfl

/-- It is the same to tidy a text up before it is rewritten. -/
theorem tidy_flatMap_tidy (hrewrite : KeepsBlanks isBlank rewrite) (hblank : isBlank blank)
    (text : List α) :
    tidy isBlank blank ((tidy isBlank blank text).flatMap rewrite) =
      tidy isBlank blank (text.flatMap rewrite) := by
  obtain ⟨before, after, hbefore, hafter, hcollapsed⟩ :=
    exists_trim isBlank (collapse isBlank blank text)
  have hparts : (collapse isBlank blank text).flatMap rewrite =
      before ++ ((tidy isBlank blank text).flatMap rewrite ++ after) := by
    conv_lhs => rw [hcollapsed]
    rw [List.flatMap_append, List.flatMap_append, flatMap_blanks hrewrite hbefore,
      flatMap_blanks hrewrite hafter]
    rfl
  calc
    tidy isBlank blank ((tidy isBlank blank text).flatMap rewrite) =
        tidy isBlank blank ((collapse isBlank blank text).flatMap rewrite) := by
      rw [hparts, tidy_append_blanks hbefore hafter hblank]
    _ = tidy isBlank blank (text.flatMap rewrite) :=
      congrArg (trim isBlank) (collapseFrom_flatMap hrewrite hblank text false false id)

end

end Finify.Foundations.Spacing
