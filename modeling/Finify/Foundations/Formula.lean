/-
# Formulas whose atoms may fail

Conditions joined by `all`, `any` and `not` over atoms whose reading may fail.  A group is
evaluated from the left and stops at the first child that settles it, so that the order of the
children decides whether a failing child is read.  What the orders of a formula can give is
computed from what its atoms give, and the values that are given agree.
-/

import Mathlib.Data.List.Basic

namespace Finify.Foundations

universe u

/-- How the children of a group are joined. -/
inductive Connective
  | all
  | any
  deriving DecidableEq, Repr

/-- The value of a child that settles the group. -/
def Connective.stop : Connective → Bool
  | .all => false
  | .any => true

/-- The value of a group from the values of its children. -/
def Connective.join : Connective → List Bool → Bool
  | .all, values => values.all id
  | .any, values => values.any id

/-- Read children from the left until one settles the group or fails. -/
def Connective.gather (connective : Connective) : List (Option Bool) → Option Bool
  | [] => some !connective.stop
  | none :: _ => none
  | some value :: rest =>
    if value = connective.stop then some value else connective.gather rest

/-- A formula over atoms. -/
inductive Formula (α : Type u)
  | atom (leaf : α)
  | group (connective : Connective) (children : List (Formula α))
  | not (child : Formula α)

namespace Formula

variable {α : Type u}

/-- Induction over formulas, where a group has it of all its children. -/
@[elab_as_elim]
theorem recurse {motive : Formula α → Prop} (atom : ∀ leaf, motive (.atom leaf))
    (group : ∀ connective children, (∀ child ∈ children, motive child) →
      motive (.group connective children))
    (not : ∀ child, motive child → motive (.not child)) : ∀ formula, motive formula
  | .atom leaf => atom leaf
  | .group connective children =>
    group connective children fun child _ => recurse atom group not child
  | .not child => not child (recurse atom group not child)

mutual

/-- Evaluation from the left. -/
def evaluate (read : α → Option Bool) : Formula α → Option Bool
  | .atom leaf => read leaf
  | .group connective children => connective.gather (evaluateEach read children)
  | .not child => (evaluate read child).map (! ·)

/-- Evaluation of each of some formulas. -/
def evaluateEach (read : α → Option Bool) : List (Formula α) → List (Option Bool)
  | [] => []
  | child :: rest => evaluate read child :: evaluateEach read rest

end

mutual

/-- The boolean semantics. -/
def holds (sat : α → Bool) : Formula α → Bool
  | .atom leaf => sat leaf
  | .group connective children => connective.join (holdsEach sat children)
  | .not child => !holds sat child

/-- The boolean semantics of each of some formulas. -/
def holdsEach (sat : α → Bool) : List (Formula α) → List Bool
  | [] => []
  | child :: rest => holds sat child :: holdsEach sat rest

end

mutual

def leaves : Formula α → List α
  | .atom leaf => [leaf]
  | .group _ children => leavesEach children
  | .not child => leaves child

/-- The atoms of each of some formulas. -/
def leavesEach : List (Formula α) → List α
  | [] => []
  | child :: rest => leaves child ++ leavesEach rest

end

/-- One formula is the other with the children of its groups in another order. -/
inductive Reordered : Formula α → Formula α → Prop
  | refl (formula : Formula α) : Reordered formula formula
  | permuted (connective : Connective) {children others : List (Formula α)}
      (hperm : children.Perm others) :
      Reordered (.group connective children) (.group connective others)
  | child (connective : Connective) (front back : List (Formula α)) {child other : Formula α}
      (hchild : Reordered child other) :
      Reordered (.group connective (front ++ child :: back))
        (.group connective (front ++ other :: back))
  | not {child other : Formula α} (hchild : Reordered child other) :
      Reordered (.not child) (.not other)
  | trans {first second third : Formula α} (hfirst : Reordered first second)
      (hsecond : Reordered second third) : Reordered first third

/-- What some order of the formula gives. -/
inductive CanGive (read : α → Option Bool) : Formula α → Option Bool → Prop
  | atom (leaf : α) : CanGive read (.atom leaf) (read leaf)
  | through (connective : Connective) {children : List (Formula α)}
      (hall : ∀ child ∈ children, CanGive read child (some !connective.stop)) :
      CanGive read (.group connective children) (some !connective.stop)
  | settled (connective : Connective) {children : List (Formula α)} {child : Formula α}
      (hmem : child ∈ children) (hchild : CanGive read child (some connective.stop)) :
      CanGive read (.group connective children) (some connective.stop)
  | failed (connective : Connective) {children : List (Formula α)} {child : Formula α}
      (hmem : child ∈ children) (hchild : CanGive read child none) :
      CanGive read (.group connective children) none
  | not {child : Formula α} {result : Option Bool} (hchild : CanGive read child result) :
      CanGive read (.not child) (result.map (! ·))

/-- Reading from the left, where the atoms have these values, comes to an atom of a kind. -/
inductive Meets (sat : α → Bool) (bad : α → Prop) : Formula α → Prop
  | atom (leaf : α) (hbad : bad leaf) : Meets sat bad (.atom leaf)
  | group (connective : Connective) {front back : List (Formula α)} {child : Formula α}
      (hfront : ∀ earlier ∈ front, earlier.holds sat = !connective.stop)
      (hchild : Meets sat bad child) : Meets sat bad (.group connective (front ++ child :: back))
  | not {child : Formula α} (hchild : Meets sat bad child) : Meets sat bad (.not child)

variable {read : α → Option Bool} {sat : α → Bool} {bad : α → Prop} {formula other : Formula α}
  {connective : Connective} {children : List (Formula α)} {result : Option Bool} {value : Bool}

theorem evaluateEach_eq_map (read : α → Option Bool) (children : List (Formula α)) :
    evaluateEach read children = children.map (evaluate read) := by
  induction children with
  | nil => rfl
  | cons child rest ih => rw [evaluateEach, ih, List.map_cons]

theorem holdsEach_eq_map (sat : α → Bool) (children : List (Formula α)) :
    holdsEach sat children = children.map (holds sat) := by
  induction children with
  | nil => rfl
  | cons child rest ih => rw [holdsEach, ih, List.map_cons]

theorem mem_leavesEach {leaf : α} :
    leaf ∈ leavesEach children ↔ ∃ child ∈ children, leaf ∈ child.leaves := by
  induction children with
  | nil =>
    constructor
    · intro hmem
      exact absurd hmem List.not_mem_nil
    · rintro ⟨child, hmem, _⟩
      exact absurd hmem List.not_mem_nil
  | cons child rest ih => rw [leavesEach, List.mem_append, ih, List.exists_mem_cons_iff]

/-! ## Groups -/

/-- What a group gives comes from one of its children or from all of them. -/
theorem gather_cases (connective : Connective) (results : List (Option Bool)) :
    (connective.gather results = some (!connective.stop) ∧
        ∀ result ∈ results, result = some !connective.stop) ∨
      (connective.gather results = some connective.stop ∧ some connective.stop ∈ results) ∨
      (connective.gather results = none ∧ none ∈ results) := by
  induction results with
  | nil =>
    left
    exact ⟨rfl, fun result hmem => absurd hmem List.not_mem_nil⟩
  | cons head rest ih =>
    cases head with
    | none =>
      right
      right
      exact ⟨rfl, List.mem_cons_self⟩
    | some value =>
      by_cases hstop : value = connective.stop
      · right
        left
        rw [Connective.gather, if_pos hstop, hstop]
        exact ⟨rfl, List.mem_cons_self⟩
      · have hvalue : value = !connective.stop := Bool.eq_not_of_ne hstop
        rw [Connective.gather, if_neg hstop]
        rcases ih with ⟨hgives, hall⟩ | ⟨hgives, hmem⟩ | ⟨hgives, hmem⟩
        · left
          refine ⟨hgives, ?_⟩
          intro result hresult
          cases hresult with
          | head => rw [hvalue]
          | tail _ hrest => exact hall result hrest
        · right
          left
          exact ⟨hgives, List.mem_cons_of_mem _ hmem⟩
        · right
          right
          exact ⟨hgives, List.mem_cons_of_mem _ hmem⟩

theorem not_stop_ne (connective : Connective) : (!connective.stop) ≠ connective.stop := by
  cases connective <;> decide

theorem gather_eq_of_all {results : List (Option Bool)}
    (hall : ∀ result ∈ results, result = some !connective.stop) :
    connective.gather results = some !connective.stop := by
  induction results with
  | nil => rfl
  | cons head rest ih =>
    rw [hall head List.mem_cons_self, Connective.gather,
      if_neg (not_stop_ne connective)]
    exact ih fun result hmem => hall result (List.mem_cons_of_mem _ hmem)

@[simp] theorem gather_stop_cons (rest : List (Option Bool)) :
    connective.gather (some connective.stop :: rest) = some connective.stop := if_pos rfl

theorem join_eq_not_stop {values : List Bool} (hall : ∀ value ∈ values, value = !connective.stop) :
    connective.join values = !connective.stop := by
  cases connective with
  | all => exact List.all_eq_true.mpr hall
  | any =>
    apply List.any_eq_false.mpr
    intro value hmem
    rw [hall value hmem]
    exact Bool.false_ne_true

theorem join_eq_stop {values : List Bool} (hmem : connective.stop ∈ values) :
    connective.join values = connective.stop := by
  cases connective with
  | all => exact List.all_eq_false.mpr ⟨false, hmem, Bool.false_ne_true⟩
  | any => exact List.any_eq_true.mpr ⟨true, hmem, rfl⟩

/-! ## What the orders give -/

/-- What evaluation gives can be given. -/
theorem canGive_evaluate (read : α → Option Bool) (formula : Formula α) :
    CanGive read formula (formula.evaluate read) := by
  induction formula using Formula.recurse with
  | atom leaf => exact .atom leaf
  | not child ih => exact .not ih
  | group connective children ih =>
    rw [evaluate, evaluateEach_eq_map]
    rcases gather_cases connective (children.map (evaluate read)) with
      ⟨hgives, hall⟩ | ⟨hgives, hmem⟩ | ⟨hgives, hmem⟩
    · rw [hgives]
      apply CanGive.through
      intro child hmem
      rw [← hall _ (List.mem_map_of_mem hmem)]
      exact ih child hmem
    · rw [hgives]
      obtain ⟨child, hchild, hsame⟩ := List.mem_map.mp hmem
      exact .settled connective hchild (hsame ▸ ih child hchild)
    · rw [hgives]
      obtain ⟨child, hchild, hsame⟩ := List.mem_map.mp hmem
      exact .failed connective hchild (hsame ▸ ih child hchild)

/-- A value that can be given is that of the boolean semantics. -/
theorem CanGive.eq_holds (hread : ∀ leaf value, read leaf = some value → value = sat leaf)
    (hgives : CanGive read formula (some value)) : value = formula.holds sat := by
  generalize hresult : some value = result at hgives
  induction hgives generalizing value with
  | atom leaf => exact hread leaf value hresult.symm
  | @through connective children hall ih =>
    rw [Option.some.inj hresult, holds, holdsEach_eq_map]
    symm
    apply join_eq_not_stop
    intro given hgiven
    obtain ⟨child, hmem, rfl⟩ := List.mem_map.mp hgiven
    exact (ih child hmem rfl).symm
  | @settled connective children child hmem _ ih =>
    rw [Option.some.inj hresult, holds, holdsEach_eq_map]
    symm
    apply join_eq_stop
    rw [ih rfl]
    exact List.mem_map_of_mem hmem
  | failed => exact absurd hresult (Option.some_ne_none _)
  | @not child given _ ih =>
    cases given with
    | none => exact absurd hresult (Option.some_ne_none _)
    | some inner =>
      rw [Option.some.inj hresult, holds, ← ih rfl]

/-- Evaluation gives the boolean semantics when it does not fail. -/
theorem evaluate_eq_holds (hread : ∀ leaf value, read leaf = some value → value = sat leaf)
    (hvalue : formula.evaluate read = some value) : value = formula.holds sat :=
  CanGive.eq_holds hread (hvalue ▸ canGive_evaluate read formula)

/-- Evaluation does not fail where no atom does. -/
theorem isSome_of_canGive (hread : ∀ leaf ∈ formula.leaves, (read leaf).isSome)
    (hgives : CanGive read formula result) : result.isSome := by
  induction hgives with
  | atom leaf => exact hread leaf List.mem_cons_self
  | through => rfl
  | settled => rfl
  | @failed connective children child hmem _ ih =>
    exact ih fun leaf hleaf => hread leaf (mem_leavesEach.mpr ⟨child, hmem, hleaf⟩)
  | @not child given _ ih =>
    rw [Option.isSome_map]
    exact ih hread

/-- Any two values that can be given are the same. -/
theorem CanGive.unique {second : Bool} (hfirst : CanGive read formula (some value))
    (hsecond : CanGive read formula (some second)) : value = second := by
  have hread : ∀ leaf given, read leaf = some given → given = (read leaf).getD false := by
    intro leaf given hgiven
    rw [hgiven, Option.getD_some]
  rw [hfirst.eq_holds hread, hsecond.eq_holds hread]

/-! ## Orders -/

theorem Reordered.symm (horder : Reordered formula other) : Reordered other formula := by
  induction horder with
  | refl formula => exact .refl formula
  | permuted connective hperm => exact .permuted connective hperm.symm
  | child connective front back _ ih => exact .child connective front back ih
  | not _ ih => exact .not ih
  | trans _ _ ihfirst ihsecond => exact .trans ihsecond ihfirst

/-- What a formula can give is given by every order of it. -/
theorem CanGive.reordered (hgives : CanGive read formula result)
    (horder : Reordered formula other) : CanGive read other result := by
  induction horder generalizing result with
  | refl => exact hgives
  | permuted connective hperm =>
    cases hgives with
    | through _ hall => exact .through _ fun child hmem => hall child (hperm.mem_iff.mpr hmem)
    | settled _ hmem hchild => exact .settled _ (hperm.mem_iff.mp hmem) hchild
    | failed _ hmem hchild => exact .failed _ (hperm.mem_iff.mp hmem) hchild
  | @child connective front back old new _ ih =>
    have hmoved : ∀ {given : Option Bool} {found : Formula α},
        found ∈ front ++ old :: back → CanGive read found given →
          ∃ moved ∈ front ++ new :: back, CanGive read moved given := by
      intro given found hmem hfound
      rcases List.mem_append.mp hmem with hfront | hback
      · exact ⟨found, List.mem_append_left _ hfront, hfound⟩
      · cases hback with
        | head => exact ⟨new, List.mem_append_right _ List.mem_cons_self, ih hfound⟩
        | tail _ hrest =>
          exact ⟨found, List.mem_append_right _ (List.mem_cons_of_mem _ hrest), hfound⟩
    cases hgives with
    | through _ hall =>
      apply CanGive.through
      intro found hmem
      rcases List.mem_append.mp hmem with hfront | hback
      · exact hall found (List.mem_append_left _ hfront)
      · cases hback with
        | head => exact ih (hall old (List.mem_append_right _ List.mem_cons_self))
        | tail _ hrest =>
          exact hall found (List.mem_append_right _ (List.mem_cons_of_mem _ hrest))
    | settled _ hmem hfound =>
      obtain ⟨moved, hmoves, hgiven⟩ := hmoved hmem hfound
      exact .settled _ hmoves hgiven
    | failed _ hmem hfound =>
      obtain ⟨moved, hmoves, hgiven⟩ := hmoved hmem hfound
      exact .failed _ hmoves hgiven
  | not _ ih =>
    cases hgives with
    | not hchild => exact .not (ih hchild)
  | trans _ _ ihfirst ihsecond => exact ihsecond (ihfirst hgives)

/-- Each child of a group is put in an order of its own. -/
theorem exists_reordered_children {good : Formula α → Prop} (front : List (Formula α))
    (hall : ∀ child ∈ children, ∃ other, Reordered child other ∧ good other) :
    ∃ others, Reordered (.group connective (front ++ children))
        (.group connective (front ++ others)) ∧ ∀ other ∈ others, good other := by
  induction children generalizing front with
  | nil => exact ⟨[], .refl _, fun other hmem => absurd hmem List.not_mem_nil⟩
  | cons child rest ih =>
    obtain ⟨other, horder, hgood⟩ := hall child List.mem_cons_self
    obtain ⟨others, hrest, hothers⟩ :=
      ih (front ++ [other]) fun child hmem => hall child (List.mem_cons_of_mem _ hmem)
    rw [List.append_assoc, List.append_assoc] at hrest
    refine ⟨other :: others, .trans (.child connective front rest horder) hrest, ?_⟩
    intro found hmem
    cases hmem with
    | head => exact hgood
    | tail _ hfound => exact hothers found hfound

/-- A child of a group is put in an order of its own and read first. -/
theorem exists_reordered_first {child : Formula α} (hmem : child ∈ children)
    (hchild : Reordered child other) :
    ∃ rest, Reordered (.group connective children) (.group connective (other :: rest)) := by
  obtain ⟨front, back, rfl⟩ := List.append_of_mem hmem
  refine ⟨front ++ back, .trans (.permuted connective List.perm_middle) ?_⟩
  exact .child connective [] (front ++ back) hchild

/-- What can be given is given by some order. -/
theorem CanGive.exists_reordered (hgives : CanGive read formula result) :
    ∃ other, Reordered formula other ∧ other.evaluate read = result := by
  induction hgives with
  | atom leaf => exact ⟨.atom leaf, .refl _, rfl⟩
  | @through connective children _ ih =>
    obtain ⟨others, horder, hothers⟩ := @exists_reordered_children _ connective _ _ [] ih
    refine ⟨_, horder, ?_⟩
    rw [List.nil_append, evaluate, evaluateEach_eq_map]
    apply gather_eq_of_all
    intro given hgiven
    obtain ⟨other, hmem, rfl⟩ := List.mem_map.mp hgiven
    exact hothers other hmem
  | @settled connective children child hmem _ ih =>
    obtain ⟨other, hchild, hother⟩ := ih
    obtain ⟨rest, horder⟩ := @exists_reordered_first _ _ connective _ _ hmem hchild
    refine ⟨_, horder, ?_⟩
    rw [evaluate, evaluateEach, hother, gather_stop_cons]
  | @failed connective children child hmem _ ih =>
    obtain ⟨other, hchild, hother⟩ := ih
    obtain ⟨rest, horder⟩ := @exists_reordered_first _ _ connective _ _ hmem hchild
    refine ⟨_, horder, ?_⟩
    rw [evaluate, evaluateEach, hother, Connective.gather]
  | not _ ih =>
    obtain ⟨other, horder, hother⟩ := ih
    exact ⟨_, .not horder, by rw [evaluate, hother]⟩

/-- Any two orders that give values give the same. -/
theorem evaluate_eq_of_reordered {second : Bool} (horder : Reordered formula other)
    (hfirst : formula.evaluate read = some value) (hsecond : other.evaluate read = some second) :
    value = second := by
  have hgives : CanGive read formula (some value) := hfirst ▸ canGive_evaluate read formula
  have hother : CanGive read other (some second) := hsecond ▸ canGive_evaluate read other
  exact (hgives.reordered horder).unique hother

/-- Where no atom fails, every order gives the boolean semantics. -/
theorem evaluate_reordered_of_reads
    (hsat : ∀ leaf value, read leaf = some value → value = sat leaf)
    (hread : ∀ leaf ∈ formula.leaves, (read leaf).isSome) (horder : Reordered formula other) :
    other.evaluate read = some (formula.holds sat) := by
  have hgives := (canGive_evaluate read other).reordered horder.symm
  obtain ⟨value, hvalue⟩ := Option.isSome_iff_exists.mp (isSome_of_canGive hread hgives)
  rw [hvalue] at hgives ⊢
  rw [hgives.eq_holds hsat]

/-- The order does not matter exactly if it cannot make evaluation fail or not. -/
theorem evaluate_reordered_iff :
    (∀ other, Reordered formula other → other.evaluate read = formula.evaluate read) ↔
      ¬ (CanGive read formula none ∧ ∃ value, CanGive read formula (some value)) := by
  constructor
  · rintro hsame ⟨hfails, value, hgives⟩
    obtain ⟨first, hfirst, hnone⟩ := hfails.exists_reordered
    obtain ⟨second, hsecond, hsome⟩ := hgives.exists_reordered
    rw [hsame first hfirst] at hnone
    rw [hsame second hsecond, hnone] at hsome
    exact absurd hsome (by simp)
  · intro hnever other horder
    have hgives := (canGive_evaluate read other).reordered horder.symm
    have hown := canGive_evaluate read formula
    cases hother : other.evaluate read with
    | none =>
      cases hthis : formula.evaluate read with
      | none => rfl
      | some value => exact absurd ⟨hother ▸ hgives, value, hthis ▸ hown⟩ hnever
    | some second =>
      cases hthis : formula.evaluate read with
      | none => exact absurd ⟨hthis ▸ hown, second, hother ▸ hgives⟩ hnever
      | some value => rw [evaluate_eq_of_reordered horder hthis hother]

/-! ## Failures -/

/-- A group fails exactly at a child before which none settles it. -/
theorem gather_eq_none_iff {results : List (Option Bool)} :
    connective.gather results = none ↔
      ∃ front back, results = front ++ none :: back ∧
        ∀ result ∈ front, result = some !connective.stop := by
  induction results with
  | nil =>
    constructor
    · intro hnone
      cases hnone
    · rintro ⟨front, back, hsplit, _⟩
      exact absurd hsplit.symm (by simp)
  | cons head rest ih =>
    cases head with
    | none =>
      refine iff_of_true rfl ⟨[], rest, rfl, ?_⟩
      intro result hmem
      exact absurd hmem List.not_mem_nil
    | some value =>
      by_cases hstop : value = connective.stop
      · rw [Connective.gather, if_pos hstop]
        refine iff_of_false (Option.some_ne_none _) ?_
        rintro ⟨front, back, hsplit, hall⟩
        cases front with
        | nil => cases hsplit
        | cons first others =>
          have hfirst := hall first List.mem_cons_self
          rw [← (List.cons.inj hsplit).1, hstop] at hfirst
          exact not_stop_ne connective (Option.some.inj hfirst).symm
      · rw [Connective.gather, if_neg hstop, ih]
        constructor
        · rintro ⟨front, back, rfl, hall⟩
          refine ⟨some value :: front, back, rfl, ?_⟩
          intro result hmem
          cases hmem with
          | head => rw [Bool.eq_not_of_ne hstop]
          | tail _ hrest => exact hall result hrest
        · rintro ⟨front, back, hsplit, hall⟩
          cases front with
          | nil => cases hsplit
          | cons first others =>
            exact ⟨others, back, (List.cons.inj hsplit).2,
              fun result hmem => hall result (List.mem_cons_of_mem _ hmem)⟩

theorem gather_append_none {front back : List (Option Bool)}
    (hfront : ∀ result ∈ front, result = none ∨ result = some !connective.stop) :
    connective.gather (front ++ none :: back) = none := by
  induction front with
  | nil => rfl
  | cons head rest ih =>
    rcases hfront head List.mem_cons_self with rfl | rfl
    · rfl
    · rw [List.cons_append, Connective.gather, if_neg (not_stop_ne connective)]
      exact ih fun result hmem => hfront result (List.mem_cons_of_mem _ hmem)

/-- Evaluation fails exactly if it comes to an atom that fails. -/
theorem evaluate_eq_none_iff (hread : ∀ leaf value, read leaf = some value → value = sat leaf)
    (hbad : ∀ leaf ∈ formula.leaves, read leaf = none ↔ bad leaf) :
    formula.evaluate read = none ↔ Meets sat bad formula := by
  induction formula using Formula.recurse with
  | atom leaf =>
    rw [evaluate, hbad leaf List.mem_cons_self]
    constructor
    · exact .atom leaf
    · intro hmeets
      cases hmeets with
      | atom _ hleaf => exact hleaf
  | not child ih =>
    rw [evaluate, Option.map_eq_none_iff, ih hbad]
    constructor
    · exact .not
    · intro hmeets
      cases hmeets with
      | not hchild => exact hchild
  | group connective children ih =>
    have hchildren : ∀ child ∈ children, child.evaluate read = none ↔ Meets sat bad child := by
      intro child hmem
      exact ih child hmem fun leaf hleaf => hbad leaf (mem_leavesEach.mpr ⟨child, hmem, hleaf⟩)
    rw [evaluate, evaluateEach_eq_map]
    constructor
    · intro hnone
      obtain ⟨front, back, hsplit, hall⟩ := gather_eq_none_iff.mp hnone
      obtain ⟨before, rest, rfl, rfl, hrest⟩ := List.map_eq_append_iff.mp hsplit
      obtain ⟨child, after, rfl, hchild, rfl⟩ := List.map_eq_cons_iff.mp hrest
      apply Meets.group
      · intro earlier hmem
        exact (evaluate_eq_holds hread (hall _ (List.mem_map_of_mem hmem))).symm
      · exact (hchildren child (List.mem_append_right _ List.mem_cons_self)).mp hchild
    · intro hmeets
      cases hmeets with
      | @group _ front back child hfront hchild =>
        rw [List.map_append, List.map_cons, (hchildren child
          (List.mem_append_right _ List.mem_cons_self)).mpr hchild]
        apply gather_append_none
        intro result hmem
        obtain ⟨earlier, hearlier, rfl⟩ := List.mem_map.mp hmem
        cases hvalue : earlier.evaluate read with
        | none => exact Or.inl rfl
        | some value =>
          right
          rw [evaluate_eq_holds hread hvalue, hfront earlier hearlier]

end Formula

end Finify.Foundations
