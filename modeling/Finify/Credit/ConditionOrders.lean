/-
# What a condition means

A leaf compares a value of its data type with its constants, where a missing value stands before
every value that is there.  A tree that is evaluated without a failure gives the boolean semantics
of its leaves, in every order of its groups; an order that fails exists exactly if some leaf that
fails can be read before its group is settled.
-/

import Finify.Credit.Conditions

namespace Finify.Credit.Conditions

open Finify.Foundations

/-! ## Meaning -/

/-- A value stands before another, a missing value before every one that is not the same. -/
def Coerced.Before {α : Type} [LT α] : Coerced α → Coerced α → Prop
  | .present first, .present second => first < second
  | .present _, _ => False
  | .undefined, second => second ≠ .undefined
  | .null, second => second ≠ .null

def Relates {α : Type} [LT α] (operator : Value) (actual expected : Coerced α) : Prop :=
  if operator.is "EQUALS" then actual = expected
  else if operator.is "NOT_EQUALS" then actual ≠ expected
  else if operator.is "GREATER_THAN" then actual ≠ expected ∧ ¬ actual.Before expected
  else if operator.is "GREATER_THAN_OR_EQUAL" then ¬ actual.Before expected
  else if operator.is "LESS_THAN" then actual.Before expected
  else if operator.is "LESS_THAN_OR_EQUAL" then actual = expected ∨ actual.Before expected
  else False

/-- A value lies at or after the lower end of a range. -/
def Leaf.Starts {α : Type} [LT α] (leaf : Leaf) (lower actual : Coerced α) : Prop :=
  ¬ actual.Before lower ∧
    ((leaf.operator.is "BETWEEN" || leaf.lowerInclusive.isNotFalse) = true ∨ actual ≠ lower)

/-- A value lies at or before the upper end of a range. -/
def Leaf.Ends {α : Type} [LT α] (leaf : Leaf) (upper actual : Coerced α) : Prop :=
  actual.Before upper ∨
    (leaf.operator.is "BETWEEN" || leaf.upperInclusive.isNotFalse) = true ∧ actual = upper

def Leaf.Says (language : Language) (dataType : DataType) (raw : Value) (leaf : Leaf) : Prop :=
  if leaf.operator.is "IS_NULL" then raw.isMissing = true
  else if leaf.operator.is "IS_NOT_NULL" then raw.isMissing = false
  else
    ∃ actual, coerce language dataType raw = some actual ∧
      if leaf.isOneOf "IN" "NOT_IN" then
        (leaf.operator.is "IN" ↔
          ∃ items, leaf.items = some items ∧
            ∃ item ∈ items, coerce language dataType item = some actual)
      else if leaf.isOneOf "BETWEEN" "RANGE" then
        ∃ lower upper, coerce language dataType leaf.lowerValue = some lower ∧
          coerce language dataType leaf.upperValue = some upper ∧ leaf.Starts lower actual ∧
            leaf.Ends upper actual
      else
        ∃ expected, coerce language dataType leaf.value = some expected ∧
          Relates leaf.operator actual expected

def Leaf.Holds (language : Language) (raw : Value) (dataType : DataType) (leaf : Leaf) : Prop :=
  ∃ value, leaf.read language raw = some value ∧
    leaf.Says language (leaf.effectiveType dataType) value

open Classical in
/-- The boolean semantics of a tree. -/
noncomputable def meaning (language : Language) (node : Node) (raw : Value)
    (dataType : DataType) : Bool :=
  node.holds fun leaf => decide (leaf.Holds language raw dataType)

def Leaf.constants (leaf : Leaf) : List Value :=
  if leaf.isOneOf "IS_NULL" "IS_NOT_NULL" then []
  else if leaf.isOneOf "IN" "NOT_IN" then leaf.items.getD []
  else if leaf.isOneOf "BETWEEN" "RANGE" then [leaf.lowerValue, leaf.upperValue]
  else [leaf.value]

def Leaf.admitsMissing (leaf : Leaf) : Bool :=
  ["IS_NULL", "NOT_EQUALS", "LESS_THAN", "LESS_THAN_OR_EQUAL", "NOT_IN"].any leaf.operator.is

/-! ## Comparison -/

section Comparison

variable {α : Type} [LinearOrder α] {left right : Coerced α}

theorem compare_eq_iff : left.compare right = .eq ↔ left = right := by
  constructor
  · intro hequal
    by_contra hne
    rw [Coerced.compare.eq_def, if_neg hne] at hequal
    cases left <;> cases right <;> simp only [reduceCtorEq] at hequal
    split at hequal <;> cases hequal
  · exact fun hsame => if_pos hsame

theorem compare_lt_iff : left.compare right = .lt ↔ left.Before right := by
  by_cases hsame : left = right
  · rw [Coerced.compare.eq_def, if_pos hsame, hsame]
    cases right <;> simp [Coerced.Before]
  · rw [Coerced.compare.eq_def, if_neg hsame]
    cases left <;> cases right <;> simp_all [Coerced.Before]

theorem compare_gt_iff : left.compare right = .gt ↔ left ≠ right ∧ ¬ left.Before right := by
  rw [ne_eq, ← compare_eq_iff, ← compare_lt_iff]
  cases left.compare right <;> decide

/-- The switch over the operators says what the comparison is. -/
theorem decides_iff {operator : Value} :
    decides operator (left.compare right) = true ↔ Relates operator left right := by
  unfold decides Relates
  split_ifs
  · rw [decide_eq_true_iff, compare_eq_iff]
  · rw [decide_eq_true_iff, ne_eq, compare_eq_iff]
  · rw [decide_eq_true_iff, compare_gt_iff]
  · rw [decide_eq_true_iff, ne_eq, compare_lt_iff]
  · rw [decide_eq_true_iff, compare_lt_iff]
  · rw [decide_eq_true_iff, ne_eq, compare_gt_iff, not_and_not_right, ← or_iff_not_imp_left]
  · exact iff_of_false (by decide) id

end Comparison

/-! ## Leaves -/

variable {language : Language} {dataType : DataType} {raw record : Value} {leaf : Leaf}
  {result : Bool}

/-- Whether a list of constants contains a value. -/
theorem contains_iff {actual : Coerced (Carrier dataType)} {items : List Value} {contains : Bool}
    (hcontains : Connective.any.gather (items.map fun item =>
      (coerce language dataType item).map fun expected => decide (actual.compare expected = .eq)) =
        some contains) :
    contains = true ↔ ∃ item ∈ items, coerce language dataType item = some actual := by
  have hiff : ∀ item, (coerce language dataType item).map
      (fun expected => decide (actual.compare expected = .eq)) = some true ↔
        coerce language dataType item = some actual := by
    intro item
    rw [Option.map_eq_some_iff]
    constructor
    · rintro ⟨expected, hitem, hequal⟩
      rw [hitem, compare_eq_iff.mp (of_decide_eq_true hequal)]
    · exact fun hitem => ⟨actual, hitem, decide_eq_true (compare_eq_iff.mpr rfl)⟩
  rcases Formula.gather_cases .any (items.map fun item =>
      (coerce language dataType item).map fun expected => decide (actual.compare expected = .eq))
    with ⟨hgives, hall⟩ | ⟨hgives, hmem⟩ | ⟨hgives, _⟩
  · rw [hgives] at hcontains
    rw [← Option.some.inj hcontains]
    constructor
    · exact fun htrue => absurd htrue Bool.false_ne_true
    · rintro ⟨item, hmem, hitem⟩
      have hfalse := hall _ (List.mem_map_of_mem hmem)
      rw [(hiff item).mpr hitem] at hfalse
      exact absurd (Option.some.inj hfalse) (by decide)
  · rw [hgives] at hcontains
    rw [← Option.some.inj hcontains]
    obtain ⟨item, hitem, htrue⟩ := List.mem_map.mp hmem
    exact iff_of_true rfl ⟨item, hitem, (hiff item).mp htrue⟩
  · rw [hgives] at hcontains
    exact absurd hcontains.symm (Option.some_ne_none _)

theorem lowerOk_iff {α : Type} [LinearOrder α] {actual lower : Coerced α} :
    leaf.lowerOk (actual.compare lower) = true ↔ leaf.Starts lower actual := by
  unfold Leaf.lowerOk Leaf.Starts
  split
  · rename_i hopen
    rw [decide_eq_true_iff, ne_eq, compare_lt_iff, and_iff_left (Or.inl hopen)]
  · rename_i hopen
    rw [decide_eq_true_iff, compare_gt_iff, or_iff_right hopen, and_comm]

theorem upperOk_iff {α : Type} [LinearOrder α] {actual upper : Coerced α} :
    leaf.upperOk (actual.compare upper) = true ↔ leaf.Ends upper actual := by
  unfold Leaf.upperOk Leaf.Ends
  split
  · rename_i hopen
    rw [decide_eq_true_iff, ne_eq, compare_gt_iff, and_iff_right hopen, not_and_not_right,
      ← or_iff_not_imp_left, or_comm]
  · rename_i hopen
    rw [decide_eq_true_iff, compare_lt_iff, or_iff_left fun hboth => hopen hboth.1]

/-- A leaf that is judged says what the comparison is. -/
theorem judge_means (hjudge : leaf.judge language dataType raw = some result) :
    result = true ↔ leaf.Says language dataType raw := by
  unfold Leaf.judge at hjudge
  unfold Leaf.Says
  by_cases hnull : leaf.operator.is "IS_NULL" = true
  · rw [if_pos hnull] at hjudge ⊢
    rw [← Option.some.inj hjudge]
  rw [if_neg hnull] at hjudge ⊢
  by_cases hnotNull : leaf.operator.is "IS_NOT_NULL" = true
  · rw [if_pos hnotNull] at hjudge ⊢
    rw [← Option.some.inj hjudge, Bool.not_eq_true']
  rw [if_neg hnotNull] at hjudge ⊢
  obtain ⟨actual, hactual, hjudge⟩ := Option.bind_eq_some_iff.mp hjudge
  have hunique : ∀ {good : Coerced (Carrier dataType) → Prop},
      (∃ other, coerce language dataType raw = some other ∧ good other) ↔ good actual := by
    intro good
    rw [hactual]
    constructor
    · rintro ⟨other, hother, hsays⟩
      exact Option.some.inj hother ▸ hsays
    · exact fun hsays => ⟨actual, rfl, hsays⟩
  rw [hunique]
  by_cases hin : leaf.isOneOf "IN" "NOT_IN" = true
  · rw [if_pos hin] at hjudge ⊢
    obtain ⟨items, hitems, hjudge⟩ := Option.bind_eq_some_iff.mp hjudge
    obtain ⟨contains, hcontains, hjudge⟩ := Option.bind_eq_some_iff.mp hjudge
    have hiff := contains_iff hcontains
    have hlist : (∃ found, leaf.items = some found ∧
        ∃ item ∈ found, coerce language dataType item = some actual) ↔ contains = true := by
      rw [hiff, hitems]
      constructor
      · rintro ⟨found, hfound, hitem⟩
        exact Option.some.inj hfound ▸ hitem
      · exact fun hitem => ⟨items, rfl, hitem⟩
    rw [hlist, ← Option.some.inj hjudge]
    cases leaf.operator.is "IN" <;> cases contains <;> decide
  rw [if_neg hin] at hjudge ⊢
  by_cases hbetween : leaf.isOneOf "BETWEEN" "RANGE" = true
  · rw [if_pos hbetween] at hjudge ⊢
    obtain ⟨lower, hlower, hjudge⟩ := Option.bind_eq_some_iff.mp hjudge
    obtain ⟨upper, hupper, hjudge⟩ := Option.bind_eq_some_iff.mp hjudge
    rw [← Option.some.inj hjudge, Bool.and_eq_true, lowerOk_iff, upperOk_iff, hlower, hupper]
    constructor
    · exact fun hspans => ⟨lower, upper, rfl, rfl, hspans⟩
    · rintro ⟨first, second, hfirst, hsecond, hspans⟩
      rw [Option.some.inj hfirst, Option.some.inj hsecond]
      exact hspans
  · rw [if_neg hbetween] at hjudge ⊢
    obtain ⟨expected, hexpected, hjudge⟩ := Option.bind_eq_some_iff.mp hjudge
    rw [← Option.some.inj hjudge, decides_iff, hexpected]
    constructor
    · exact fun hrelates => ⟨expected, rfl, hrelates⟩
    · rintro ⟨other, hother, hrelates⟩
      exact Option.some.inj hother ▸ hrelates

/-- A leaf that is evaluated holds exactly if it gives true. -/
theorem evaluate_leaf_iff (heval : leaf.evaluate language record dataType = some result) :
    result = true ↔ leaf.Holds language record dataType := by
  obtain ⟨value, hread, hjudge⟩ := Option.bind_eq_some_iff.mp heval
  rw [judge_means hjudge, Leaf.Holds, hread]
  constructor
  · exact fun hsays => ⟨value, rfl, hsays⟩
  · rintro ⟨other, hother, hsays⟩
    exact Option.some.inj hother ▸ hsays

/-! ## Missing values -/

theorem Value.eq_text_of_is {value : Value} {text : String} (his : value.is text = true) :
    value = .text text := by
  cases value with
  | text found => rw [of_decide_eq_true his]
  | _ => exact absurd his Bool.false_ne_true

theorem decides_lt (operator : Value) :
    decides operator .lt =
      ["NOT_EQUALS", "LESS_THAN", "LESS_THAN_OR_EQUAL"].any operator.is := by
  unfold decides
  split_ifs with hequals hnotEquals hgreater hgreaterEqual hless hlessEqual
  · rw [Value.eq_text_of_is hequals]
    decide
  · rw [Value.eq_text_of_is hnotEquals]
    decide
  · rw [Value.eq_text_of_is hgreater]
    decide
  · rw [Value.eq_text_of_is hgreaterEqual]
    decide
  · rw [Value.eq_text_of_is hless]
    decide
  · rw [Value.eq_text_of_is hlessEqual]
    decide
  · simp [hnotEquals, hless, hlessEqual]

theorem coerce_of_isMissing (language : Language) (dataType : DataType)
    (hmissing : raw.isMissing = true) :
    ∃ missing : Coerced (Carrier dataType), coerce language dataType raw = some missing ∧
      ∀ value, missing.compare (.present value) = .lt := by
  cases raw with
  | undefined => exact ⟨.undefined, rfl, fun value => rfl⟩
  | null => exact ⟨.null, rfl, fun value => rfl⟩
  | _ => exact absurd hmissing Bool.false_ne_true

/-- A leaf that reads a missing value and compares it with constants that are there. -/
theorem judge_of_isMissing (hmissing : raw.isMissing = true)
    (hitems : leaf.isOneOf "IN" "NOT_IN" = true → leaf.items.isSome)
    (hconstants : ∀ constant ∈ leaf.constants,
      ∃ value, coerce language dataType constant = some (.present value)) :
    leaf.judge language dataType raw = some leaf.admitsMissing := by
  obtain ⟨missing, hcoerce, hbelow⟩ := coerce_of_isMissing language dataType hmissing
  unfold Leaf.judge
  by_cases hnull : leaf.operator.is "IS_NULL" = true
  · rw [if_pos hnull, Leaf.admitsMissing, Value.eq_text_of_is hnull, hmissing]
    decide
  rw [if_neg hnull]
  by_cases hnotNull : leaf.operator.is "IS_NOT_NULL" = true
  · rw [if_pos hnotNull, Leaf.admitsMissing, Value.eq_text_of_is hnotNull, hmissing]
    decide
  have hnulls : leaf.isOneOf "IS_NULL" "IS_NOT_NULL" ≠ true := by
    rw [Leaf.isOneOf, ne_eq, Bool.or_eq_true]
    exact not_or.mpr ⟨hnull, hnotNull⟩
  rw [if_neg hnotNull, hcoerce]
  rw [Leaf.constants, if_neg hnulls] at hconstants
  by_cases hin : leaf.isOneOf "IN" "NOT_IN" = true
  · obtain ⟨items, hfound⟩ := Option.isSome_iff_exists.mp (hitems hin)
    rw [if_pos hin, hfound, Option.getD_some] at hconstants
    have hnone : Connective.any.gather (items.map fun item =>
        (coerce language dataType item).map fun expected =>
          decide (missing.compare expected = .eq)) = some false := by
      apply Formula.gather_eq_of_all
      intro result hmem
      obtain ⟨item, hitem, rfl⟩ := List.mem_map.mp hmem
      obtain ⟨value, hvalue⟩ := hconstants item hitem
      rw [hvalue, Option.map_some, hbelow]
      rfl
    simp only [Option.bind_eq_bind, Option.bind_some, if_pos hin, hfound, hnone]
    rcases Bool.or_eq_true .. ▸ hin with his | his
    · rw [Leaf.admitsMissing, Value.eq_text_of_is his]
      decide
    · rw [Leaf.admitsMissing, Value.eq_text_of_is his]
      decide
  rw [if_neg hin] at hconstants
  by_cases hbetween : leaf.isOneOf "BETWEEN" "RANGE" = true
  · rw [if_pos hbetween] at hconstants
    obtain ⟨lower, hlower⟩ := hconstants _ List.mem_cons_self
    obtain ⟨upper, hupper⟩ := hconstants _ (List.mem_cons_of_mem _ List.mem_cons_self)
    have hout : leaf.lowerOk .lt = false := by
      unfold Leaf.lowerOk
      split <;> rfl
    simp only [Option.bind_eq_bind, Option.bind_some, if_neg hin, if_pos hbetween, hlower, hupper,
      hbelow, hout, Bool.false_and]
    rcases Bool.or_eq_true .. ▸ hbetween with his | his
    · rw [Leaf.admitsMissing, Value.eq_text_of_is his]
      decide
    · rw [Leaf.admitsMissing, Value.eq_text_of_is his]
      decide
  · rw [if_neg hbetween] at hconstants
    obtain ⟨value, hvalue⟩ := hconstants _ List.mem_cons_self
    have hnotIn : leaf.operator.is "NOT_IN" ≠ true := fun his =>
      hin (by rw [Leaf.isOneOf, his, Bool.or_true])
    simp only [Option.bind_eq_bind, Option.bind_some, if_neg hin, if_neg hbetween, hvalue, hbelow,
      decides_lt, Leaf.admitsMissing, List.any_cons, List.any_nil, Bool.or_false,
      Bool.eq_false_of_not_eq_true hnull, Bool.eq_false_of_not_eq_true hnotIn, Bool.false_or]

/-! ## Acceptance -/

theorem mem_of_mapM {α β : Type} {read : α → Option β} {items : List α} {found : List β}
    (hread : items.mapM read = some found) {value : β} (hmem : value ∈ found) :
    ∃ item ∈ items, read item = some value := by
  induction items generalizing found with
  | nil =>
    rw [← Option.some.inj hread] at hmem
    exact absurd hmem List.not_mem_nil
  | cons head rest ih =>
    rw [List.mapM_cons] at hread
    obtain ⟨first, hfirst, hread⟩ := Option.bind_eq_some_iff.mp hread
    obtain ⟨others, hothers, hread⟩ := Option.bind_eq_some_iff.mp hread
    rw [← Option.some.inj hread] at hmem
    cases hmem with
    | head => exact ⟨head, List.mem_cons_self, hfirst⟩
    | tail _ hrest =>
      obtain ⟨item, hitem, hvalue⟩ := ih hothers hrest
      exact ⟨item, List.mem_cons_of_mem _ hitem, hvalue⟩

/-- The leaves of a group that is accepted are those of children that are accepted. -/
theorem mem_leaves_of_mapM {connective : Connective} {levels : ℕ} {items : List Value} {node : Node}
    (hnode : (items.mapM (validate language levels)).map (.group connective) = some node)
    (hmem : leaf ∈ node.leaves) :
    ∃ item ∈ items, ∃ child, validate language levels item = some child ∧ leaf ∈ child.leaves := by
  obtain ⟨nodes, hnodes, rfl⟩ := Option.map_eq_some_iff.mp hnode
  obtain ⟨child, hchild, hleaf⟩ := Formula.mem_leavesEach.mp hmem
  obtain ⟨item, hitem, hvalid⟩ := mem_of_mapM hnodes hchild
  exact ⟨item, hitem, child, hvalid, hleaf⟩

/-- Every leaf of a condition that is accepted has been checked. -/
theorem isValid_of_validate {levels : ℕ} {condition : Value} {node : Node}
    (hvalidate : validate language levels condition = some node) (hmem : leaf ∈ node.leaves) :
    leaf.isValid language = true := by
  induction levels generalizing condition node with
  | zero => cases hvalidate
  | succ levels ih =>
    cases condition with
    | object fields =>
      rw [validate] at hvalidate
      split at hvalidate
      · by_cases hvalid : (Leaf.of fields).isValid language = true
        · rw [if_pos hvalid] at hvalidate
          rw [← Option.some.inj hvalidate] at hmem
          rw [List.mem_singleton.mp hmem, hvalid]
        · rw [if_neg hvalid] at hvalidate
          cases hvalidate
      · obtain ⟨child, hchild, rfl⟩ := Option.map_eq_some_iff.mp hvalidate
        exact ih hchild hmem
      · obtain ⟨items, _, hvalidate⟩ := Option.bind_eq_some_iff.mp hvalidate
        obtain ⟨item, _, child, hchild, hleaf⟩ := mem_leaves_of_mapM hvalidate hmem
        exact ih hchild hleaf
      · obtain ⟨items, _, hvalidate⟩ := Option.bind_eq_some_iff.mp hvalidate
        obtain ⟨item, _, child, hchild, hleaf⟩ := mem_leaves_of_mapM hvalidate hmem
        exact ih hchild hleaf
      · cases hvalidate
    | _ => cases hvalidate

/-- A leaf that is checked has a list to look in. -/
theorem isSome_items_of_isValid (hvalid : leaf.isValid language = true)
    (hin : leaf.isOneOf "IN" "NOT_IN" = true) : leaf.items.isSome := by
  have harray : leaf.values.isArray = true := by
    rw [Leaf.isValid] at hvalid
    rcases Bool.or_eq_true .. ▸ hin with his | his
    · rw [Value.eq_text_of_is his] at hvalid
      exact (Bool.and_eq_true .. ▸ hvalid).2
    · rw [Value.eq_text_of_is his] at hvalid
      exact (Bool.and_eq_true .. ▸ hvalid).2
  unfold Leaf.items
  cases hvalues : leaf.values with
  | array items => rfl
  | _ => rw [hvalues] at harray; exact absurd harray Bool.false_ne_true

/-! ## Orders -/

/-- The order of the children decides only whether evaluation fails.  Orders that give values give
the same, which is that of the boolean semantics; the order does not matter at all exactly if it
cannot fail in one order and not in another, as where no leaf fails.  A leaf that reads a missing
value and compares it with constants that are there is satisfied exactly for `IS_NULL`,
`NOT_EQUALS`, `LESS_THAN`, `LESS_THAN_OR_EQUAL` and `NOT_IN`. -/
theorem order_keeps_value (language : Language) (condition : Value) (node : Node)
    (haccept : accept language condition = some node) (record : Value) (dataType : DataType) :
    (∀ other, Formula.Reordered node other → ∀ first second,
      evaluate language node record dataType = some first →
        evaluate language other record dataType = some second → first = second) ∧
    (∀ value, evaluate language node record dataType = some value →
      value = meaning language node record dataType) ∧
    ((∀ other, Formula.Reordered node other →
        evaluate language other record dataType = evaluate language node record dataType) ↔
      ¬ (node.CanGive (Leaf.evaluate language record dataType) none ∧
        ∃ value, node.CanGive (Leaf.evaluate language record dataType) (some value))) ∧
    ((∀ leaf ∈ node.leaves, (leaf.evaluate language record dataType).isSome) →
      ∀ other, Formula.Reordered node other →
        evaluate language other record dataType = some (meaning language node record dataType)) ∧
    (∀ leaf ∈ node.leaves, ∀ value, leaf.read language record = some value →
      value.isMissing = true →
      (∀ constant ∈ leaf.constants, ∃ found,
        coerce language (leaf.effectiveType dataType) constant = some (.present found)) →
      leaf.evaluate language record dataType = some leaf.admitsMissing) := by
  classical
  have hsat : ∀ (leaf : Leaf) result, leaf.evaluate language record dataType = some result →
      result = decide (leaf.Holds language record dataType) := by
    intro leaf result heval
    rw [Bool.eq_iff_iff, evaluate_leaf_iff heval, decide_eq_true_iff]
  refine ⟨?_, ?_, ?_, ?_, ?_⟩
  · intro other horder first second
    exact Formula.evaluate_eq_of_reordered horder
  · intro value
    exact Formula.evaluate_eq_holds hsat
  · exact Formula.evaluate_reordered_iff
  · intro hread other horder
    exact Formula.evaluate_reordered_of_reads hsat hread horder
  · intro leaf hleaf value hread hmissing hconstants
    rw [Leaf.evaluate, hread]
    exact judge_of_isMissing hmissing
      (isSome_items_of_isValid (isValid_of_validate haccept hleaf)) hconstants

def highScore : Leaf := { field := .text "score", operator := .text "EQUALS", value := .text "high" }

/-- An age is above five. -/
def adult : Leaf where
  field := .text "age"
  dataType := .text "DECIMAL"
  operator := .text "GREATER_THAN"
  value := .number (.finite 5)

/-- The days past due are below two. -/
def onTime : Leaf where
  field := .text "dpd"
  dataType := .text "DECIMAL"
  operator := .text "LESS_THAN"
  value := .number (.finite 2)

def Leaf.asObject (leaf : Leaf) : Value :=
  .object (([("field", leaf.field), ("dataType", leaf.dataType), ("operator", leaf.operator),
    ("value", leaf.value)]).filter fun entry => entry.2.isDefined)

def misread : Value := .object [("score", .text "low"), ("age", .text "unknown")]

/-- An order of an accepted condition fails where another gives a value, and a missing value
satisfies a comparison. -/
theorem order_decides_failure :
    (accept plain (.object [("all", .array [highScore.asObject, adult.asObject])]) =
        some (.group .all [.atom highScore, .atom adult]) ∧
      Formula.Reordered (.group .all [.atom highScore, .atom adult])
        (.group .all [.atom adult, .atom highScore]) ∧
      evaluate plain (.group .all [.atom highScore, .atom adult]) misread .string = some false ∧
      evaluate plain (.group .all [.atom adult, .atom highScore]) misread .string = none) ∧
    (accept plain onTime.asObject = some (.atom onTime) ∧
      (onTime.read plain misread).any Value.isMissing ∧
      evaluate plain (.atom onTime) misread .string = some true) :=
  ⟨⟨rfl, .permuted .all (.swap _ _ _), by decide, by decide⟩, rfl, by decide, by decide⟩

/-- A tree whose orders give the same. -/
theorem order_keeps_value_onTime :
    evaluate plain (.group .all [.atom highScore, .atom onTime]) misread .string =
      some (meaning plain (.group .all [.atom onTime, .atom highScore]) misread .string) := by
  refine (order_keeps_value plain
    (.object [("all", .array [onTime.asObject, highScore.asObject])]) _ rfl misread
    .string).2.2.2.1 ?_ _ (.permuted .all (.swap _ _ _))
  decide

end Finify.Credit.Conditions
