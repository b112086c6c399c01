/-
# The constants of accepted conditions

Validation looks at the constants of a range as numbers and at no other constants, whatever the
data type is.  Evaluation converts all of them to the data type.  This module says which accepted
ranges have a value at all, and which conditions fail on data that is all of its data types.
-/

import Finify.Credit.ConditionOrders
import Finify.Credit.RuleLoop

namespace Finify.Credit.Conditions

open Finify.Foundations

variable {language : Language} {dataType : DataType} {raw record : Value} {leaf : Leaf}
  {actual : Carrier dataType}

/-! ## Ranges -/

def Leaf.IsRange (language : Language) (leaf : Leaf) : Prop :=
  leaf.operator.toText language = some "BETWEEN" ∨ leaf.operator.toText language = some "RANGE"

def IsValue (language : Language) (dataType : DataType) (value : Carrier dataType) : Prop :=
  ∃ raw, coerce language dataType raw = some (.present value)

def Leaf.Satisfiable (language : Language) (dataType : DataType) (leaf : Leaf) : Prop :=
  ∃ raw value, coerce language dataType raw = some (.present value) ∧
    leaf.judge language dataType raw = some true

/-- The lower end belongs to the range. -/
def Leaf.closedBelow (leaf : Leaf) : Bool :=
  leaf.operator.is "BETWEEN" || leaf.lowerInclusive.isNotFalse

/-- The upper end belongs to the range. -/
def Leaf.closedAbove (leaf : Leaf) : Bool :=
  leaf.operator.is "BETWEEN" || leaf.upperInclusive.isNotFalse

/-- The operator is the text of one of the two, the ends are of the data type, the upper one is
there, and in the order of the data type the ends or values between them are in the range. -/
def Leaf.HasRoom (language : Language) (dataType : DataType) (leaf : Leaf) : Prop :=
  leaf.isOneOf "BETWEEN" "RANGE" = true ∧
    ∃ upper, coerce language dataType leaf.upperValue = some (.present upper) ∧
      ((leaf.lowerValue.isMissing = true ∧
          (leaf.closedAbove = true ∨ ∃ value, IsValue language dataType value ∧ value < upper)) ∨
        ∃ lower, coerce language dataType leaf.lowerValue = some (.present lower) ∧
          (leaf.closedBelow = true ∧ leaf.closedAbove = true ∧ lower ≤ upper ∨
            (leaf.closedBelow = true ∨ leaf.closedAbove = true) ∧ lower < upper ∨
            ∃ value, IsValue language dataType value ∧ lower < value ∧ value < upper))

/-- A range is judged by its two ends. -/
theorem judge_range (hrange : leaf.isOneOf "BETWEEN" "RANGE" = true) :
    leaf.judge language dataType raw = (do
      let actual ← coerce language dataType raw
      let lower ← coerce language dataType leaf.lowerValue
      let upper ← coerce language dataType leaf.upperValue
      some (leaf.lowerOk (actual.compare lower) && leaf.upperOk (actual.compare upper))) := by
  obtain ⟨field, type, operator, value, values, lower, upper, below, above⟩ := leaf
  rcases Bool.or_eq_true .. ▸ hrange with his | his
  · obtain rfl : operator = .text "BETWEEN" := Value.eq_text_of_is his
    rfl
  · obtain rfl : operator = .text "RANGE" := Value.eq_text_of_is his
    rfl

/-- A leaf that validation takes for a range but evaluation does not is never satisfied. -/
theorem judge_ne_true_of_not_text (hrange : leaf.IsRange language)
    (hnot : leaf.isOneOf "BETWEEN" "RANGE" ≠ true) :
    leaf.judge language dataType raw ≠ some true := by
  obtain ⟨field, type, operator, value, values, lower, upper, below, above⟩ := leaf
  intro htrue
  cases operator with
  | text operator =>
    rcases hrange with hsame | hsame
    · cases hsame
      exact hnot rfl
    · cases hsame
      exact hnot rfl
  | _ =>
    obtain ⟨actual, _, htrue⟩ := Option.bind_eq_some_iff.mp htrue
    obtain ⟨expected, _, htrue⟩ := Option.bind_eq_some_iff.mp htrue
    exact absurd (Option.some.inj htrue) (by simp [decides, Value.is])

theorem starts_of_isMissing {lower : Coerced (Carrier dataType)} (hmissing : lower.isMissing = true) :
    leaf.Starts lower (.present actual) := by
  cases lower with
  | present => exact absurd hmissing Bool.false_ne_true
  | undefined => exact ⟨id, Or.inr (by simp)⟩
  | null => exact ⟨id, Or.inr (by simp)⟩

theorem starts_present_iff {lower : Carrier dataType} :
    leaf.Starts (.present lower) (.present actual) ↔
      if leaf.closedBelow = true then lower ≤ actual else lower < actual := by
  rw [Leaf.Starts]
  show (¬ actual < lower ∧ (leaf.closedBelow = true ∨ _)) ↔ _
  split
  · rename_i hclosed
    rw [and_iff_left (Or.inl hclosed), not_lt]
  · rename_i hopen
    rw [or_iff_right hopen, not_lt, ne_eq, Coerced.present.injEq, ← ne_eq, ne_comm,
      ← lt_iff_le_and_ne]

theorem ends_present_iff {upper : Carrier dataType} :
    leaf.Ends (.present upper) (.present actual) ↔
      if leaf.closedAbove = true then actual ≤ upper else actual < upper := by
  rw [Leaf.Ends]
  show (actual < upper ∨ leaf.closedAbove = true ∧ _) ↔ _
  split
  · rename_i hclosed
    rw [and_iff_right hclosed, Coerced.present.injEq, ← le_iff_lt_or_eq]
  · rename_i hopen
    rw [or_iff_left fun hboth => hopen hboth.1]

theorem not_ends_of_isMissing {upper : Coerced (Carrier dataType)}
    (hmissing : upper.isMissing = true) : ¬ leaf.Ends upper (.present actual) := by
  cases upper with
  | present => exact absurd hmissing Bool.false_ne_true
  | undefined => simp [Leaf.Ends, Coerced.Before]
  | null => simp [Leaf.Ends, Coerced.Before]

/-- A value is missing after coercion exactly if it was before. -/
theorem isMissing_coerce {coerced : Coerced (Carrier dataType)}
    (hcoerce : coerce language dataType raw = some coerced) :
    coerced.isMissing = raw.isMissing := by
  cases raw with
  | undefined => rw [← Option.some.inj hcoerce]; rfl
  | null => rw [← Option.some.inj hcoerce]; rfl
  | _ =>
    obtain ⟨value, _, rfl⟩ := Option.map_eq_some_iff.mp hcoerce
    rfl

theorem exists_present_of_not_isMissing {coerced : Coerced (Carrier dataType)}
    (hpresent : coerced.isMissing ≠ true) : ∃ value, coerced = .present value := by
  cases coerced with
  | present value => exact ⟨value, rfl⟩
  | undefined => exact absurd rfl hpresent
  | null => exact absurd rfl hpresent

/-- A range is satisfied by some value exactly if it has room. -/
theorem satisfiable_iff_hasRoom (hrange : leaf.IsRange language) :
    leaf.Satisfiable language dataType ↔ leaf.HasRoom language dataType := by
  constructor
  · rintro ⟨raw, actual, hactual, htrue⟩
    have hone : leaf.isOneOf "BETWEEN" "RANGE" = true := by
      by_contra hnot
      exact judge_ne_true_of_not_text hrange hnot htrue
    rw [judge_range hone, hactual, Option.bind_eq_bind, Option.bind_some] at htrue
    obtain ⟨lower, hlower, htrue⟩ := Option.bind_eq_some_iff.mp htrue
    obtain ⟨upper, hupper, htrue⟩ := Option.bind_eq_some_iff.mp htrue
    obtain ⟨hstarts, hends⟩ := Bool.and_eq_true .. ▸ Option.some.inj htrue
    rw [lowerOk_iff] at hstarts
    rw [upperOk_iff] at hends
    obtain ⟨last, rfl⟩ := exists_present_of_not_isMissing fun hmissing =>
      not_ends_of_isMissing hmissing hends
    refine ⟨hone, last, hupper, ?_⟩
    rw [ends_present_iff] at hends
    have hvalue : IsValue language dataType actual := ⟨raw, hactual⟩
    by_cases hmissing : lower.isMissing = true
    · left
      refine ⟨(isMissing_coerce hlower).symm.trans hmissing, ?_⟩
      split at hends
      · rename_i hclosed
        exact Or.inl hclosed
      · exact Or.inr ⟨actual, hvalue, hends⟩
    · right
      obtain ⟨first, rfl⟩ := exists_present_of_not_isMissing hmissing
      refine ⟨first, hlower, ?_⟩
      rw [starts_present_iff] at hstarts
      split at hstarts <;> split at hends
      · rename_i hbelow habove
        exact Or.inl ⟨hbelow, habove, hstarts.trans hends⟩
      · rename_i hbelow _
        exact Or.inr (Or.inl ⟨Or.inl hbelow, hstarts.trans_lt hends⟩)
      · rename_i _ habove
        exact Or.inr (Or.inl ⟨Or.inr habove, hstarts.trans_le hends⟩)
      · exact Or.inr (Or.inr ⟨actual, hvalue, hstarts, hends⟩)
  · rintro ⟨hone, upper, hupper, hroom⟩
    have hjudge : ∀ {raw value lower}, coerce language dataType raw = some (.present value) →
        coerce language dataType leaf.lowerValue = some lower →
        leaf.Starts lower (.present value) →
        (if leaf.closedAbove = true then value ≤ upper else value < upper) →
        leaf.Satisfiable language dataType := by
      intro raw value lower hvalue hlower hstarts hends
      refine ⟨raw, value, hvalue, ?_⟩
      rw [judge_range hone, hvalue, hlower, hupper]
      have hlowerOk := lowerOk_iff.mpr hstarts
      have hupperOk := upperOk_iff.mpr (ends_present_iff.mpr hends)
      simp only [Option.bind_eq_bind, Option.bind_some, hlowerOk, hupperOk, Bool.and_self]
    rcases hroom with ⟨hmissing, hopen⟩ | ⟨lower, hlower, hroom⟩
    · obtain ⟨lower, hlower, _⟩ := coerce_of_isMissing language dataType hmissing
      have hstarts : ∀ value, leaf.Starts lower (.present value) := fun value =>
        starts_of_isMissing ((isMissing_coerce hlower).trans hmissing)
      rcases hopen with hclosed | ⟨value, ⟨raw, hraw⟩, hless⟩
      · apply hjudge hupper hlower (hstarts upper)
        rw [if_pos hclosed]
      · apply hjudge hraw hlower (hstarts value)
        split
        · exact hless.le
        · exact hless
    · rcases hroom with ⟨hbelow, habove, hle⟩ | ⟨hclosed, hless⟩ | ⟨value, ⟨raw, hraw⟩, hfirst, hlast⟩
      · apply hjudge hupper hlower (starts_present_iff.mpr ?_) ?_
        · rw [if_pos hbelow]
          exact hle
        · rw [if_pos habove]
      · rcases hclosed with hbelow | habove
        · apply hjudge hlower hlower (starts_present_iff.mpr ?_) ?_
          · rw [if_pos hbelow]
          · split
            · exact hless.le
            · exact hless
        · apply hjudge hupper hlower (starts_present_iff.mpr ?_) ?_
          · split
            · exact hless.le
            · exact hless
          · rw [if_pos habove]
      · apply hjudge hraw hlower (starts_present_iff.mpr ?_) ?_
        · split
          · exact hfirst.le
          · exact hfirst
        · split
          · exact hlast.le
          · exact hlast

/-! ## Failures -/

def Leaf.Coerces (language : Language) (record : Value) (dataType : DataType) (leaf : Leaf) : Prop :=
  ∀ value, leaf.read language record = some value →
    (coerce language (leaf.effectiveType dataType) value).isSome

/-- A constant that a leaf comes to, comparing a value of its data type, is not of the data type:
an end of a range, the constant of a comparison, or one in a list before the first that is equal
to the value. -/
def Leaf.Fails (language : Language) (dataType : DataType) (raw : Value) (leaf : Leaf) : Prop :=
  leaf.isOneOf "IS_NULL" "IS_NOT_NULL" = false ∧
    if leaf.isOneOf "IN" "NOT_IN" = true then
      ∃ front item back, leaf.items = some (front ++ item :: back) ∧
        coerce language dataType item = none ∧
        ∀ earlier ∈ front, coerce language dataType earlier ≠ coerce language dataType raw
    else if leaf.isOneOf "BETWEEN" "RANGE" = true then
      coerce language dataType leaf.lowerValue = none ∨
        coerce language dataType leaf.upperValue = none
    else coerce language dataType leaf.value = none

/-- The field of a leaf is no path, or a constant that it comes to is not of the data type. -/
def Leaf.Broken (language : Language) (record : Value) (dataType : DataType) (leaf : Leaf) : Prop :=
  leaf.read language record = none ∨
    ∃ value, leaf.read language record = some value ∧
      leaf.Fails language (leaf.effectiveType dataType) value

open Classical in
/-- Evaluation comes to a leaf that is broken. -/
def MeetsBroken (language : Language) (node : Node) (record : Value) (dataType : DataType) : Prop :=
  node.Meets (fun leaf => decide (leaf.Holds language record dataType))
    (Leaf.Broken language record dataType)

/-- Looking in a list fails exactly at a constant before which none is equal. -/
theorem contains_eq_none_iff {actual : Coerced (Carrier dataType)} {items : List Value} :
    Connective.any.gather (items.map fun item => (coerce language dataType item).map
        fun expected => decide (actual.compare expected = .eq)) = none ↔
      ∃ front item back, items = front ++ item :: back ∧ coerce language dataType item = none ∧
        ∀ earlier ∈ front, (coerce language dataType earlier).isSome ∧
          coerce language dataType earlier ≠ some actual := by
  have hfalse : ∀ item, (coerce language dataType item).map
      (fun expected => decide (actual.compare expected = .eq)) = some false ↔
        (coerce language dataType item).isSome ∧ coerce language dataType item ≠ some actual := by
    intro item
    cases coerce language dataType item with
    | none => simp
    | some expected =>
      rw [Option.map_some, Option.some.injEq, decide_eq_false_iff_not, compare_eq_iff, ne_eq,
        Option.some.injEq, Option.isSome_some, and_iff_right rfl, eq_comm]
  rw [Formula.gather_eq_none_iff]
  constructor
  · rintro ⟨front, back, hsplit, hall⟩
    obtain ⟨before, rest, rfl, rfl, hrest⟩ := List.map_eq_append_iff.mp hsplit
    obtain ⟨item, after, rfl, hitem, rfl⟩ := List.map_eq_cons_iff.mp hrest
    refine ⟨before, item, after, rfl, Option.map_eq_none_iff.mp hitem, ?_⟩
    intro earlier hmem
    exact (hfalse earlier).mp (hall _ (List.mem_map_of_mem hmem))
  · rintro ⟨front, item, back, rfl, hitem, hall⟩
    refine ⟨_, _, by rw [List.map_append, List.map_cons, hitem, Option.map_none], ?_⟩
    intro result hmem
    obtain ⟨earlier, hearlier, rfl⟩ := List.mem_map.mp hmem
    exact (hfalse earlier).mpr (hall earlier hearlier)

/-- A list that stops short of an equal constant has a first one that does not convert. -/
theorem exists_first_failure {items : List Value} {actual : Coerced (Carrier dataType)}
    (hfails : ∃ front item back, items = front ++ item :: back ∧
      coerce language dataType item = none ∧
      ∀ earlier ∈ front, coerce language dataType earlier ≠ some actual) :
    ∃ front item back, items = front ++ item :: back ∧ coerce language dataType item = none ∧
      ∀ earlier ∈ front, (coerce language dataType earlier).isSome ∧
        coerce language dataType earlier ≠ some actual := by
  obtain ⟨front, item, back, rfl, hitem, hall⟩ := hfails
  induction front with
  | nil => exact ⟨[], item, back, rfl, hitem, fun earlier hmem => absurd hmem List.not_mem_nil⟩
  | cons head rest ih =>
    cases hhead : coerce language dataType head with
    | none =>
      exact ⟨[], head, rest ++ item :: back, rfl, hhead,
        fun earlier hmem => absurd hmem List.not_mem_nil⟩
    | some found =>
      obtain ⟨front, other, after, hsplit, hother, hfront⟩ :=
        ih fun earlier hmem => hall earlier (List.mem_cons_of_mem _ hmem)
      refine ⟨head :: front, other, after, by rw [List.cons_append, hsplit]; rfl, hother, ?_⟩
      intro earlier hmem
      cases hmem with
      | head => exact ⟨by rw [hhead]; rfl, hall head List.mem_cons_self⟩
      | tail _ hrest => exact hfront earlier hrest

/-- A leaf that has been checked fails on a value of its data type exactly by its constants. -/
theorem judge_eq_none_iff (hvalid : leaf.isValid language = true)
    (hcoerce : (coerce language dataType raw).isSome) :
    leaf.judge language dataType raw = none ↔ leaf.Fails language dataType raw := by
  obtain ⟨actual, hactual⟩ := Option.isSome_iff_exists.mp hcoerce
  have hitems := isSome_items_of_isValid hvalid
  unfold Leaf.judge Leaf.Fails
  by_cases hnull : leaf.operator.is "IS_NULL" = true
  · rw [if_pos hnull]
    refine iff_of_false (Option.some_ne_none _) fun hboth => ?_
    rw [Leaf.isOneOf, hnull] at hboth
    exact absurd hboth.1 (by simp)
  rw [if_neg hnull]
  by_cases hnotNull : leaf.operator.is "IS_NOT_NULL" = true
  · rw [if_pos hnotNull]
    refine iff_of_false (Option.some_ne_none _) fun hboth => ?_
    rw [Leaf.isOneOf, hnotNull] at hboth
    exact absurd hboth.1 (by simp)
  have hnulls : leaf.isOneOf "IS_NULL" "IS_NOT_NULL" = false := by
    rw [Leaf.isOneOf, Bool.eq_false_of_not_eq_true hnull, Bool.eq_false_of_not_eq_true hnotNull]
    rfl
  rw [if_neg hnotNull, and_iff_right hnulls, hactual, Option.bind_eq_bind, Option.bind_some]
  by_cases hin : leaf.isOneOf "IN" "NOT_IN" = true
  · obtain ⟨items, hfound⟩ := Option.isSome_iff_exists.mp (hitems hin)
    rw [if_pos hin, if_pos hin, hfound, Option.bind_eq_bind, Option.bind_some]
    have hcontains := @contains_eq_none_iff language dataType actual items
    constructor
    · intro hnone
      have hgather : Connective.any.gather (items.map fun item =>
          (coerce language dataType item).map
            fun expected => decide (actual.compare expected = .eq)) = none := by
        rw [Option.eq_none_iff_forall_ne_some]
        intro contains hsome
        rw [hsome] at hnone
        exact Option.some_ne_none _ hnone
      obtain ⟨front, item, back, hsplit, hitem, hall⟩ := hcontains.mp hgather
      exact ⟨front, item, back, congrArg some hsplit, hitem,
        fun earlier hmem => (hall earlier hmem).2⟩
    · rintro ⟨front, item, back, hsplit, hitem, hall⟩
      rw [hcontains.mpr (exists_first_failure
        ⟨front, item, back, Option.some.inj hsplit, hitem, hall⟩)]
      rfl
  rw [if_neg hin, if_neg hin]
  by_cases hbetween : leaf.isOneOf "BETWEEN" "RANGE" = true
  · rw [if_pos hbetween, if_pos hbetween]
    cases coerce language dataType leaf.lowerValue with
    | none => exact iff_of_true rfl (Or.inl rfl)
    | some lower =>
      cases coerce language dataType leaf.upperValue with
      | none => exact iff_of_true rfl (Or.inr rfl)
      | some upper =>
        refine iff_of_false (Option.some_ne_none _) ?_
        rintro (hnone | hnone)
        · exact absurd hnone (Option.some_ne_none _)
        · exact absurd hnone (Option.some_ne_none _)
  · rw [if_neg hbetween, if_neg hbetween]
    cases coerce language dataType leaf.value with
    | none => exact iff_of_true rfl rfl
    | some expected =>
      exact iff_of_false (Option.some_ne_none _) (Option.some_ne_none _)

/-- Evaluation on data of the data types fails exactly if it comes to a leaf that is broken. -/
theorem evaluate_eq_none_iff {node : Node}
    (hvalid : ∀ leaf ∈ node.leaves, leaf.isValid language = true)
    (hcoerces : ∀ leaf ∈ node.leaves, leaf.Coerces language record dataType) :
    evaluate language node record dataType = none ↔
      MeetsBroken language node record dataType := by
  classical
  apply Formula.evaluate_eq_none_iff
  · intro leaf value heval
    rw [Bool.eq_iff_iff, evaluate_leaf_iff heval, decide_eq_true_iff]
  · intro leaf hleaf
    unfold Leaf.evaluate Leaf.Broken
    cases hread : leaf.read language record with
    | none => exact iff_of_true rfl (Or.inl rfl)
    | some value =>
      rw [Option.bind_eq_bind, Option.bind_some,
        judge_eq_none_iff (hvalid leaf hleaf) (hcoerces leaf hleaf value hread)]
      constructor
      · exact fun hfails => Or.inr ⟨value, rfl, hfails⟩
      · rintro (hnone | ⟨other, hother, hfails⟩)
        · cases hnone
        · cases hother
          exact hfails

/-! ## Accepted rules -/

/-- Every range has a value, and the data decides alone whether evaluation throws. -/
def Rule.Means (language : Language) (rule : Rule) : Prop :=
  (∀ leaf ∈ rule.condition.leaves, leaf.IsRange language →
    leaf.Satisfiable language (leaf.effectiveType rule.dataType)) ∧
  ∀ record, (∀ leaf ∈ rule.condition.leaves, leaf.Coerces language record rule.dataType) →
    (evaluate language rule.condition record rule.dataType).isSome

theorem eq_condition_of_validateRule {known : RuleBody → Bool} {dto : RuleDto} {rule : Rule}
    (hvalid : validateRule language known dto = some rule) :
    accept language dto.condition = some rule.condition ∧ rule.dataType = dto.dataType := by
  obtain ⟨condition, haccept, hrule⟩ := Option.bind_eq_some_iff.mp hvalid
  split at hrule
  · cases hrule
    exact ⟨haccept, rfl⟩
  · cases hrule

/-- An accepted rule means something exactly if its ranges have room in their data types and no
data of the data types leads to a leaf whose field is no path or whose constant is not of its data
type. -/
theorem accepted_rule_means_iff (language : Language) (known : RuleBody → Bool) (dto : RuleDto)
    (rule : Rule) (hvalid : validateRule language known dto = some rule) :
    rule.Means language ↔
      (∀ leaf ∈ rule.condition.leaves, leaf.IsRange language →
        leaf.HasRoom language (leaf.effectiveType dto.dataType)) ∧
      ∀ record, (∀ leaf ∈ rule.condition.leaves, leaf.Coerces language record dto.dataType) →
        ¬ MeetsBroken language rule.condition record dto.dataType := by
  obtain ⟨haccept, hdataType⟩ := eq_condition_of_validateRule hvalid
  rw [Rule.Means, hdataType]
  have hleaves : ∀ leaf ∈ rule.condition.leaves, leaf.isValid language = true := by
    intro leaf hleaf
    exact isValid_of_validate haccept hleaf
  apply and_congr
  · constructor
    · intro hall leaf hleaf hrange
      exact (satisfiable_iff_hasRoom hrange).mp (hall leaf hleaf hrange)
    · intro hall leaf hleaf hrange
      exact (satisfiable_iff_hasRoom hrange).mpr (hall leaf hleaf hrange)
  · constructor
    · intro hall record hcoerces hmeets
      have hsome := hall record hcoerces
      rw [(evaluate_eq_none_iff hleaves hcoerces).mpr hmeets] at hsome
      exact absurd hsome (by decide)
    · intro hall record hcoerces
      rw [Option.isSome_iff_ne_none]
      intro hnone
      exact hall record hcoerces ((evaluate_eq_none_iff hleaves hcoerces).mp hnone)

def nineToTen : Leaf where
  field := .text "score"
  operator := .text "BETWEEN"
  lowerValue := .number (.finite 9)
  upperValue := .number (.finite 10)

/-- A rule on an input that goes on whatever its condition gives. -/
def RuleDto.onInput (dataType : DataType) (condition : Value) : RuleDto where
  id := 1
  sourceType := .decisionInput
  dataType := dataType
  condition := condition
  actionOnMatch := { type := .text "CONTINUE" }
  actionOnNoMatch := { type := .text "CONTINUE" }
  sourceFailureAction := { type := .text "MANUAL_REVIEW" }

/-- The object that a range is read from. -/
def Leaf.asRange (leaf : Leaf) : Value :=
  .object [("field", leaf.field), ("operator", leaf.operator), ("lowerValue", leaf.lowerValue),
    ("upperValue", leaf.upperValue)]

/-- A range of texts is accepted that no text satisfies, and a comparison of numbers with a text
that fails on every number. -/
theorem accepted_rule_without_meaning :
    (validateRule plain (fun _ => true) (.onInput .string nineToTen.asRange) =
        some { RuleDto.onInput .string nineToTen.asRange with condition := .atom nineToTen } ∧
      ¬ nineToTen.Satisfiable plain .string) ∧
    (validateRule plain (fun _ => true) (.onInput .decimal highScore.asObject) =
        some { RuleDto.onInput .decimal highScore.asObject with condition := .atom highScore } ∧
      (coerce plain .decimal (.number (.finite 5))).isSome ∧
      evaluate plain (.atom highScore) (.object [("score", .number (.finite 5))]) .decimal =
        none) := by
  refine ⟨⟨rfl, ?_⟩, rfl, by decide, by decide⟩
  rw [satisfiable_iff_hasRoom (Or.inl rfl)]
  rintro ⟨_, upper, hupper, hroom⟩
  cases hupper
  have hends : ¬ ([57] : List ℕ) ≤ [49, 48] := by decide
  rcases hroom with ⟨hmissing, _⟩ | ⟨lower, hlower, hroom⟩
  · exact absurd hmissing (by decide)
  · cases hlower
    rcases hroom with ⟨_, _, hle⟩ | ⟨_, hless⟩ | ⟨value, _, hfirst, hlast⟩
    · exact hends hle
    · exact hends hless.le
    · exact hends (hfirst.trans hlast).le

/-- A range of numbers that means something. -/
theorem accepted_rule_means_decimal :
    Rule.Means plain
      { RuleDto.onInput .decimal nineToTen.asRange with condition := .atom nineToTen } :=
  (accepted_rule_means_iff plain (fun _ => true) (.onInput .decimal nineToTen.asRange)
    { RuleDto.onInput .decimal nineToTen.asRange with condition := .atom nineToTen } rfl).mpr (by
      constructor
      · intro leaf hleaf _
        rw [List.mem_singleton.mp hleaf]
        have hle : (9 : ℚ) ≤ 10 := by decide
        exact ⟨rfl, (10 : ℚ), rfl, Or.inr ⟨(9 : ℚ), rfl, Or.inl ⟨rfl, rfl, hle⟩⟩⟩
      · intro record _ hmeets
        cases hmeets with
        | atom _ hbroken =>
          rcases hbroken with hread | ⟨value, _, _, hfails⟩
          · cases hread
          · rcases hfails with hnone | hnone
            · cases hnone
            · cases hnone)

end Finify.Credit.Conditions
