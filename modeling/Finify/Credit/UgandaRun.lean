/-
# The loop over the policy of Uganda

What each leaf, each condition and each action of the policy does on accepted inputs, and with it
the whole loop: it applies the action of the first rule whose condition holds.
-/

import Finify.Credit.UgandaPolicy

namespace Finify.Credit.Uganda

open Finify.Foundations
open Conditions

variable {environment : Environment} {language : Language} {inputs first second : DecisionInputs}
  {aiResult : Value}

/-! ## Conditions -/

theorem codeUnits_grade : ∀ first second : Grade,
    codeUnits first.text = codeUnits second.text ↔ first = second := by
  intro first second
  cases first <;> cases second <;> decide

theorem codeUnits_channel (first second : Channel) :
    codeUnits first.text = codeUnits second.text ↔ first = second := by
  cases first <;> cases second <;> decide

theorem codeUnits_kycStatus (first second : KycStatus) :
    codeUnits first.text = codeUnits second.text ↔ first = second := by
  cases first <;> cases second <;> decide

theorem codeUnits_bureauStatus (first second : BureauStatus) :
    codeUnits first.text = codeUnits second.text ↔ first = second := by
  cases first <;> cases second <;> decide

theorem compare_texts {left right : String} {same : Prop} [Decidable same]
    (hsame : codeUnits left = codeUnits right ↔ same) :
    (decide ((Coerced.present (codeUnits left)).compare (.present (codeUnits right)) = .eq)) =
      decide same := by
  rw [decide_eq_decide, compare_eq_iff, Coerced.present.injEq, hsame]

/-- An operator on numbers says what it says of their order. -/
theorem decides_comparison (operator : Comparison) (actual expected : ℚ) :
    decides (.text operator.text) ((Coerced.present actual).compare (.present expected)) =
      operator.holds actual expected := by
  have hbefore : (Coerced.present actual).Before (.present expected) ↔ actual < expected := Iff.rfl
  rw [Bool.eq_iff_iff, decides_iff]
  cases operator with
  | lessThan =>
    show (Coerced.present actual).Before (.present expected) ↔ _
    rw [hbefore, Comparison.holds, decide_eq_true_iff]
  | lessThanOrEqual =>
    show Coerced.present actual = .present expected ∨ _ ↔ _
    rw [hbefore, Coerced.present.injEq, Comparison.holds, decide_eq_true_iff, le_iff_eq_or_lt]
  | greaterThan =>
    show Coerced.present actual ≠ .present expected ∧ ¬ _ ↔ _
    rw [hbefore, ne_eq, Coerced.present.injEq, Comparison.holds, decide_eq_true_iff, not_lt,
      ← ne_eq, ne_comm, and_comm, ← lt_iff_le_and_ne]
  | greaterThanOrEqual =>
    show ¬ (Coerced.present actual).Before (.present expected) ↔ _
    rw [hbefore, Comparison.holds, decide_eq_true_iff, not_lt]

theorem trunc_natCast (value : ℕ) : trunc (value : ℚ) = value := by
  rw [trunc, if_pos (Nat.cast_nonneg value), Int.floor_natCast]

/-- Looking for a grade in a list. -/
theorem gather_grades (grade : Grade) (grades : List Grade) :
    Connective.any.gather ((grades.map fun other => Value.text other.text).map fun item =>
      (coerce language .string item).map fun expected =>
        decide ((Coerced.present (codeUnits grade.text)).compare expected = .eq)) =
      some (grades.contains grade) := by
  induction grades with
  | nil => rfl
  | cons head rest ih =>
    show (if decide ((Coerced.present (codeUnits grade.text)).compare
        (.present (codeUnits head.text)) = .eq) = true then _ else Connective.any.gather _) = _
    rw [compare_texts (codeUnits_grade grade head), ih, List.contains_cons]
    by_cases hsame : grade = head
    · simp [hsame, compare_eq_iff]
    · simp [hsame]

/-- A leaf of the policy says of the inputs what its test does. -/
theorem evaluate_test (test : Test) :
    test.leaf.evaluate language inputs.toValue .string = some (test.holds inputs) := by
  cases test with
  | kycIsNot status =>
    show some (decide ((Coerced.present (codeUnits inputs.kycStatus.text)).compare
      (.present (codeUnits status.text)) ≠ .eq)) = some (decide (inputs.kycStatus ≠ status))
    rw [decide_not, decide_not, compare_texts (codeUnits_kycStatus _ _)]
  | bureauIs status => exact congrArg some (compare_texts (codeUnits_bureauStatus _ _))
  | channelIs channel => exact congrArg some (compare_texts (codeUnits_channel _ _))
  | gradeIs grade => exact congrArg some (compare_texts (codeUnits_grade _ _))
  | gradeIn grades =>
    have hgather := @gather_grades language inputs.grade grades
    exact congrArg (fun found => found.bind some) hgather
  | flag field value =>
    have hsame : ∀ actual : Bool, decide ((Coerced.present actual).compare (.present value) =
        .eq) = decide (actual = value) := by
      intro actual
      rw [decide_eq_decide, compare_eq_iff, Coerced.present.injEq]
    cases field with
    | dormantAfterAllocation => exact congrArg some (hsame inputs.dormantAfterAllocation)
    | schoolAggregatorTermPaid => exact congrArg some (hsame inputs.schoolAggregatorTermPaid)
  | integer field operator value =>
    have hsame : ∀ actual : ℚ≥0, decides (.text operator.text)
        ((Coerced.present (trunc actual : ℚ)).compare (.present (trunc (value : ℚ) : ℚ))) =
          operator.holds (trunc actual) value := by
      intro actual
      rw [decides_comparison, trunc_natCast, Int.cast_natCast]
    cases field <;> cases operator <;> exact congrArg some (hsame _)
  | cashFlow operator value =>
    have hsame := decides_comparison operator inputs.dominantCashFlow value
    cases operator <;> exact congrArg some hsame
  | cashFlowRange lower upper upperInclusive =>
    have hbefore : ∀ left right : ℚ, (Coerced.present left).Before (.present right) ↔
        left < right := fun left right => Iff.rfl
    have hlower : decide ((Coerced.present (inputs.dominantCashFlow : ℚ)).compare
        (.present (lower : ℚ)) ≠ .lt) = decide ((lower : ℚ) ≤ inputs.dominantCashFlow) := by
      rw [decide_eq_decide, ne_eq, compare_lt_iff, hbefore, not_lt]
    cases upperInclusive with
    | false =>
      have hupper : decide ((Coerced.present (inputs.dominantCashFlow : ℚ)).compare
          (.present (upper : ℚ)) = .lt) = decide ((inputs.dominantCashFlow : ℚ) < upper) := by
        rw [decide_eq_decide, compare_lt_iff, hbefore]
      exact congrArg some (congrArg₂ and hlower hupper)
    | true =>
      have hupper : decide ((Coerced.present (inputs.dominantCashFlow : ℚ)).compare
          (.present (upper : ℚ)) ≠ .gt) = decide ((inputs.dominantCashFlow : ℚ) ≤ upper) := by
        rw [decide_eq_decide, ne_eq, compare_gt_iff, hbefore, ne_eq, Coerced.present.injEq,
          not_and_not_right, ← or_iff_not_imp_left, le_iff_eq_or_lt]
      exact congrArg some (congrArg₂ and hlower hupper)

/-- A condition of the policy says of the inputs what its tests do. -/
theorem evaluate_condition (condition : Condition) :
    evaluate language condition.node inputs.toValue .string = some (condition.holds inputs) := by
  cases condition with
  | one test => exact evaluate_test test
  | all tests =>
    show Connective.all.gather (Formula.evaluateEach _ _) = _
    rw [Formula.evaluateEach_eq_map, List.map_map, Condition.holds]
    induction tests with
    | nil => rfl
    | cons test rest ih =>
      rw [List.map_cons, List.all_cons]
      show Connective.all.gather (test.leaf.evaluate language inputs.toValue .string :: _) = _
      rw [evaluate_test]
      cases test.holds inputs with
      | false => rfl
      | true => exact ih

/-! ## The loop -/

/-- The limit that an action offers. -/
def Act.limit (proposed : ℚ≥0) : Act → ℚ
  | .fixed limit => limit
  | .scaled tenths => min 1500000 (max 400000 (proposed * (tenths / 10)))
  | _ => 0

/-- The outcome that an action leaves. -/
def Act.outcome : Act → Review.RuleOutcome
  | .reject _ => .rejected
  | .manualReview _ => .manualReview
  | _ => .processing

/-- The reason that an action gives. -/
def Act.reason : Act → String
  | .reject reasonCode | .manualReview reasonCode => reasonCode
  | _ => "POLICY_OFFER_MATCHED"

def Act.after (inputs : DecisionInputs) (aiResult : Value) (act : Act) : Context :=
  { start inputs aiResult with
    currentLimit := .finite (act.limit inputs.modelProposedLimit)
    outcome := act.outcome
    reasonCodes := [act.reason] }

/-- An action of the policy has a limit and a reason that fit. -/
def Act.isSound (act : Act) : Bool :=
  act.reason ≠ "" && act.reason.length ≤ 150 &&
    match act with
    | .fixed limit => decide (limit ≤ 1500000)
    | _ => true

theorem Number.min_finite (left right : ℚ) :
    (Number.finite left).min (.finite right) = .finite (min left right) := by
  rw [Number.min, if_neg (by simp)]
  show (if decide (right < left) = true then _ else _) = _
  by_cases hless : right < left
  · rw [if_pos (decide_eq_true hless), min_eq_right hless.le]
  · rw [if_neg (by simp [hless]), min_eq_left (not_lt.mp hless)]

theorem Number.max_finite (left right : ℚ) :
    (Number.finite left).max (.finite right) = .finite (max left right) := by
  rw [Number.max, if_neg (by simp)]
  show (if decide (left < right) = true then _ else _) = _
  by_cases hless : left < right
  · rw [if_pos (decide_eq_true hless), max_eq_right hless.le]
  · rw [if_neg (by simp [hless]), max_eq_left (not_lt.mp hless)]

theorem applyAction_of_limit {action : Action} {source : Value} {context : Context}
    {numeric limit : Number} (hnumeric : source.toNumber language = some numeric)
    (hlimit : action.limitAfter language numeric context = some limit) :
    applyAction language action source context =
      some { context with
        currentLimit := limit
        outcome := action.outcomeAfter context.outcome
        repaymentOptionIds := action.repaymentOptionIds.getD context.repaymentOptionIds
        reasonCodes := context.reasonCodes ++ (action.reasonCode.filter (· ≠ "")).toList } := by
  rw [applyAction, hnumeric, Option.bind_eq_bind, Option.bind_some, hlimit]
  rfl

/-- The limit that is read off the inputs. -/
theorem limitAfter_scaled (tenths : ℕ) (numeric : Number) :
    (Act.scaled tenths).action.limitAfter language numeric (start inputs aiResult) =
      some (.finite ((Act.scaled tenths).limit inputs.modelProposedLimit)) := by
  show some ((Number.finite ((1500000 : ℕ) : ℚ)).min ((Number.finite ((400000 : ℕ) : ℚ)).max
    (.finite (inputs.modelProposedLimit * (tenths / 10))))) = _
  rw [Number.max_finite, Number.min_finite, Act.limit]
  norm_num

/-- An action of the policy from the context in which the loop starts. -/
theorem applyAction_act (act : Act) (hreason : act.reason ≠ "") :
    applyAction language act.action inputs.toValue (start inputs aiResult) =
      some (act.after inputs aiResult) := by
  have hnumeric : inputs.toValue.toNumber language = some .nan := rfl
  have hlimit : ∀ {act : Act}, act.action.limitAfter language .nan (start inputs aiResult) =
      some (.finite (act.limit inputs.modelProposedLimit)) → act.reason ≠ "" →
        applyAction language act.action inputs.toValue (start inputs aiResult) =
          some (act.after inputs aiResult) := by
    intro act hlimit hreason
    rw [applyAction_of_limit hnumeric hlimit]
    cases act <;>
      simp_all [Act.after, Act.action, Act.outcome, Act.reason, Action.outcomeAfter, Value.is, start]
  cases act with
  | reject => exact hlimit rfl hreason
  | manualReview => exact hlimit rfl hreason
  | fixed => exact hlimit rfl hreason
  | scaled tenths => exact hlimit (limitAfter_scaled tenths .nan) hreason

theorem money_mono {left right : ℚ} (hle : left ≤ right) :
    money (some left) ≤ money (some right) := by
  unfold money
  apply div_le_div_of_nonneg_right _ (by norm_num)
  exact_mod_cast Int.floor_le_floor (by
    have := max_le_max_left 0 hle
    linarith)

theorem money_natCast (value : ℕ) : money (some (value : ℚ)) = value := by
  have hfloor : ⌊(value : ℚ) * 100 + 1 / 2⌋ = (value * 100 : ℕ) := by
    rw [Int.floor_eq_iff]
    push_cast
    constructor <;> linarith
  rw [money, max_eq_right (Nat.cast_nonneg value), hfloor]
  push_cast
  ring

/-- No action of the policy leaves more than the maximum of the master. -/
theorem Act.limit_le (act : Act) (hsound : act.isSound = true) (proposed : ℚ≥0) :
    act.limit proposed ≤ 1500000 := by
  cases act with
  | fixed limit =>
    have hlimit : limit ≤ 1500000 := of_decide_eq_true (Bool.and_eq_true .. ▸ hsound).2
    show (limit : ℚ) ≤ 1500000
    exact_mod_cast hlimit
  | scaled => exact min_le_left _ _
  | _ => norm_num [Act.limit]

theorem Act.reason_of_isSound {act : Act} (hsound : act.isSound = true) :
    act.reason ≠ "" ∧ act.reason.length ≤ 150 := by
  have hboth := (Bool.and_eq_true .. ▸ (Bool.and_eq_true .. ▸ hsound).1)
  exact ⟨of_decide_eq_true hboth.1, of_decide_eq_true hboth.2⟩

theorem conditionResult_rule (seed : Seed) :
    environment.conditionResult seed.rule (start inputs aiResult) =
      some (seed.condition.holds inputs) := evaluate_condition seed.condition

/-- A turn of the loop for a rule whose condition does not hold. -/
theorem apply_of_not_holds {seed : Seed} (hjsonb : environment.jsonb inputs.toValue = true)
    (hnot : seed.condition.holds inputs = false) :
    environment.apply seed.rule (start inputs aiResult) = some (start inputs aiResult) := by
  have hrecords : environment.records (.finite 0) (.finite 0) (some inputs.toValue)
      { type := .text "CONTINUE" } = true := by
    have hsmall : money (some 0) < 10 ^ 22 := by norm_num [money]
    simp [Environment.records, Number.toRat?, hsmall, hjsonb]
  rw [Environment.apply, conditionResult_rule, hnot]
  exact if_pos hrecords

/-- A turn of the loop for a rule whose condition holds. -/
theorem apply_of_holds {seed : Seed} (hjsonb : environment.jsonb inputs.toValue = true)
    (hsound : seed.act.isSound = true) (hholds : seed.condition.holds inputs = true) :
    environment.apply seed.rule (start inputs aiResult) =
      some (seed.act.after inputs aiResult) := by
  obtain ⟨hreason, hlength⟩ := Act.reason_of_isSound hsound
  have hrecords : environment.records (.finite 0)
      (.finite (seed.act.limit inputs.modelProposedLimit)) (some inputs.toValue) seed.act.action =
        true := by
    have hsmall : money (some 0) < 10 ^ 22 := by norm_num [money]
    have hlimit : money (some (seed.act.limit inputs.modelProposedLimit)) < 10 ^ 22 := by
      calc money (some (seed.act.limit inputs.modelProposedLimit))
          ≤ money (some ((1500000 : ℕ) : ℚ)) := money_mono (by
            exact_mod_cast seed.act.limit_le hsound inputs.modelProposedLimit)
        _ = ((1500000 : ℕ) : ℚ) := money_natCast 1500000
        _ < 10 ^ 22 := by norm_num
    have hcode : seed.act.action.reasonCode = some seed.act.reason := by
      cases seed.act <;> rfl
    simp [Environment.records, Number.toRat?, hsmall, hlimit, hjsonb, hcode, hlength]
  rw [Environment.apply, conditionResult_rule, hholds]
  show ((applyAction environment.language seed.act.action inputs.toValue
    (start inputs aiResult)).bind _) = _
  rw [applyAction_act seed.act hreason, Option.bind_some]
  exact if_pos hrecords

theorem not_passesOver (seed : Seed) :
    ¬ (start inputs aiResult).passesOver seed.rule.toRuleBody = true := Bool.false_ne_true

/-- The loop applies the action of the first rule whose condition holds. -/
theorem run_eq (seeds : List Seed) (hjsonb : environment.jsonb inputs.toValue = true)
    (hsound : ∀ seed ∈ seeds, seed.act.isSound = true) :
    environment.run (seeds.map Seed.rule) (start inputs aiResult) =
      some (((seeds.find? fun seed => seed.condition.holds inputs).map fun seed =>
        seed.act.after inputs aiResult).getD (start inputs aiResult)) := by
  induction seeds with
  | nil => rfl
  | cons seed rest ih =>
    have hrest := ih fun other hmem => hsound other (List.mem_cons_of_mem _ hmem)
    rw [List.map_cons, Environment.run, if_neg (not_passesOver seed),
      List.find?_cons]
    cases hholds : seed.condition.holds inputs with
    | true =>
      rw [apply_of_holds hjsonb (hsound seed List.mem_cons_self) hholds, conditionResult_rule,
        hholds]
      simp [RuleBody.stops, Seed.rule]
    | false =>
      rw [apply_of_not_holds hjsonb hholds, conditionResult_rule, hholds]
      simpa [RuleBody.stops, Seed.rule, start] using hrest

end Finify.Credit.Uganda
