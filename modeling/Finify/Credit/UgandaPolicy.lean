/-
# The retail credit policy of Uganda

Version 2 of `UGA_RETAIL_CREDIT_POLICY`: its rules, each as the condition and the action that the
migration seeds, and what the conditions say of the inputs that a request may carry.
-/

import Finify.Credit.ConditionOrders
import Finify.Credit.RuleLoop

namespace Finify.Credit.Uganda

open Finify.Foundations
open Conditions

/-! ## Inputs -/

/-- `grade`, from the best. -/
inductive Grade
  | a
  | b
  | c
  | d
  | e
  | f
  | g
  | h
  | i
  | j
  deriving DecidableEq, Repr

/-- `channel`. -/
inductive Channel
  | app
  | ussd
  | web
  | api
  | agent
  deriving DecidableEq, Repr

/-- `kycStatus`. -/
inductive KycStatus
  | verified
  | notVerified
  | failed
  deriving DecidableEq, Repr

/-- `bureauStatus`. -/
inductive BureauStatus
  | pass
  | fail
  | noRecord
  deriving DecidableEq, Repr

def Grade.text : Grade → String
  | .a => "A"
  | .b => "B"
  | .c => "C"
  | .d => "D"
  | .e => "E"
  | .f => "F"
  | .g => "G"
  | .h => "H"
  | .i => "I"
  | .j => "J"

def Channel.text : Channel → String
  | .app => "APP"
  | .ussd => "USSD"
  | .web => "WEB"
  | .api => "API"
  | .agent => "AGENT"

def KycStatus.text : KycStatus → String
  | .verified => "VERIFIED"
  | .notVerified => "NOT_VERIFIED"
  | .failed => "FAILED"

def BureauStatus.text : BureauStatus → String
  | .pass => "PASS"
  | .fail => "FAIL"
  | .noRecord => "NO_RECORD"

/-- What `CreditDecisionInputsDto` accepts. -/
structure DecisionInputs where
  grade : Grade
  channel : Channel
  kycStatus : KycStatus
  bureauStatus : BureauStatus
  ageYears : ℚ≥0
  dominantCashFlow : ℚ≥0
  modelProposedLimit : ℚ≥0
  telecomTenureMonths : ℚ≥0
  currentDpd : ℚ≥0
  count30PlusDpd6Months : ℚ≥0
  maxDpd6Months : ℚ≥0
  maxDpd12Months : ℚ≥0
  currentOpenLoans : ℚ≥0
  dpd30Days : ℚ≥0
  dpd60Days : ℚ≥0
  dpd90Days : ℚ≥0
  churnBand : ℚ≥0
  churnBand_le : churnBand ≤ 10
  dormantAfterAllocation : Bool
  schoolAggregatorTermPaid : Bool

/-- A number as the language holds it. -/
def ofNumber (value : ℚ≥0) : Value := .number (.finite value)

/-- The object that `decisionInputs` is. -/
def DecisionInputs.toValue (inputs : DecisionInputs) : Value :=
  .object
    [("grade", .text inputs.grade.text), ("channel", .text inputs.channel.text),
      ("countryCode", .text "UGA"), ("kycStatus", .text inputs.kycStatus.text),
      ("bureauStatus", .text inputs.bureauStatus.text), ("ageYears", ofNumber inputs.ageYears),
      ("dominantCashFlow", ofNumber inputs.dominantCashFlow),
      ("modelProposedLimit", ofNumber inputs.modelProposedLimit),
      ("telecomTenureMonths", ofNumber inputs.telecomTenureMonths),
      ("currentDpd", ofNumber inputs.currentDpd),
      ("count30PlusDpd6Months", ofNumber inputs.count30PlusDpd6Months),
      ("maxDpd6Months", ofNumber inputs.maxDpd6Months),
      ("maxDpd12Months", ofNumber inputs.maxDpd12Months),
      ("currentOpenLoans", ofNumber inputs.currentOpenLoans),
      ("dpd30Days", ofNumber inputs.dpd30Days), ("dpd60Days", ofNumber inputs.dpd60Days),
      ("dpd90Days", ofNumber inputs.dpd90Days), ("churnBand", ofNumber inputs.churnBand),
      ("dormantAfterAllocation", .boolean inputs.dormantAfterAllocation),
      ("schoolAggregatorTermPaid", .boolean inputs.schoolAggregatorTermPaid)]

/-! ## Tests -/

/-- The numbers that the rules test. -/
inductive NumberField
  | ageYears
  | dominantCashFlow
  | telecomTenureMonths
  | currentDpd
  | count30PlusDpd6Months
  | maxDpd6Months
  | maxDpd12Months
  | currentOpenLoans
  | churnBand
  deriving DecidableEq, Repr

def NumberField.name : NumberField → String
  | .ageYears => "ageYears"
  | .dominantCashFlow => "dominantCashFlow"
  | .telecomTenureMonths => "telecomTenureMonths"
  | .currentDpd => "currentDpd"
  | .count30PlusDpd6Months => "count30PlusDpd6Months"
  | .maxDpd6Months => "maxDpd6Months"
  | .maxDpd12Months => "maxDpd12Months"
  | .currentOpenLoans => "currentOpenLoans"
  | .churnBand => "churnBand"

def NumberField.get (inputs : DecisionInputs) : NumberField → ℚ≥0
  | .ageYears => inputs.ageYears
  | .dominantCashFlow => inputs.dominantCashFlow
  | .telecomTenureMonths => inputs.telecomTenureMonths
  | .currentDpd => inputs.currentDpd
  | .count30PlusDpd6Months => inputs.count30PlusDpd6Months
  | .maxDpd6Months => inputs.maxDpd6Months
  | .maxDpd12Months => inputs.maxDpd12Months
  | .currentOpenLoans => inputs.currentOpenLoans
  | .churnBand => inputs.churnBand

/-- The truths that the rules test. -/
inductive FlagField
  | dormantAfterAllocation
  | schoolAggregatorTermPaid
  deriving DecidableEq, Repr

def FlagField.name : FlagField → String
  | .dormantAfterAllocation => "dormantAfterAllocation"
  | .schoolAggregatorTermPaid => "schoolAggregatorTermPaid"

def FlagField.get (inputs : DecisionInputs) : FlagField → Bool
  | .dormantAfterAllocation => inputs.dormantAfterAllocation
  | .schoolAggregatorTermPaid => inputs.schoolAggregatorTermPaid

/-- The operators that the rules compare numbers with. -/
inductive Comparison
  | lessThan
  | lessThanOrEqual
  | greaterThan
  | greaterThanOrEqual
  deriving DecidableEq, Repr

def Comparison.text : Comparison → String
  | .lessThan => "LESS_THAN"
  | .lessThanOrEqual => "LESS_THAN_OR_EQUAL"
  | .greaterThan => "GREATER_THAN"
  | .greaterThanOrEqual => "GREATER_THAN_OR_EQUAL"

/-- The leaves of the conditions. -/
inductive Test
  | kycIsNot (status : KycStatus)
  | bureauIs (status : BureauStatus)
  | channelIs (channel : Channel)
  | gradeIs (grade : Grade)
  | gradeIn (grades : List Grade)
  | flag (field : FlagField) (value : Bool)
  | integer (field : NumberField) (operator : Comparison) (value : ℕ)
  | cashFlow (operator : Comparison) (value : ℕ)
  | cashFlowRange (lower upper : ℕ) (upperInclusive : Bool)

/-- A whole number as the language holds it. -/
def ofNat (value : ℕ) : Value := .number (.finite value)

def Test.leaf : Test → Leaf
  | .kycIsNot status =>
    { field := .text "kycStatus", operator := .text "NOT_EQUALS", value := .text status.text }
  | .bureauIs status =>
    { field := .text "bureauStatus", operator := .text "EQUALS", value := .text status.text }
  | .channelIs channel =>
    { field := .text "channel", operator := .text "EQUALS", value := .text channel.text }
  | .gradeIs grade =>
    { field := .text "grade", operator := .text "EQUALS", value := .text grade.text }
  | .gradeIn grades =>
    { field := .text "grade", operator := .text "IN"
      values := .array (grades.map fun grade => .text grade.text) }
  | .flag field value =>
    { field := .text field.name, dataType := .text "BOOLEAN", operator := .text "EQUALS"
      value := .boolean value }
  | .integer field operator value =>
    { field := .text field.name, dataType := .text "INTEGER", operator := .text operator.text
      value := ofNat value }
  | .cashFlow operator value =>
    { field := .text "dominantCashFlow", dataType := .text "DECIMAL"
      operator := .text operator.text, value := ofNat value }
  | .cashFlowRange lower upper upperInclusive =>
    { field := .text "dominantCashFlow", dataType := .text "DECIMAL", operator := .text "RANGE"
      lowerValue := ofNat lower, upperValue := ofNat upper, lowerInclusive := .boolean true
      upperInclusive := .boolean upperInclusive }

/-- What an operator says of two numbers. -/
def Comparison.holds (operator : Comparison) (actual expected : ℚ) : Bool :=
  match operator with
  | .lessThan => actual < expected
  | .lessThanOrEqual => actual ≤ expected
  | .greaterThan => expected < actual
  | .greaterThanOrEqual => expected ≤ actual

def Test.holds (inputs : DecisionInputs) : Test → Bool
  | .kycIsNot status => inputs.kycStatus ≠ status
  | .bureauIs status => inputs.bureauStatus = status
  | .channelIs channel => inputs.channel = channel
  | .gradeIs grade => inputs.grade = grade
  | .gradeIn grades => grades.contains inputs.grade
  | .flag field value => field.get inputs = value
  | .integer field operator value => operator.holds (trunc (field.get inputs)) value
  | .cashFlow operator value => operator.holds inputs.dominantCashFlow value
  | .cashFlowRange lower upper upperInclusive =>
    decide ((lower : ℚ) ≤ inputs.dominantCashFlow) &&
      if upperInclusive then decide ((inputs.dominantCashFlow : ℚ) ≤ upper)
      else decide ((inputs.dominantCashFlow : ℚ) < upper)

/-! ## Rules -/

/-- The conditions of the rules. -/
inductive Condition
  | one (test : Test)
  | all (tests : List Test)

/-- The tree that the migration writes for a condition. -/
def Condition.node : Condition → Node
  | .one test => .atom test.leaf
  | .all tests => .group .all (tests.map fun test => .atom test.leaf)

def Condition.holds (inputs : DecisionInputs) : Condition → Bool
  | .one test => test.holds inputs
  | .all tests => tests.all (Test.holds inputs)

/-- The actions of the rules.  A scaled limit is so many tenths of what the model proposes, at least
400000 and at most 1500000. -/
inductive Act
  | reject (reasonCode : String)
  | manualReview (reasonCode : String)
  | fixed (limit : ℕ)
  | scaled (tenths : ℕ)

/-- The action that the migration writes. -/
def Act.action : Act → Action
  | .reject reasonCode => { type := .text "REJECT", reasonCode := some reasonCode }
  | .manualReview reasonCode => { type := .text "MANUAL_REVIEW", reasonCode := some reasonCode }
  | .fixed limit =>
    { type := .text "SET_LIMIT_FIXED", value := ofNat limit
      reasonCode := some "POLICY_OFFER_MATCHED" }
  | .scaled tenths =>
    { type := .text "SET_LIMIT_FROM_INPUT_MULTIPLIER", inputField := .text "modelProposedLimit"
      multiplier := .number (.finite (tenths / 10)), floor := ofNat 400000, cap := ofNat 1500000
      reasonCode := some "POLICY_OFFER_MATCHED" }

/-- What the migration seeds a rule with. -/
structure Seed where
  priority : ℕ
  name : String
  condition : Condition
  act : Act

/-- `seed_credit_rule`. -/
def seedCreditRule (priority : ℕ) (name : String) (condition : Condition) (act : Act) : Seed where
  priority := priority
  name := name
  condition := condition
  act := act

/-- The row that `seed_credit_rule` inserts, by its priority. -/
def Seed.rule (seed : Seed) : Conditions.Rule where
  id := seed.priority
  sourceType := .decisionInput
  dataType := .string
  condition := seed.condition.node
  actionOnMatch := seed.act.action
  actionOnNoMatch := { type := .text "CONTINUE" }
  sourceFailureAction :=
    { type := .text "MANUAL_REVIEW", reasonCode := some "DATA_SOURCE_UNAVAILABLE" }
  stopOnMatch := true

/-- The rules that reject a customer or send one to a review, whatever the limit would be. -/
def knockouts : List Seed :=
  [
    seedCreditRule 10 "Reject unverified KYC"
      (.one (.kycIsNot .verified))
      (.reject "KYC_NOT_VERIFIED"),
    seedCreditRule 20 "Reject age below 21"
      (.one (.integer .ageYears .lessThan 21))
      (.reject "AGE_BELOW_MINIMUM"),
    seedCreditRule 21 "Reject age above 70"
      (.one (.integer .ageYears .greaterThan 70))
      (.reject "AGE_ABOVE_MAXIMUM"),
    seedCreditRule 30 "Reject bureau fail"
      (.one (.bureauIs .fail))
      (.reject "BUREAU_FAILED"),
    seedCreditRule 31 "Reject bureau 30 plus frequency"
      (.all [.bureauIs .pass, .integer .count30PlusDpd6Months .greaterThanOrEqual 2])
      (.reject "BUREAU_30_PLUS_COUNT_EXCEEDED"),
    seedCreditRule 32 "Reject bureau six month max DPD"
      (.all [.bureauIs .pass, .integer .maxDpd6Months .greaterThan 60])
      (.reject "BUREAU_MAX_DPD_6M_EXCEEDED"),
    seedCreditRule 33 "Reject current DPD"
      (.all [.bureauIs .pass, .integer .currentDpd .greaterThan 30])
      (.reject "CURRENT_DPD_EXCEEDED"),
    seedCreditRule 34 "Reject twelve month max DPD"
      (.all [.bureauIs .pass, .integer .maxDpd12Months .greaterThan 90])
      (.reject "BUREAU_MAX_DPD_12M_EXCEEDED"),
    seedCreditRule 35 "Reject excessive open loans"
      (.all [.bureauIs .pass, .integer .currentOpenLoans .greaterThan 2])
      (.reject "OPEN_LOANS_EXCEEDED"),
    seedCreditRule 40 "Route dormant allocation"
      (.one (.flag .dormantAfterAllocation true))
      (.manualReview "DORMANT_LIMIT_REVIEW"),
    seedCreditRule 41 "Route elevated churn band"
      (.one (.integer .churnBand .greaterThan 2))
      (.manualReview "CHURN_BAND_REVIEW"),
    seedCreditRule 50 "USSD requires school payment"
      (.all [.channelIs .ussd, .flag .schoolAggregatorTermPaid false])
      (.reject "SCHOOL_PAYMENT_REQUIRED")]

/-- The offers in the app to customers who pass the bureau. -/
def appBureau : List Seed :=
  [
    seedCreditRule 100 "APP bureau high cashflow ABC"
      (.all [.channelIs .app, .bureauIs .pass, .cashFlow .greaterThan 300000,
        .gradeIn [.a, .b, .c]])
      (.scaled 10),
    seedCreditRule 101 "APP bureau high cashflow DEF"
      (.all [.channelIs .app, .bureauIs .pass, .cashFlow .greaterThan 300000,
        .gradeIn [.d, .e, .f]])
      (.scaled 8),
    seedCreditRule 102 "APP bureau high cashflow GHI"
      (.all [.channelIs .app, .bureauIs .pass, .cashFlow .greaterThan 300000,
        .gradeIn [.g, .h, .i]])
      (.scaled 6),
    seedCreditRule 103 "APP bureau high cashflow J"
      (.all [.channelIs .app, .bureauIs .pass, .cashFlow .greaterThan 300000, .gradeIs .j])
      (.fixed 400000),
    seedCreditRule 110 "APP bureau medium cashflow ABC"
      (.all [.channelIs .app, .bureauIs .pass, .cashFlowRange 100000 300000 true,
        .gradeIn [.a, .b, .c]])
      (.scaled 8),
    seedCreditRule 111 "APP bureau medium cashflow DEF"
      (.all [.channelIs .app, .bureauIs .pass, .cashFlowRange 100000 300000 true,
        .gradeIn [.d, .e, .f]])
      (.scaled 6),
    seedCreditRule 112 "APP bureau medium cashflow GHI"
      (.all [.channelIs .app, .bureauIs .pass, .cashFlowRange 100000 300000 true,
        .gradeIn [.g, .h, .i]])
      (.scaled 5),
    seedCreditRule 113 "APP bureau medium cashflow J"
      (.all [.channelIs .app, .bureauIs .pass, .cashFlowRange 100000 300000 true, .gradeIs .j])
      (.fixed 400000),
    seedCreditRule 120 "APP bureau low eligible cashflow"
      (.all [.channelIs .app, .bureauIs .pass, .cashFlowRange 50000 100000 false,
        .gradeIn [.a, .b, .c, .d, .e, .f, .g, .h, .i, .j]])
      (.fixed 400000)]

/-- The offers in the app to customers whom the bureau does not know. -/
def appNoRecord : List Seed :=
  [
    seedCreditRule 200 "APP no-record high ABC"
      (.all [.channelIs .app, .bureauIs .noRecord, .integer .telecomTenureMonths .greaterThan 6,
        .cashFlow .greaterThan 150000, .gradeIn [.a, .b, .c]])
      (.scaled 6),
    seedCreditRule 201 "APP no-record high DEF"
      (.all [.channelIs .app, .bureauIs .noRecord, .integer .telecomTenureMonths .greaterThan 6,
        .cashFlow .greaterThan 150000, .gradeIn [.d, .e, .f]])
      (.scaled 4),
    seedCreditRule 202 "APP no-record high G-J"
      (.all [.channelIs .app, .bureauIs .noRecord, .integer .telecomTenureMonths .greaterThan 6,
        .cashFlow .greaterThan 150000, .gradeIn [.g, .h, .i, .j]])
      (.fixed 400000),
    seedCreditRule 210 "APP no-record 100-150 A-F"
      (.all [.channelIs .app, .bureauIs .noRecord, .integer .telecomTenureMonths .greaterThan 6,
        .cashFlowRange 100000 150000 true, .gradeIn [.a, .b, .c, .d, .e, .f]])
      (.fixed 400000)]

/-- The offers over USSD to customers who pass the bureau. -/
def ussdBureau : List Seed :=
  [
    seedCreditRule 300 "USSD bureau high ABC-DEF"
      (.all [.channelIs .ussd, .bureauIs .pass, .cashFlow .greaterThan 300000,
        .gradeIn [.a, .b, .c, .d, .e, .f]])
      (.fixed 1000000),
    seedCreditRule 301 "USSD bureau high GHI"
      (.all [.channelIs .ussd, .bureauIs .pass, .cashFlow .greaterThan 300000,
        .gradeIn [.g, .h, .i]])
      (.fixed 750000),
    seedCreditRule 302 "USSD bureau high J"
      (.all [.channelIs .ussd, .bureauIs .pass, .cashFlow .greaterThan 300000, .gradeIs .j])
      (.fixed 500000),
    seedCreditRule 310 "USSD bureau medium ABC"
      (.all [.channelIs .ussd, .bureauIs .pass, .cashFlowRange 150000 300000 true,
        .gradeIn [.a, .b, .c]])
      (.fixed 1000000),
    seedCreditRule 311 "USSD bureau medium DEF"
      (.all [.channelIs .ussd, .bureauIs .pass, .cashFlowRange 150000 300000 true,
        .gradeIn [.d, .e, .f]])
      (.fixed 750000),
    seedCreditRule 312 "USSD bureau medium GHI"
      (.all [.channelIs .ussd, .bureauIs .pass, .cashFlowRange 150000 300000 true,
        .gradeIn [.g, .h, .i]])
      (.fixed 500000),
    seedCreditRule 313 "USSD bureau medium J"
      (.all [.channelIs .ussd, .bureauIs .pass, .cashFlowRange 150000 300000 true, .gradeIs .j])
      (.fixed 400000),
    seedCreditRule 320 "USSD bureau low"
      (.all [.channelIs .ussd, .bureauIs .pass, .cashFlowRange 50000 150000 false])
      (.fixed 400000)]

/-- The offers over USSD to customers whom the bureau does not know. -/
def ussdNoRecord : List Seed :=
  [
    seedCreditRule 330 "USSD no-record high ABC"
      (.all [.channelIs .ussd, .bureauIs .noRecord, .integer .telecomTenureMonths .greaterThan 12,
        .cashFlow .greaterThan 300000, .gradeIn [.a, .b, .c]])
      (.fixed 700000),
    seedCreditRule 331 "USSD no-record high D-I"
      (.all [.channelIs .ussd, .bureauIs .noRecord, .integer .telecomTenureMonths .greaterThan 12,
        .cashFlow .greaterThan 300000, .gradeIn [.d, .e, .f, .g, .h, .i]])
      (.fixed 400000),
    seedCreditRule 340 "USSD no-record medium ABC"
      (.all [.channelIs .ussd, .bureauIs .noRecord, .integer .telecomTenureMonths .greaterThan 24,
        .cashFlowRange 150000 300000 true, .gradeIn [.a, .b, .c]])
      (.fixed 600000),
    seedCreditRule 341 "USSD no-record medium D-I"
      (.all [.channelIs .ussd, .bureauIs .noRecord, .integer .telecomTenureMonths .greaterThan 24,
        .cashFlowRange 150000 300000 true, .gradeIn [.d, .e, .f, .g, .h, .i]])
      (.fixed 400000),
    seedCreditRule 342 "USSD no-record 100-150 A-F"
      (.all [.channelIs .ussd, .bureauIs .noRecord, .integer .telecomTenureMonths .greaterThan 24,
        .cashFlowRange 100000 150000 true, .gradeIn [.a, .b, .c, .d, .e, .f]])
      (.fixed 400000)]

/-- The rules that offer a limit. -/
def offers : List Seed := appBureau ++ appNoRecord ++ ussdBureau ++ ussdNoRecord

/-- The rules that reject whoever is offered nothing. -/
def refusals : List Seed :=
  [
    seedCreditRule 900 "Reject insufficient cash flow"
      (.one (.cashFlow .lessThan 50000))
      (.reject "CASHFLOW_BELOW_MINIMUM"),
    seedCreditRule 910 "Reject insufficient no-record tenure"
      (.all [.bureauIs .noRecord, .integer .telecomTenureMonths .lessThanOrEqual 6])
      (.reject "TELECOM_TENURE_TOO_SHORT"),
    seedCreditRule 999 "Reject unmatched policy leaf"
      (.one (.gradeIn [.a, .b, .c, .d, .e, .f, .g, .h, .i, .j]))
      (.reject "SCORE_GRADE_NOT_ELIGIBLE")]

/-- The rules by their priority. -/
def policy : List Seed := knockouts ++ offers ++ refusals

def master : MasterFields where
  name := "Uganda Retail A-J Credit Policy 30-Mar-2026"
  customerCategory := "ANY"
  productId := "UGA_RETAIL_CREDIT"
  currency := some "UGX"
  baseLimit := 0
  minimumLimit := 400000
  maximumLimit := 1500000
  defaultOutcome := .rejected
  autoApprovalEnabled := true

def start (inputs : DecisionInputs) (aiResult : Value) : Context where
  currentLimit := .finite master.baseLimit
  repaymentOptionIds := master.defaultRepaymentOptionIds
  decisionInputs := inputs.toValue
  aiResult := aiResult

/-- The loop over the rules and the outcome, for a call whose commercial binding is known. -/
def decide? (environment : Environment) (dto : Review.EvaluateCredit) (commercial : Bool)
    (aiResult : Value) (inputs : DecisionInputs) : Option Review.Verdict :=
  (environment.run (policy.map Seed.rule) (start inputs aiResult)).map fun context =>
    Review.finalDecision dto master context.left commercial

end Finify.Credit.Uganda
