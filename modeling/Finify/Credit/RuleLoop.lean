/-
# The rules of a credit policy

What the management service accepts as a rule, and the loop in which an evaluation applies the
rules of its master.  Arithmetic on finite numbers is exact.  Calls that throw give none; what a
source outside of the call returns and what the database takes into a `jsonb` column come with the
environment.
-/

import Finify.Credit.Conditions
import Finify.Credit.Reviews

namespace Finify.Credit.Conditions

open Finify.Foundations
open Review (RuleOutcome)

/-! ## Numbers -/

namespace Number

/-- `left + right`. -/
def add : Number → Number → Number
  | finite left, finite right => finite (left + right)
  | infinite left, infinite right => if left = right then infinite left else nan
  | infinite negative, finite _ | finite _, infinite negative => infinite negative
  | nan, _ | _, nan => nan

/-- `-value`. -/
def neg : Number → Number
  | finite value => finite (-value)
  | infinite negative => infinite !negative
  | nan => nan

/-- `left * right`. -/
def mul : Number → Number → Number
  | finite left, finite right => finite (left * right)
  | infinite left, infinite right => infinite (left != right)
  | infinite negative, finite value | finite value, infinite negative =>
    if value = 0 then nan else infinite (negative != decide (value < 0))
  | nan, _ | _, nan => nan

/-- `left < right`. -/
def less : Number → Number → Bool
  | finite left, finite right => left < right
  | infinite left, infinite right => left && !right
  | infinite negative, finite _ => negative
  | finite _, infinite negative => !negative
  | nan, _ | _, nan => false

/-- `Math.min(left, right)`. -/
def min (left right : Number) : Number :=
  if left = nan ∨ right = nan then nan else if right.less left then right else left

/-- `Math.max(left, right)`. -/
def max (left right : Number) : Number :=
  if left = nan ∨ right = nan then nan else if left.less right then right else left

def toRat? : Number → Option ℚ
  | finite value => some value
  | _ => none

end Number

/-- `Number.MAX_SAFE_INTEGER`. -/
def maxSafeInteger : Number := .finite 9007199254740991

/-! ## Actions -/

/-- `RuleAction`; a field that the action lacks is undefined. -/
structure Action where
  type : Value
  value : Value := .undefined
  multiplier : Value := .undefined
  limit : Value := .undefined
  inputField : Value := .undefined
  floor : Value := .undefined
  cap : Value := .undefined
  repaymentOptionIds : Option (List String) := none
  reasonCode : Option String := none

/-- The types of actions that `validateAction` allows. -/
def actionTypes : List String :=
  ["CONTINUE", "REJECT", "MANUAL_REVIEW", "SET_LIMIT_FIXED", "SET_LIMIT_FROM_VALUE",
    "SET_LIMIT_FROM_VALUE_MULTIPLIER", "ADD_LIMIT_FIXED", "SUBTRACT_LIMIT_FIXED",
    "CAP_LIMIT_FIXED", "CAP_LIMIT_FROM_VALUE_MULTIPLIER", "SET_CREDIT_OFFER",
    "SET_LIMIT_FROM_INPUT_MULTIPLIER"]

def Value.isFilledText : Value → Bool
  | .text value => value ≠ ""
  | _ => false

/-- `validateAction`; the types of the repayment options and of the reason are those of
`RuleAction`. -/
def Action.isValid (language : Language) (action : Action) : Bool :=
  match action.type.toText language with
  | none => false
  | some type =>
    actionTypes.contains type &&
      (!(["SET_LIMIT_FIXED", "ADD_LIMIT_FIXED", "SUBTRACT_LIMIT_FIXED",
          "CAP_LIMIT_FIXED"].contains type) || (action.value.toFinite language).isSome) &&
      (!(["SET_LIMIT_FROM_VALUE_MULTIPLIER", "CAP_LIMIT_FROM_VALUE_MULTIPLIER"].contains type) ||
        (action.multiplier.toFinite language).isSome) &&
      (!action.type.is "SET_CREDIT_OFFER" || (action.limit.toFinite language).isSome) &&
      (!action.type.is "SET_LIMIT_FROM_INPUT_MULTIPLIER" ||
        action.inputField.isFilledText && (action.multiplier.toFinite language).isSome)

/-! ## Rules -/

/-- What is read of a rule besides its condition. -/
structure RuleBody where
  id : ℕ
  exclusiveGroup : Option String := none
  sourceType : SourceType
  aiResultField : Option String := none
  httpIntegrationId : Option ℕ := none
  responsePath : Option String := none
  dataType : DataType
  actionOnMatch : Action
  actionOnNoMatch : Action
  sourceFailureAction : Action
  stopOnMatch : Bool := false
  stopOnNoMatch : Bool := false

/-- `CreateRuleDto`, as far as validation and evaluation read it. -/
structure RuleDto extends RuleBody where
  condition : Value

/-- A rule with the condition that its validation asserts. -/
structure Rule extends RuleBody where
  condition : Node

/-- The text is there and not empty. -/
def isGiven (text : Option String) : Bool := text.any (· ≠ "")

/-- What `validateRule` checks of the source, where the checks of tables and integrations are
those of other services. -/
def RuleBody.hasSource (known : RuleBody → Bool) (dto : RuleBody) : Bool :=
  match dto.sourceType with
  | .aiResult => isGiven dto.aiResultField
  | .decisionInput => dto.aiResultField.all fun field => trim field ≠ []
  | .postgres => known dto
  | .httpApi => dto.httpIntegrationId.isSome && isGiven dto.responsePath && known dto

/-- The failure action does not read the source that is not there. -/
def RuleBody.failsAlone (language : Language) (dto : RuleBody) : Bool :=
  !(["SET_LIMIT_FROM_VALUE", "SET_LIMIT_FROM_VALUE_MULTIPLIER",
      "CAP_LIMIT_FROM_VALUE_MULTIPLIER"].any fun type =>
    dto.sourceFailureAction.type.toText language = some type)

/-- `validateRule`. -/
def validateRule (language : Language) (known : RuleBody → Bool) (dto : RuleDto) : Option Rule := do
  let condition ← accept language dto.condition
  if dto.actionOnMatch.isValid language && dto.actionOnNoMatch.isValid language &&
      dto.sourceFailureAction.isValid language && dto.toRuleBody.failsAlone language &&
      dto.toRuleBody.hasSource known then
    some { dto.toRuleBody with condition := condition }
  else none

/-! ## The loop -/

/-- `EvaluationContext`, as far as the rules read and write it. -/
structure Context where
  currentLimit : Number
  outcome : RuleOutcome := .processing
  reasonCodes : List String := []
  repaymentOptionIds : List String := []
  matchedExclusiveGroups : List String := []
  decisionInputs : Value
  aiResult : Value

/-- What a call of the service meets outside of it. -/
structure Environment where
  language : Language
  /-- The value that a table or an integration gives for a rule, where it does not fail. -/
  outside : RuleBody → Option Value
  /-- The value can be stored as `jsonb`. -/
  jsonb : Value → Bool

/-- `readSource`. -/
def Environment.readSource (environment : Environment) (rule : RuleBody) (context : Context) :
    Option Value :=
  match rule.sourceType with
  | .aiResult =>
    some (readField environment.language context.aiResult (rule.aiResultField.getD ""))
  | .decisionInput =>
    some (readField environment.language context.decisionInputs (rule.aiResultField.getD ""))
  | .postgres | .httpApi => environment.outside rule

/-- `requireNumericSource`. -/
def requireNumericSource : Number → Option Number
  | .finite value => some (.finite value)
  | _ => none

/-- `Number(value ?? fallback)`. -/
def Value.orNumber (language : Language) (value : Value) (fallback : Number) : Option Number :=
  if value.isMissing then some fallback else value.toNumber language

def Action.limitAfter (language : Language) (action : Action) (numericSource : Number)
    (context : Context) : Option Number :=
  let limit := context.currentLimit
  if action.type.is "SET_LIMIT_FIXED" then action.value.toNumber language
  else if action.type.is "SET_LIMIT_FROM_VALUE" then requireNumericSource numericSource
  else if action.type.is "SET_LIMIT_FROM_VALUE_MULTIPLIER" then do
    let source ← requireNumericSource numericSource
    let multiplier ← action.multiplier.toNumber language
    some (source.mul multiplier)
  else if action.type.is "ADD_LIMIT_FIXED" then
    (action.value.toNumber language).map limit.add
  else if action.type.is "SUBTRACT_LIMIT_FIXED" then
    (action.value.toNumber language).map fun value => (Number.finite 0).max (limit.add value.neg)
  else if action.type.is "CAP_LIMIT_FIXED" then
    (action.value.toNumber language).map limit.min
  else if action.type.is "CAP_LIMIT_FROM_VALUE_MULTIPLIER" then do
    let source ← requireNumericSource numericSource
    let multiplier ← action.multiplier.toNumber language
    some (limit.min (source.mul multiplier))
  else if action.type.is "SET_CREDIT_OFFER" then action.limit.toNumber language
  else if action.type.is "SET_LIMIT_FROM_INPUT_MULTIPLIER" then do
    let path ← if action.inputField.isFalsy then some "" else action.inputField.toText language
    let input ← (readField language context.decisionInputs path).toNumber language
    let input ← requireNumericSource input
    let multiplier ← action.multiplier.toNumber language
    let cap ← action.cap.orNumber language maxSafeInteger
    let floor ← action.floor.orNumber language (.finite 0)
    some (cap.min (floor.max (input.mul multiplier)))
  else some limit

def Action.outcomeAfter (action : Action) (outcome : RuleOutcome) : RuleOutcome :=
  if action.type.is "REJECT" then .rejected
  else if action.type.is "MANUAL_REVIEW" then .manualReview
  else outcome

/-- `applyAction`. -/
def applyAction (language : Language) (action : Action) (sourceValue : Value) (context : Context) :
    Option Context := do
  let numericSource ← sourceValue.toNumber language
  let limit ← action.limitAfter language numericSource context
  some { context with
    currentLimit := limit
    outcome := action.outcomeAfter context.outcome
    repaymentOptionIds := action.repaymentOptionIds.getD context.repaymentOptionIds
    reasonCodes := context.reasonCodes ++ (action.reasonCode.filter (· ≠ "")).toList }

/-- `recordStep` writes a row that fits into its columns. -/
def Environment.records (environment : Environment) (before after : Number)
    (source : Option Value) (action : Action) : Bool :=
  money before.toRat? < 10 ^ 22 && money after.toRat? < 10 ^ 22 &&
    source.all environment.jsonb && action.reasonCode.all fun code => code.length ≤ 150

/-- The action that follows from what the condition gave, where it did not throw. -/
def RuleBody.actionFor (rule : RuleBody) : Option Bool → Action
  | none => rule.sourceFailureAction
  | some true => rule.actionOnMatch
  | some false => rule.actionOnNoMatch

def RuleBody.group (rule : RuleBody) : Option String := rule.exclusiveGroup.filter (· ≠ "")

/-- A rule whose exclusive group has matched is passed over. -/
def Context.passesOver (context : Context) (rule : RuleBody) : Bool :=
  rule.group.any context.matchedExclusiveGroups.contains

/-- What the condition of a rule gives, where the source and the condition do not fail. -/
def Environment.conditionResult (environment : Environment) (rule : Rule) (context : Context) :
    Option Bool :=
  (environment.readSource rule.toRuleBody context).bind fun value =>
    evaluate environment.language rule.condition value rule.dataType

def RuleBody.groupsAfter (rule : RuleBody) (conditionResult : Option Bool) (groups : List String) :
    List String :=
  if conditionResult = some true then rule.group.toList ++ groups else groups

/-- `shouldStop`. -/
def RuleBody.stops (rule : RuleBody) (conditionResult : Option Bool) (outcome : RuleOutcome) : Bool :=
  outcome = .rejected || outcome = .manualReview ||
    conditionResult = some true && rule.stopOnMatch ||
    conditionResult = some false && rule.stopOnNoMatch

/-- A turn of the loop for a rule that is not passed over. -/
def Environment.apply (environment : Environment) (rule : Rule) (context : Context) :
    Option Context := do
  let source := environment.readSource rule.toRuleBody context
  let result := environment.conditionResult rule context
  let action := rule.actionFor result
  let after ← applyAction environment.language action (source.getD .undefined)
    { context with
      matchedExclusiveGroups := rule.groupsAfter result context.matchedExclusiveGroups }
  if environment.records context.currentLimit after.currentLimit source action then some after
  else none

/-- The loop of `evaluate` over the rules in their order. -/
def Environment.run (environment : Environment) : List Rule → Context → Option Context
  | [], context => some context
  | rule :: rest, context =>
    if context.passesOver rule.toRuleBody then environment.run rest context
    else do
      let after ← environment.apply rule context
      if rule.stops (environment.conditionResult rule context) after.outcome then some after
      else environment.run rest after

/-- What the rules leave for the final decision. -/
def Context.left (context : Context) : Review.Context where
  currentLimit := context.currentLimit.toRat?
  outcome := context.outcome
  reasonCodes := context.reasonCodes

end Finify.Credit.Conditions
