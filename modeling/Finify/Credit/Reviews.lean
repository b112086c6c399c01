/-
# Executions and their manual review

The rows that evaluations write, the trigger that opens a review case, and the two calls that
reviewers make.  The INSERT of an execution and the UPDATE that ends it are one step each.  A call
of a reviewer holds the row of its case and is one step.  What a step reads of the governed tables
comes with it, so that each may be read at its own moment.  Comments of reviewers and columns that
no review reads are left out; codes come in capitals.
-/

import Finify.Credit.Commercial
import Finify.Credit.Tables

namespace Finify.Credit.Review

open Finify.Foundations

/-! ## Rows -/

/-- An amount in a `numeric(24,2)` column that is not negative. -/
structure Amount where
  value : ℚ
  nonneg : 0 ≤ value
  cents : IsCents value
  deriving DecidableEq

/-- Store a number where `CK_CREDIT_EXECUTION_AMOUNTS` holds of it. -/
def Amount.store? (value : ℚ) : Option Amount :=
  if hnonneg : 0 ≤ toScale 2 value then
    some ⟨toScale 2 value, hnonneg, isCents_toScale value⟩
  else none

/-- The default of the limits. -/
def Amount.zero : Amount := ⟨0, le_refl 0, 0, by norm_num⟩

/-- `DecisionOutcome`. -/
inductive Outcome
  | processing
  | autoApproved
  | counterOffer
  | manualReview
  | rejected
  | rescoreRequired
  | noMasterRule
  | dataSourceUnavailable
  deriving DecidableEq, Repr

/-- What is read of `CreditDecisionInputsDto`. -/
structure Inputs where
  grade : String
  channel : String
  countryCode : String
  deriving DecidableEq

/-- `credit_rule_executions`. -/
structure Execution where
  id : ℕ
  productId : String
  currency : Option String
  requestedAmount : Amount
  existingExposure : Amount
  pendingReservations : Amount
  allocatedLimit : Amount := .zero
  availableLimit : Amount := .zero
  outcome : Outcome
  reasonCodes : List String := []
  simulation : Bool
  decisionInputs : Inputs
  deriving DecidableEq

/-- `EvaluateCreditDto`. -/
structure EvaluateCredit where
  productId : String
  currency : Option String := none
  requestedAmount : ℚ
  existingExposure : ℚ := 0
  pendingReservations : ℚ := 0
  simulation : Bool := false
  masterRuleId : Option ℕ := none
  decisionInputs : Inputs
  deriving DecidableEq

/-- An execution with the call that evaluates it and the row that the call returned. -/
structure Evaluation where
  row : Execution
  dto : EvaluateCredit
  returned : Option Execution := none
  deriving DecidableEq

def Evaluation.id (evaluation : Evaluation) : ℕ := evaluation.row.id

/-- `credit_manual_review_queues`. -/
structure Queue where
  id : ℕ
  countryCode : Option String
  productId : Option String
  isActive : Bool
  deriving DecidableEq

/-- `decision_type`. -/
inductive DecisionType
  | reject
  | manualReview
  | technical
  deriving DecidableEq, Repr

/-- `credit_reason_catalogue`. -/
structure Reason where
  code : String
  decisionType : DecisionType
  isActive : Bool
  deriving DecidableEq

/-- The status of a case. -/
inductive CaseStatus
  | pending
  | inReview
  | recommended
  | approved
  | rejected
  | cancelled
  deriving DecidableEq, Repr

/-- `recommendation`. -/
inductive Recommendation
  | approve
  | reject
  deriving DecidableEq, Repr

/-- `decision`. -/
inductive Decision
  | approved
  | rejected
  deriving DecidableEq, Repr

/-- `credit_manual_review_cases`. -/
structure Case where
  id : ℕ
  executionId : ℕ
  queueId : ℕ
  status : CaseStatus := .pending
  recommendation : Option Recommendation := none
  recommendationReasonCode : Option String := none
  recommendedLimit : Option ℚ := none
  recommendedBy : Option String := none
  finalReasonCode : Option String := none
  approvedLimit : Option ℚ := none
  decidedBy : Option String := none
  deriving DecidableEq

/-- What a reviewer did. -/
inductive Act
  | recommend
  | decide (decision : Decision)
  deriving DecidableEq, Repr

/-- `credit_manual_review_actions`. -/
structure CaseAction where
  id : ℕ
  caseId : ℕ
  action : Act
  actorId : String
  reasonCode : String
  payload : Option ℚ
  deriving DecidableEq

/-- The tables that evaluations and reviews write. -/
structure State where
  evaluations : Log Evaluation.id := .empty
  cases : Log Case.id := .empty
  actions : Log CaseAction.id := .empty

/-- What a step reads of the governed tables. -/
structure Governed where
  queues : Table Queue.id := .empty
  reasons : Table Reason.code := .empty
  commercial : Commercial.State := {}

/-! ## Evaluation -/

/-- What the rules leave of the outcome. -/
inductive RuleOutcome
  | processing
  | manualReview
  | rejected
  deriving DecidableEq, Repr

/-- What the rules leave of `EvaluationContext`; the limit is none where it is not finite. -/
structure Context where
  currentLimit : Option ℚ
  outcome : RuleOutcome := .processing
  reasonCodes : List String := []
  deriving DecidableEq

/-- What a call of `evaluate` finds: no score, no master, or both and what the rules left. -/
inductive Finding
  | unscored
  | unruled
  | ruled (category : String) (master : MasterFields) (context : Context)
  deriving DecidableEq

/-- What the UPDATE that ends an evaluation writes. -/
structure Verdict where
  outcome : Outcome
  allocatedLimit : ℚ := 0
  availableLimit : ℚ := 0
  reasonCodes : List String
  deriving DecidableEq

/-- An active binding of an active lender covers the scope. -/
def Governed.isBound (governed : Governed) (productId currency countryCode channel : String) :
    Bool :=
  governed.commercial.bindings.rows.any fun binding =>
    binding.status = .active && binding.terms.productId = productId &&
      binding.terms.currency = currency && binding.terms.countryCode = countryCode &&
      binding.terms.channel.all (· = channel) &&
      (binding.terms.lenderId.bind governed.commercial.lenders.find?).any (·.status = .active)

/-- `master.default_outcome`. -/
def ofDefault : DefaultOutcome → Outcome
  | .rejected => .rejected
  | .manualReview => .manualReview

/-- The final decision of `evaluate`. -/
def finalDecision (dto : EvaluateCredit) (master : MasterFields) (context : Context)
    (commercial : Bool) : Verdict :=
  let allocated := max 0 (min master.maximumLimit (money context.currentLimit))
  let available :=
    max 0 (money (some (allocated - dto.existingExposure - dto.pendingReservations)))
  let decided : Outcome × List String :=
    match context.outcome with
    | .manualReview => (.manualReview, context.reasonCodes)
    | .rejected => (.rejected, context.reasonCodes)
    | .processing =>
      if !master.autoApprovalEnabled then
        (.manualReview, context.reasonCodes ++ ["AUTO_APPROVAL_DISABLED"])
      else if allocated < master.minimumLimit ∨ available ≤ 0 then
        (ofDefault master.defaultOutcome, context.reasonCodes ++
          [if allocated < master.minimumLimit then "LIMIT_BELOW_MINIMUM"
            else "NO_AVAILABLE_LIMIT"])
      else
        (if dto.requestedAmount ≤ available then .autoApproved else .counterOffer,
          context.reasonCodes)
  let bound : Outcome × List String :=
    if (decided.1 = .autoApproved ∨ decided.1 = .counterOffer) ∧ !dto.simulation ∧
        !commercial then
      (.manualReview, decided.2 ++ ["COMMERCIAL_BINDING_INACTIVE"])
    else decided
  { outcome := bound.1, allocatedLimit := allocated, availableLimit := available
    reasonCodes := bound.2.eraseDups }

/-- How a call of `evaluate` ends. -/
def verdict (dto : EvaluateCredit) (governed : Governed) : Finding → Verdict
  | .unscored => { outcome := .rescoreRequired, reasonCodes := ["AI_SCORE_UNAVAILABLE"] }
  | .unruled => { outcome := .noMasterRule, reasonCodes := ["NO_APPLICABLE_MASTER_RULE"] }
  | .ruled category master context =>
    if dto.decisionInputs.grade ≠ category then
      { outcome := .manualReview, reasonCodes := ["SCORE_GRADE_MISMATCH"] }
    else
      finalDecision dto master context
        (governed.isBound dto.productId (dto.currency.getD "") dto.decisionInputs.countryCode
          dto.decisionInputs.channel)

/-- The INSERT of an execution. -/
def State.start (state : State) (dto : EvaluateCredit) : Option State :=
  if dto.masterRuleId.isSome && !dto.simulation then none
  else do
    let requested ← Amount.store? dto.requestedAmount
    let exposure ← Amount.store? dto.existingExposure
    let reservations ← Amount.store? dto.pendingReservations
    some { state with
      evaluations := state.evaluations.append
        (fun id =>
          { dto := dto
            row :=
              { id := id, productId := dto.productId, currency := dto.currency
                requestedAmount := requested, existingExposure := exposure
                pendingReservations := reservations, outcome := .processing
                simulation := dto.simulation, decisionInputs := dto.decisionInputs } })
        fun _ => rfl }

def Evaluation.ended (verdict : Verdict) (allocated available : Amount)
    (evaluation : Evaluation) : Evaluation :=
  let row :=
    { evaluation.row with
      outcome := verdict.outcome, allocatedLimit := allocated, availableLimit := available
      reasonCodes := verdict.reasonCodes }
  { evaluation with row := row, returned := some row }

theorem Evaluation.ended_id (verdict : Verdict) (allocated available : Amount)
    (evaluation : Evaluation) : (evaluation.ended verdict allocated available).id = evaluation.id :=
  rfl

def Queue.takes (row : Execution) (queue : Queue) : Bool :=
  queue.isActive && queue.countryCode.all (· = row.decisionInputs.countryCode) &&
    queue.productId.all (· = row.productId)

/-- The queue that the trigger selects; the rows of the table stand in the order of the query. -/
def Governed.queueOf (governed : Governed) (row : Execution) : Option Queue :=
  let taking := governed.queues.rows.filter (Queue.takes row)
  taking.find? (·.productId = some row.productId) <|> taking.head?

/-- `create_credit_manual_review_case`. -/
def State.createCase (state : State) (governed : Governed) (old new : Execution) : State :=
  if new.outcome = .manualReview ∧ old.outcome ≠ new.outcome ∧ new.simulation = false then
    match governed.queueOf new with
    | none => state
    | some queue =>
      if state.cases.rows.any (·.executionId = new.id) then state
      else
        { state with
          cases := state.cases.append
            (fun id => { id := id, executionId := new.id, queueId := queue.id }) fun _ => rfl }
  else state

/-- An UPDATE of the outcome of an execution, with its trigger. -/
def State.update (state : State) (governed : Governed) (evaluation : Evaluation)
    (change : Evaluation → Evaluation) (hid : ∀ other, (change other).id = other.id) : State :=
  { state with evaluations := state.evaluations.modify evaluation.id change hid }.createCase
    governed evaluation.row (change evaluation).row

/-- The UPDATE that ends an evaluation. -/
def State.finish (state : State) (governed : Governed) (executionId : ℕ) (finding : Finding) :
    Option State := do
  let evaluation ← state.evaluations.find? executionId
  if evaluation.returned.isSome then none
  else
    let verdict := verdict evaluation.dto governed finding
    let allocated ← Amount.store? verdict.allocatedLimit
    let available ← Amount.store? verdict.availableLimit
    some (state.update governed evaluation (Evaluation.ended verdict allocated available)
      (Evaluation.ended_id verdict allocated available))

/-! ## Review -/

/-- `ManualReviewRecommendationDto`. -/
structure RecommendationDto where
  recommendation : Recommendation
  reasonCode : String
  recommendedLimit : Option ℚ := none
  deriving DecidableEq

/-- `ManualReviewDecisionDto`. -/
structure DecisionDto where
  decision : Decision
  reasonCode : String
  approvedLimit : Option ℚ := none
  deriving DecidableEq

/-- `assertReason`. -/
def Governed.assertReason (governed : Governed) (code : String) (rejects : Bool) : Bool :=
  (governed.reasons.find? code).any fun reason =>
    reason.isActive && (!rejects || reason.decisionType = .reject)

def Case.recommendedAs (dto : RecommendationDto) (actor : String) (review : Case) : Case :=
  { review with
    status := .recommended, recommendation := some dto.recommendation
    recommendationReasonCode := some dto.reasonCode
    recommendedLimit := dto.recommendedLimit.map (toScale 2), recommendedBy := some actor }

theorem Case.recommendedAs_id (dto : RecommendationDto) (actor : String) (review : Case) :
    (review.recommendedAs dto actor).id = review.id := rfl

/-- The UPDATE of a case and the INSERT of the action. -/
def State.record (state : State) (caseId : ℕ) (change : Case → Case)
    (hid : ∀ review, (change review).id = review.id) (act : Act) (actor reasonCode : String)
    (payload : Option ℚ) : State :=
  { state with
    cases := state.cases.modify caseId change hid
    actions := state.actions.append
      (fun id =>
        { id := id, caseId := caseId, action := act, actorId := actor, reasonCode := reasonCode
          payload := payload })
      fun _ => rfl }

/-- `recommend`. -/
def State.recommend (state : State) (governed : Governed) (caseId : ℕ) (dto : RecommendationDto)
    (actor : String) : Option State := do
  let review ← state.cases.find? caseId
  if review.status ≠ .pending ∧ review.status ≠ .inReview then none
  else if !governed.assertReason dto.reasonCode (dto.recommendation = .reject) then none
  else
    some (state.record caseId (Case.recommendedAs dto actor) (Case.recommendedAs_id dto actor)
      .recommend actor dto.reasonCode dto.recommendedLimit)

/-- `approvedLimit`. -/
def chosenLimit (dto : DecisionDto) (review : Case) (row : Execution) : ℚ :=
  match dto.decision with
  | .approved => (dto.approvedLimit.or review.recommendedLimit).getD row.allocatedLimit.value
  | .rejected => 0

def Decision.status : Decision → CaseStatus
  | .approved => .approved
  | .rejected => .rejected

def Decision.outcome : Decision → Outcome
  | .approved => .autoApproved
  | .rejected => .rejected

def Case.decidedAs (dto : DecisionDto) (limit : ℚ) (actor : String) (review : Case) : Case :=
  { review with
    status := dto.decision.status, finalReasonCode := some dto.reasonCode
    approvedLimit := some (toScale 2 limit), decidedBy := some actor }

theorem Case.decidedAs_id (dto : DecisionDto) (limit : ℚ) (actor : String) (review : Case) :
    (review.decidedAs dto limit actor).id = review.id := rfl

def Evaluation.decidedAs (dto : DecisionDto) (allocated available : Amount)
    (evaluation : Evaluation) : Evaluation :=
  { evaluation with
    row :=
      { evaluation.row with
        outcome := dto.decision.outcome, allocatedLimit := allocated
        availableLimit := available
        reasonCodes := evaluation.row.reasonCodes ++ [dto.reasonCode] } }

theorem Evaluation.decidedAs_id (dto : DecisionDto) (allocated available : Amount)
    (evaluation : Evaluation) : (evaluation.decidedAs dto allocated available).id = evaluation.id :=
  rfl

/-- `decide`. -/
def State.decide (state : State) (governed : Governed) (caseId : ℕ) (dto : DecisionDto)
    (actor : String) : Option State := do
  let review ← state.cases.find? caseId
  let evaluation ← state.evaluations.find? review.executionId
  let row := evaluation.row
  let limit := chosenLimit dto review row
  if review.status ≠ .recommended then none
  else if review.recommendedBy = some actor then none
  else if !governed.assertReason dto.reasonCode (dto.decision = .rejected) then none
  else if dto.decision = .approved ∧ !row.currency.any (governed.isBound row.productId ·
      row.decisionInputs.countryCode row.decisionInputs.channel) then none
  else if dto.decision = .approved ∧ (limit ≤ 0 ∨ row.allocatedLimit.value < limit) then none
  else
    let allocated ← Amount.store? limit
    let available ←
      Amount.store? (max 0 (limit - row.existingExposure.value - row.pendingReservations.value))
    let decided := state.update governed evaluation
      (Evaluation.decidedAs dto allocated available)
      (Evaluation.decidedAs_id dto allocated available)
    some (decided.record caseId (Case.decidedAs dto limit actor)
      (Case.decidedAs_id dto limit actor) (.decide dto.decision) actor dto.reasonCode (some limit))

/-! ## Steps -/

/-- What may happen. -/
inductive Event
  | start (dto : EvaluateCredit)
  | finish (governed : Governed) (executionId : ℕ) (finding : Finding)
  | recommend (governed : Governed) (caseId : ℕ) (dto : RecommendationDto) (actor : String)
  | decide (governed : Governed) (caseId : ℕ) (dto : DecisionDto) (actor : String)

def step (state : State) : Event → Option State
  | .start dto => state.start dto
  | .finish governed executionId finding => state.finish governed executionId finding
  | .recommend governed caseId dto actor => state.recommend governed caseId dto actor
  | .decide governed caseId dto actor => state.decide governed caseId dto actor

end Finify.Credit.Review
