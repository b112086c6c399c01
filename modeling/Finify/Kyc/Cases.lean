/-
# KYC cases

The rows that `KycService` reads and writes, and what it computes from them.  Names and
addresses of customers, the texts of documents and the audit rows decide nothing and are left
out.
-/

import Finify.Onboarding.Runtime
import Mathlib.Data.Prod.Lex

namespace Finify.Kyc

open Finify.Foundations

/-! ## Cases -/

/-- `status` of a case. -/
inductive CaseStatus
  | draft
  | submitted
  | processing
  | manualReview
  | approved
  | rejected
  | resubmissionRequired
  | failed
  deriving DecidableEq, Repr

def CaseStatus.Decided (status : CaseStatus) : Prop := status = .approved ∨ status = .rejected

instance (status : CaseStatus) : Decidable status.Decided := inferInstanceAs (Decidable (_ ∨ _))

/-- `upload` and `verify` accept a case of this status. -/
def CaseStatus.TakesDocuments (status : CaseStatus) : Prop :=
  status = .draft ∨ status = .resubmissionRequired

instance (status : CaseStatus) : Decidable status.TakesDocuments :=
  inferInstanceAs (Decidable (_ ∨ _))

/-- `review` accepts a case of this status. -/
def CaseStatus.AwaitsReview (status : CaseStatus) : Prop :=
  status = .submitted ∨ status = .manualReview

instance (status : CaseStatus) : Decidable status.AwaitsReview :=
  inferInstanceAs (Decidable (_ ∨ _))

/-- `document_type`. -/
inductive DocumentType
  | ugandaNationalId
  | passport
  deriving DecidableEq, Repr

/-- `document_role`. -/
inductive DocumentRole
  | idFront
  | idBack
  | passport
  | selfie
  deriving DecidableEq, Repr

/-- `frontRole`. -/
def DocumentType.frontRole : DocumentType → DocumentRole
  | passport => .passport
  | ugandaNationalId => .idFront

/-- `status` of a sanctions screening. -/
inductive Screening
  | clear
  | matched
  | unavailable
  deriving DecidableEq, Repr

/-- `system_recommendation`. -/
inductive Recommendation
  | approved
  | manualReview
  | rejected
  deriving DecidableEq, Repr

/-- `kyc.cases`.  No time of review sorts last, as `NULLS LAST` has it. -/
structure Case where
  id : ℕ
  customerMsisdn : Option ℤ
  customerId : Option ℕ := none
  documentType : DocumentType
  status : CaseStatus := .draft
  systemRecommendation : Option Recommendation := none
  faceMatchScore : Option ℚ := none
  screening : Option Screening := none
  idempotencyKey : Option String := none
  createdBy : String
  reviewedBy : Option String := none
  createdAt : ℤ
  reviewedAt : WithBot ℤ := ⊥
  deriving DecidableEq

/-- `kyc.documents`. -/
structure StoredDocument where
  caseId : ℕ
  role : DocumentRole
  sha256 : String
  deriving DecidableEq

/-- `status` of a verification attempt. -/
inductive AttemptStatus
  | processing
  | completed
  | failed
  deriving DecidableEq, Repr

/-- `kyc.verification_attempts`. -/
structure Attempt where
  caseId : ℕ
  number : ℕ
  status : AttemptStatus := .processing
  deriving DecidableEq

/-! ## What a decision writes beside the case -/

/-- `SW_TBL_PROFILE_CUST`; the KYC status of a verified customer is 1. -/
structure Profile where
  msisdn : ℤ
  kycStatus : ℕ
  kycCaseId : Option ℕ := none
  deriving DecidableEq

/-- `status` of an account opening request. -/
inductive RequestStatus
  | pendingKyc
  | readyToOpen
  | kycRejected
  | opened
  | cancelled
  deriving DecidableEq, Repr

/-- `customer_account_opening_requests`, in the columns of its life cycle. -/
structure OpeningRequest where
  customerMsisdn : ℤ
  status : RequestStatus
  kycCaseId : Option ℕ
  walletMsisdn : Option ℤ := none
  deriving DecidableEq

/-- `onboarding.kyc_links`. -/
structure Link where
  instanceId : ℕ
  caseId : ℕ
  deriving DecidableEq

/-! ## Results of a verification -/

/-- What the OCR service and the screening have found. -/
structure OcrResult where
  score : ℚ
  screening : Screening
  deriving DecidableEq

def recommendation (score : ℚ) : Recommendation :=
  if 60 ≤ score then .approved else if 40 ≤ score then .manualReview else .rejected

/-- `finalRecommendation`. -/
def OcrResult.finalRecommendation (result : OcrResult) : Recommendation :=
  if result.screening = .clear then recommendation result.score else .manualReview

/-- The column takes the score: to three places it lies between 0 and 100. -/
def OcrResult.Storable (result : OcrResult) : Prop :=
  -1 / 2000 < result.score ∧ result.score < 100 + 1 / 2000

instance (result : OcrResult) : Decidable result.Storable := inferInstanceAs (Decidable (_ ∧ _))

def Case.inStatus (status : CaseStatus) (row : Case) : Case := { row with status := status }

@[simp] theorem Case.inStatus_id (status : CaseStatus) (row : Case) :
    (row.inStatus status).id = row.id := rfl

def Case.verified (result : OcrResult) (row : Case) : Case :=
  { row with
    status := .manualReview
    systemRecommendation := some result.finalRecommendation
    faceMatchScore := some result.score
    screening := some result.screening }

@[simp] theorem Case.verified_id (result : OcrResult) (row : Case) :
    (row.verified result).id = row.id := rfl

/-! ## Decisions -/

/-- `action` of a review. -/
inductive ReviewAction
  | approve
  | reject
  | requestResubmission
  deriving DecidableEq, Repr

def ReviewAction.status : ReviewAction → CaseStatus
  | approve => .approved
  | reject => .rejected
  | requestResubmission => .resubmissionRequired

def Case.reviewed (action : ReviewAction) (actor : String) (now : ℤ) (row : Case) : Case :=
  { row with
    status := action.status
    reviewedBy := some actor
    reviewedAt := (now : WithBot ℤ) }

@[simp] theorem Case.reviewed_id (action : ReviewAction) (actor : String) (now : ℤ) (row : Case) :
    (row.reviewed action actor now).id = row.id := rfl

/-- `approvedCaseId`, which is found for a number only. -/
def approvedCase (cases : List Case) (customerMsisdn : Option ℤ) : Option ℕ :=
  customerMsisdn.bind fun msisdn =>
    (latest (fun row => toLex (row.reviewedAt, row.createdAt)) (cases.filter fun row =>
      row.customerMsisdn = some msisdn ∧ row.status = .approved)).map Case.id

/-- `profileStatus`. -/
def profileStatus (approvedCaseId : Option ℕ) (action : ReviewAction) : ℕ :=
  if approvedCaseId.isSome then 1 else if action = .reject then 2 else 0

/-- The status of an account opening request after a review. -/
def requestStatus (approvedCaseId : Option ℕ) (action : ReviewAction) : RequestStatus :=
  if approvedCaseId.isSome then .readyToOpen
  else if action = .reject then .kycRejected else .pendingKyc

def Profile.reviewed (caseId : ℕ) (approvedCaseId : Option ℕ) (action : ReviewAction)
    (profile : Profile) : Profile :=
  { profile with
    kycStatus := profileStatus approvedCaseId action
    kycCaseId := if action = .approve then some caseId else profile.kycCaseId }

@[simp] theorem Profile.reviewed_msisdn (caseId : ℕ) (approvedCaseId : Option ℕ)
    (action : ReviewAction) (profile : Profile) :
    (profile.reviewed caseId approvedCaseId action).msisdn = profile.msisdn := rfl

def OpeningRequest.reviewed (caseId : ℕ) (approvedCaseId : Option ℕ) (action : ReviewAction)
    (request : OpeningRequest) : OpeningRequest :=
  if request.status = .opened then request
  else
    { request with
      status := requestStatus approvedCaseId action
      kycCaseId := some (approvedCaseId.getD caseId) }

@[simp] theorem OpeningRequest.reviewed_customerMsisdn (caseId : ℕ) (approvedCaseId : Option ℕ)
    (action : ReviewAction) (request : OpeningRequest) :
    (request.reviewed caseId approvedCaseId action).customerMsisdn = request.customerMsisdn := by
  unfold OpeningRequest.reviewed
  split <;> rfl

/-- An approved case is found exactly if there is one. -/
theorem approvedCase_isSome {cases : List Case} {customerMsisdn : Option ℤ} :
    (approvedCase cases customerMsisdn).isSome ↔
      ∃ msisdn, customerMsisdn = some msisdn ∧
        ∃ row ∈ cases, row.customerMsisdn = some msisdn ∧ row.status = .approved := by
  cases customerMsisdn with
  | none => simp [approvedCase]
  | some msisdn =>
    simp only [approvedCase, Option.bind_some, Option.isSome_map, Option.some.injEq,
      exists_eq_left']
    rw [← Option.ne_none_iff_isSome, Ne, latest_eq_none, List.filter_eq_nil_iff]
    simp

/-! ## Decisions and journeys -/

/-- `v_outcome`. -/
def CaseStatus.outcome : CaseStatus → Option String
  | approved => some "APPROVED"
  | rejected => some "REJECTED"
  | _ => none

def decisionKey (caseId : ℕ) (outcome : String) : String :=
  "kyc-decision-" ++ toString caseId ++ "-" ++ outcome.toLower

def decisionOutput (caseId : ℕ) (outcome : String) : Onboarding.Document :=
  { text := "\x7bkycCaseId:" ++ toString caseId ++ ",decision:" ++ outcome ++ "\x7d" }

/-- `propagate_kyc_decision`, with the status that the case has been given. -/
def propagateKycDecision (links : Table Link.instanceId) (journeys : Onboarding.Database)
    (caseId : ℕ) (status : CaseStatus) (actor : String) (now : ℤ) :
    Except Onboarding.VerifiedError Onboarding.Database :=
  match links.rows.find? fun link => link.caseId = caseId with
  | none => .ok journeys
  | some link =>
    match status.outcome with
    | none => .ok journeys
    | some outcome =>
      (journeys.advanceVerified link.instanceId .kyc outcome (decisionKey caseId outcome)
        (decisionOutput caseId outcome) .externalService (some actor) none now).map Prod.fst

end Finify.Kyc
