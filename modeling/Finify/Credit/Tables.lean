/-
# Credit rules

The tables of the credit rule engine and the statements that write them, with the constraints
that the database checks.  Every statement or transaction that writes is one step.  JSON values
are their texts.  Times of creation, approval and change, the comments of reviews and the lengths
of the columns are left out.
-/

import Finify.Foundations.Table
import Mathlib.Algebra.Order.Ring.Rat

namespace Finify.Credit

open Finify.Foundations

/-! ## Rows -/

/-- `method`. -/
inductive HttpMethod
  | get
  | post
  | put
  | patch
  deriving DecidableEq, Repr

/-- `auth_type`. -/
inductive AuthType
  | none
  | apiKey
  | bearer
  deriving DecidableEq, Repr

/-- What the makers of an HTTP integration write. -/
structure IntegrationFields where
  name : String
  method : HttpMethod := .get
  urlTemplate : String
  requestTemplate : Option String := none
  authType : AuthType := .none
  authHeader : Option String := none
  authSecretEnv : Option String := none
  timeoutMs : ℤ := 5000
  cacheTtlSeconds : ℤ := 0
  deriving DecidableEq

/-- `credit_http_integrations`. -/
structure Integration where
  id : ℕ
  code : String
  fields : IntegrationFields
  isActive : Bool := false
  createdBy : String
  updatedBy : Option String := none
  approvedBy : Option String := none
  deriving DecidableEq

/-- `provider_mode`. -/
inductive ProviderMode
  | http
  | submitted
  deriving DecidableEq, Repr

/-- What the makers of a score provider write. -/
structure ProviderFields where
  name : String
  httpIntegrationId : ℕ
  scoreResponsePath : String
  categoryResponsePath : String
  modelIdResponsePath : Option String := none
  modelVersionResponsePath : Option String := none
  referenceResponsePath : Option String := none
  scoredAtResponsePath : Option String := none
  scoreMin : Option ℚ := none
  scoreMax : Option ℚ := none
  validityMinutes : ℤ := 43200
  isDefault : Bool := false
  providerMode : ProviderMode := .http
  deriving DecidableEq

/-- `credit_score_providers`. -/
structure Provider where
  id : ℕ
  code : String
  fields : ProviderFields
  isActive : Bool := false
  createdBy : String
  updatedBy : Option String := none
  approvedBy : Option String := none
  deriving DecidableEq

/-- `default_outcome`. -/
inductive DefaultOutcome
  | rejected
  | manualReview
  deriving DecidableEq, Repr

/-- The status of a master rule. -/
inductive MasterStatus
  | draft
  | pendingApproval
  | approved
  | active
  | rejected
  | superseded
  | retired
  deriving DecidableEq, Repr

/-- What the makers of a master rule write. -/
structure MasterFields where
  name : String
  customerCategory : String
  productId : String
  currency : Option String := none
  minimumScore : Option ℚ := none
  maximumScore : Option ℚ := none
  baseLimit : ℚ := 0
  minimumLimit : ℚ := 0
  maximumLimit : ℚ
  defaultOutcome : DefaultOutcome := .rejected
  autoApprovalEnabled : Bool := false
  defaultRepaymentOptionIds : List String := []
  scoreProviderId : Option ℕ := none
  effectiveFrom : Option ℤ := none
  effectiveTo : Option ℤ := none
  deriving DecidableEq

/-- `credit_master_rules`. -/
structure Master where
  id : ℕ
  ruleCode : String
  version : ℕ
  fields : MasterFields
  status : MasterStatus := .draft
  createdBy : String
  updatedBy : Option String := none
  approvedBy : Option String := none
  activatedBy : Option String := none
  rejectionReason : Option String := none
  deriving DecidableEq

/-- `source_type`. -/
inductive SourceType
  | aiResult
  | decisionInput
  | postgres
  | httpApi
  deriving DecidableEq, Repr

/-- `read_mode`. -/
inductive ReadMode
  | single
  | latest
  | sum
  | average
  | count
  | minimum
  | maximum
  | exists
  deriving DecidableEq, Repr

/-- `data_type`. -/
inductive DataType
  | string
  | decimal
  | integer
  | boolean
  | date
  | datetime
  deriving DecidableEq, Repr

/-- What the makers of a rule write. -/
structure RuleFields where
  name : String
  description : Option String := none
  priority : ℤ
  exclusiveGroup : Option String := none
  sourceType : SourceType
  aiResultField : Option String := none
  schemaName : Option String := none
  tableName : Option String := none
  lookupColumn : Option String := none
  valueColumn : Option String := none
  readMode : Option ReadMode := none
  orderByColumn : Option String := none
  httpIntegrationId : Option ℕ := none
  responsePath : Option String := none
  dataType : DataType
  condition : String
  actionOnMatch : String
  actionOnNoMatch : String
  sourceFailureAction : String
  stopOnMatch : Bool := false
  stopOnNoMatch : Bool := false
  isActive : Bool := true
  deriving DecidableEq

/-- `credit_rules`. -/
structure Rule where
  id : ℕ
  masterId : ℕ
  fields : RuleFields
  createdBy : String
  updatedBy : Option String := none
  deriving DecidableEq

/-- The status of a change request. -/
inductive RequestStatus
  | pending
  | approved
  | rejected
  deriving DecidableEq, Repr

/-- `credit_rule_change_requests`, whose action is always `PUBLISH`. -/
structure ChangeRequest where
  id : ℕ
  masterId : ℕ
  status : RequestStatus := .pending
  makerId : String
  checkerId : Option String := none
  deriving DecidableEq

/-- The tables. -/
structure Database where
  integrations : Log Integration.id := .empty
  providers : Log Provider.id := .empty
  masters : Log Master.id := .empty
  rules : Log Rule.id := .empty
  requests : Log ChangeRequest.id := .empty

/-! ## Constraints -/

def IntegrationFields.fits (fields : IntegrationFields) : Prop :=
  (100 ≤ fields.timeoutMs ∧ fields.timeoutMs ≤ 120000) ∧
    (0 ≤ fields.cacheTtlSeconds ∧ fields.cacheTtlSeconds ≤ 86400)

instance (fields : IntegrationFields) : Decidable fields.fits :=
  inferInstanceAs (Decidable (_ ∧ _))

def ProviderFields.fits (fields : ProviderFields) : Prop :=
  (∀ low ∈ fields.scoreMin, ∀ high ∈ fields.scoreMax, low ≤ high) ∧
    (1 ≤ fields.validityMinutes ∧ fields.validityMinutes ≤ 525600)

instance (fields : ProviderFields) : Decidable fields.fits :=
  inferInstanceAs (Decidable ((∀ low ∈ fields.scoreMin, ∀ high ∈ fields.scoreMax, low ≤ high) ∧ _))

/-- `UQ_CREDIT_SCORE_DEFAULT`. -/
def OneDefault (providers : List Provider) : Prop :=
  ∀ first ∈ providers, ∀ second ∈ providers, first.isActive → first.fields.isDefault →
    second.isActive → second.fields.isDefault → first.id = second.id

instance (providers : List Provider) : Decidable (OneDefault providers) :=
  inferInstanceAs (Decidable (∀ first ∈ providers, ∀ second ∈ providers, first.isActive →
    first.fields.isDefault → second.isActive → second.fields.isDefault → first.id = second.id))

/-- `CK_CREDIT_MASTER_CURRENCY`. -/
def isCurrency (currency : String) : Bool :=
  currency.length = 3 && currency.all Char.isUpper

/-- The CHECKs of what is written of a master. -/
def MasterFields.fits (fields : MasterFields) : Prop :=
  (∀ low ∈ fields.minimumScore, ∀ high ∈ fields.maximumScore, low ≤ high) ∧
    (0 ≤ fields.baseLimit ∧ 0 ≤ fields.minimumLimit ∧ 0 < fields.maximumLimit ∧
      fields.minimumLimit ≤ fields.maximumLimit) ∧
    (∀ start ∈ fields.effectiveFrom, ∀ stop ∈ fields.effectiveTo, start ≤ stop) ∧
    (∀ currency ∈ fields.currency, isCurrency currency)

instance (fields : MasterFields) : Decidable fields.fits :=
  inferInstanceAs (Decidable
    ((∀ low ∈ fields.minimumScore, ∀ high ∈ fields.maximumScore, low ≤ high) ∧ _ ∧
      (∀ start ∈ fields.effectiveFrom, ∀ stop ∈ fields.effectiveTo, start ≤ stop) ∧
      (∀ currency ∈ fields.currency, isCurrency currency)))

/-- The CHECKs of a master, `CK_CREDIT_MASTER_DIFFERENT_CHECKER` with them. -/
def Master.fits (master : Master) : Prop :=
  master.fields.fits ∧ master.approvedBy ≠ some master.createdBy

instance (master : Master) : Decidable master.fits := inferInstanceAs (Decidable (_ ∧ _))

/-- `UQ_CREDIT_MASTER_ACTIVE_VERSION`. -/
def OneActive (masters : List Master) : Prop :=
  ∀ first ∈ masters, ∀ second ∈ masters, first.status = .active → second.status = .active →
    first.ruleCode = second.ruleCode → first.id = second.id

instance (masters : List Master) : Decidable (OneActive masters) :=
  inferInstanceAs (Decidable (∀ first ∈ masters, ∀ second ∈ masters, first.status = .active →
    second.status = .active → first.ruleCode = second.ruleCode → first.id = second.id))

def RuleFields.fits (fields : RuleFields) : Prop :=
  (1 ≤ fields.priority ∧ fields.priority ≤ 100000) ∧
    match fields.sourceType with
    | .aiResult => fields.aiResultField.isSome
    | .decisionInput => True
    | .postgres =>
      fields.schemaName.isSome ∧ fields.tableName.isSome ∧ fields.lookupColumn.isSome ∧
        fields.valueColumn.isSome ∧ fields.readMode.isSome
    | .httpApi => fields.httpIntegrationId.isSome ∧ fields.responsePath.isSome

instance (fields : RuleFields) : Decidable fields.fits :=
  have : Decidable (match fields.sourceType with
    | .aiResult => fields.aiResultField.isSome = true
    | .decisionInput => True
    | .postgres =>
      fields.schemaName.isSome = true ∧ fields.tableName.isSome = true ∧
        fields.lookupColumn.isSome = true ∧ fields.valueColumn.isSome = true ∧
        fields.readMode.isSome = true
    | .httpApi => fields.httpIntegrationId.isSome = true ∧ fields.responsePath.isSome = true) :=
    match fields.sourceType with
    | .aiResult => inferInstanceAs (Decidable (_ = true))
    | .decisionInput => inferInstanceAs (Decidable True)
    | .postgres => inferInstanceAs (Decidable (_ ∧ _))
    | .httpApi => inferInstanceAs (Decidable (_ ∧ _))
  inferInstanceAs (Decidable (_ ∧ _))

/-- `UQ_CREDIT_RULE_PRIORITY`. -/
def OnePriority (rules : List Rule) : Prop :=
  ∀ first ∈ rules, ∀ second ∈ rules, first.masterId = second.masterId →
    first.fields.priority = second.fields.priority → first.id = second.id

instance (rules : List Rule) : Decidable (OnePriority rules) :=
  inferInstanceAs (Decidable (∀ first ∈ rules, ∀ second ∈ rules,
    first.masterId = second.masterId → first.fields.priority = second.fields.priority →
      first.id = second.id))

end Finify.Credit
