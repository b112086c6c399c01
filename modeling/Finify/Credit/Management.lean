/-
# CreditRuleManagementService

The operations of the service as programs: one look at the tables after the other, and a write at
the end.  What the service checks without the tables, the condition engine, the data sources and
the URLs, is given by `Checks`.  An update takes the values that its request leaves out from the
row that it has read.
-/

import Finify.Credit.Writes

namespace Finify.Credit

open Finify.Foundations

/-- The checks of the other services. -/
structure Checks where
  /-- `validateUrlTemplate`. -/
  urlTemplate : String → Bool
  /-- `ConditionEngineService.validate`. -/
  condition : String → Bool
  /-- `validateAction`. -/
  action : String → Bool
  /-- The `type` of an action. -/
  actionType : String → String
  /-- `validatePostgresSource`. -/
  postgresSource : RuleFields → Bool

/-- Checks that let everything pass. -/
def lenient : Checks where
  urlTemplate _ := true
  condition _ := true
  action _ := true
  actionType _ := "REJECT"
  postgresSource _ := true

/-- The statements of an operation. -/
inductive Program
  | look (next : Database → Program)
  | fail
  | write (write : Write)

namespace Program

/-- Go on if a test holds. -/
def guard (test : Bool) (rest : Program) : Program := if test then rest else fail

def onSome {α : Type*} (found : Option α) (rest : α → Program) : Program :=
  match found with
  | none => fail
  | some value => rest value

/-- The operation alone, one statement after the other. -/
def run (actor : String) (now : ℤ) : Program → Database → Option Database
  | look next, db => run actor now (next db) db
  | fail, _ => none
  | .write made, db => made.perform db actor now

end Program

open Program

/-! ## Requests for updates -/

/-- `UpdateHttpIntegrationDto`. -/
structure IntegrationPatch where
  name : Option String := none
  method : Option HttpMethod := none
  urlTemplate : Option String := none
  requestTemplate : Option String := none
  authType : Option AuthType := none
  authHeader : Option String := none
  authSecretEnv : Option String := none
  timeoutMs : Option ℤ := none
  cacheTtlSeconds : Option ℤ := none

/-- `next`. -/
def IntegrationPatch.next (dto : IntegrationPatch) (current : IntegrationFields) :
    IntegrationFields where
  name := dto.name.getD current.name
  method := dto.method.getD current.method
  urlTemplate := dto.urlTemplate.getD current.urlTemplate
  requestTemplate := dto.requestTemplate.or current.requestTemplate
  authType := dto.authType.getD current.authType
  authHeader := dto.authHeader.or current.authHeader
  authSecretEnv := dto.authSecretEnv.or current.authSecretEnv
  timeoutMs := dto.timeoutMs.getD current.timeoutMs
  cacheTtlSeconds := dto.cacheTtlSeconds.getD current.cacheTtlSeconds

/-- `UpdateScoreProviderDto`. -/
structure ProviderPatch where
  name : Option String := none
  httpIntegrationId : Option ℕ := none
  scoreResponsePath : Option String := none
  categoryResponsePath : Option String := none
  modelIdResponsePath : Option String := none
  modelVersionResponsePath : Option String := none
  referenceResponsePath : Option String := none
  scoredAtResponsePath : Option String := none
  scoreMin : Option ℚ := none
  scoreMax : Option ℚ := none
  validityMinutes : Option ℤ := none
  isDefault : Option Bool := none
  providerMode : Option ProviderMode := none

/-- `next`. -/
def ProviderPatch.next (dto : ProviderPatch) (current : ProviderFields) : ProviderFields where
  name := dto.name.getD current.name
  httpIntegrationId := dto.httpIntegrationId.getD current.httpIntegrationId
  scoreResponsePath := dto.scoreResponsePath.getD current.scoreResponsePath
  categoryResponsePath := dto.categoryResponsePath.getD current.categoryResponsePath
  modelIdResponsePath := dto.modelIdResponsePath.or current.modelIdResponsePath
  modelVersionResponsePath := dto.modelVersionResponsePath.or current.modelVersionResponsePath
  referenceResponsePath := dto.referenceResponsePath.or current.referenceResponsePath
  scoredAtResponsePath := dto.scoredAtResponsePath.or current.scoredAtResponsePath
  scoreMin := dto.scoreMin.or current.scoreMin
  scoreMax := dto.scoreMax.or current.scoreMax
  validityMinutes := dto.validityMinutes.getD current.validityMinutes
  isDefault := dto.isDefault.getD current.isDefault
  providerMode := dto.providerMode.getD current.providerMode

/-- `UpdateMasterRuleDto`. -/
structure MasterPatch where
  name : Option String := none
  customerCategory : Option String := none
  productId : Option String := none
  currency : Option String := none
  minimumScore : Option ℚ := none
  maximumScore : Option ℚ := none
  baseLimit : Option ℚ := none
  minimumLimit : Option ℚ := none
  maximumLimit : Option ℚ := none
  defaultOutcome : Option DefaultOutcome := none
  autoApprovalEnabled : Option Bool := none
  defaultRepaymentOptionIds : Option (List String) := none
  scoreProviderId : Option ℕ := none
  effectiveFrom : Option ℤ := none
  effectiveTo : Option ℤ := none

/-- `next`. -/
def MasterPatch.next (dto : MasterPatch) (current : MasterFields) : MasterFields where
  name := dto.name.getD current.name
  customerCategory := dto.customerCategory.getD current.customerCategory
  productId := dto.productId.getD current.productId
  currency := dto.currency.or current.currency
  minimumScore := dto.minimumScore.or current.minimumScore
  maximumScore := dto.maximumScore.or current.maximumScore
  baseLimit := dto.baseLimit.getD current.baseLimit
  minimumLimit := dto.minimumLimit.getD current.minimumLimit
  maximumLimit := dto.maximumLimit.getD current.maximumLimit
  defaultOutcome := dto.defaultOutcome.getD current.defaultOutcome
  autoApprovalEnabled := dto.autoApprovalEnabled.getD current.autoApprovalEnabled
  defaultRepaymentOptionIds := dto.defaultRepaymentOptionIds.getD current.defaultRepaymentOptionIds
  scoreProviderId := dto.scoreProviderId.or current.scoreProviderId
  effectiveFrom := dto.effectiveFrom.or current.effectiveFrom
  effectiveTo := dto.effectiveTo.or current.effectiveTo

/-- `UpdateRuleDto`. -/
structure RulePatch where
  name : Option String := none
  description : Option String := none
  priority : Option ℤ := none
  exclusiveGroup : Option String := none
  sourceType : Option SourceType := none
  aiResultField : Option String := none
  schemaName : Option String := none
  tableName : Option String := none
  lookupColumn : Option String := none
  valueColumn : Option String := none
  readMode : Option ReadMode := none
  orderByColumn : Option String := none
  httpIntegrationId : Option ℕ := none
  responsePath : Option String := none
  dataType : Option DataType := none
  condition : Option String := none
  actionOnMatch : Option String := none
  actionOnNoMatch : Option String := none
  sourceFailureAction : Option String := none
  stopOnMatch : Option Bool := none
  stopOnNoMatch : Option Bool := none
  isActive : Option Bool := none

/-- `next`. -/
def RulePatch.next (dto : RulePatch) (current : RuleFields) : RuleFields where
  name := dto.name.getD current.name
  description := dto.description.or current.description
  priority := dto.priority.getD current.priority
  exclusiveGroup := dto.exclusiveGroup.or current.exclusiveGroup
  sourceType := dto.sourceType.getD current.sourceType
  aiResultField := dto.aiResultField.or current.aiResultField
  schemaName := dto.schemaName.or current.schemaName
  tableName := dto.tableName.or current.tableName
  lookupColumn := dto.lookupColumn.or current.lookupColumn
  valueColumn := dto.valueColumn.or current.valueColumn
  readMode := dto.readMode.or current.readMode
  orderByColumn := dto.orderByColumn.or current.orderByColumn
  httpIntegrationId := dto.httpIntegrationId.or current.httpIntegrationId
  responsePath := dto.responsePath.or current.responsePath
  dataType := dto.dataType.getD current.dataType
  condition := dto.condition.getD current.condition
  actionOnMatch := dto.actionOnMatch.getD current.actionOnMatch
  actionOnNoMatch := dto.actionOnNoMatch.getD current.actionOnNoMatch
  sourceFailureAction := dto.sourceFailureAction.getD current.sourceFailureAction
  stopOnMatch := dto.stopOnMatch.getD current.stopOnMatch
  stopOnNoMatch := dto.stopOnNoMatch.getD current.stopOnNoMatch
  isActive := dto.isActive.getD current.isActive

/-! ## Validation -/

/-- `validateMaster`. -/
def validateMaster (input : MasterFields) : Bool :=
  (∀ low ∈ input.minimumScore, ∀ high ∈ input.maximumScore, low ≤ high) ∧
    ¬ (input.maximumLimit < input.minimumLimit ∨ input.baseLimit < 0 ∨ input.maximumLimit ≤ 0)

/-- A text that is there and not empty. -/
def isGiven (value : Option String) : Bool := value.any fun text => text ≠ ""

/-- What `validateRule` checks without the tables. -/
def ruleIsSound (checks : Checks) (dto : RuleFields) : Bool :=
  checks.condition dto.condition && checks.action dto.actionOnMatch &&
    checks.action dto.actionOnNoMatch && checks.action dto.sourceFailureAction &&
    ! ["SET_LIMIT_FROM_VALUE", "SET_LIMIT_FROM_VALUE_MULTIPLIER",
        "CAP_LIMIT_FROM_VALUE_MULTIPLIER"].contains (checks.actionType dto.sourceFailureAction) &&
    match dto.sourceType with
    | .aiResult => isGiven dto.aiResultField
    | .decisionInput => dto.aiResultField.all fun field => field.trimAscii.toString ≠ ""
    | .postgres => checks.postgresSource dto
    | .httpApi => dto.httpIntegrationId.isSome && isGiven dto.responsePath

/-- The HTTP integration that `validateRule` looks up is there. -/
def Database.offers (db : Database) (dto : RuleFields) : Bool :=
  match dto.sourceType with
  | .httpApi => dto.httpIntegrationId.any fun id => (db.integrations.find? id).isSome
  | _ => true

/-- `validateRule`. -/
def validateRule (checks : Checks) (dto : RuleFields) (rest : Program) : Program :=
  guard (ruleIsSound checks dto) <| look fun db => guard (db.offers dto) rest

/-- `integration_active` of a rule. -/
def Database.isServed (db : Database) (dto : RuleFields) : Bool :=
  dto.httpIntegrationId.any fun id => (db.integrations.find? id).any Integration.isActive

/-- The rules that `validateForPublication` reads, in their order. -/
def Database.activeRules (db : Database) (masterId : ℕ) : List (RuleFields × Bool) :=
  (((db.rules.rows.filter fun rule => rule.masterId = masterId && rule.fields.isActive).map
      Rule.fields).mergeSort fun first second => first.priority ≤ second.priority).map
    fun fields => (fields, db.isServed fields)

/-- The loop of `validateForPublication`. -/
def validateRules (checks : Checks) (rest : Program) : List (RuleFields × Bool) → Program
  | [] => rest
  | (fields, served) :: more =>
    validateRule checks fields <|
      guard (fields.sourceType ≠ .httpApi ∨ served) (validateRules checks rest more)

def Database.hasProvider (db : Database) (fields : MasterFields) : Bool :=
  fields.scoreProviderId.all fun id => (db.providers.find? id).any Provider.isActive

/-- `validateForPublication`. -/
def validateForPublication (checks : Checks) (masterId : ℕ) (rest : Program) : Program :=
  look fun db => onSome (db.masters.find? masterId) fun master =>
    look fun db => guard (db.hasProvider master.fields) <|
      look fun db => validateRules checks rest (db.activeRules masterId)

/-! ## Operations -/

/-- `editableMaster`. -/
def editableMaster (id : ℕ) (rest : Master → Program) : Program :=
  look fun db => onSome (db.masters.find? id) fun master =>
    guard (master.status = .draft ∨ master.status = .rejected) (rest master)

/-- Go on if the score provider of a master exists. -/
def findProvider (fields : MasterFields) (rest : Program) : Program :=
  match fields.scoreProviderId with
  | none => rest
  | some id => look fun db => guard (db.providers.find? id).isSome rest

/-- Go on if an integration exists. -/
def findIntegration (id : ℕ) (rest : Program) : Program :=
  look fun db => guard (db.integrations.find? id).isSome rest

/-- The calls of the service. -/
inductive Call
  | createIntegration (code : String) (dto : IntegrationFields)
  | updateIntegration (id : ℕ) (dto : IntegrationPatch)
  | approveIntegration (id : ℕ)
  | createScoreProvider (code : String) (dto : ProviderFields)
  | updateScoreProvider (id : ℕ) (dto : ProviderPatch)
  | approveScoreProvider (id : ℕ)
  | createMaster (ruleCode : String) (dto : MasterFields)
  | updateMaster (id : ℕ) (dto : MasterPatch)
  | cloneMaster (id : ℕ)
  | addRule (masterId : ℕ) (dto : RuleFields)
  | updateRule (masterId ruleId : ℕ) (dto : RulePatch)
  | deleteRule (masterId ruleId : ℕ)
  | submit (masterId : ℕ)
  | approve (masterId : ℕ)
  | reject (masterId : ℕ) (reason : String)
  | activate (masterId : ℕ)
  | retire (masterId : ℕ)

/-- `scoreMax` is not below `scoreMin`. -/
def scoresInOrder (fields : ProviderFields) : Bool :=
  ∀ low ∈ fields.scoreMin, ∀ high ∈ fields.scoreMax, low ≤ high

/-- `approve` and `reject` up to their transactions. -/
def checked (masterId : ℕ) (actor : String) (rest : Program) : Program :=
  look fun db => onSome (db.masters.find? masterId) fun current =>
    guard (current.status = .pendingApproval) <| guard (current.createdBy ≠ actor) rest

def Call.program (checks : Checks) (actor : String) : Call → Program
  | createIntegration code dto =>
    guard (checks.urlTemplate dto.urlTemplate) <| .write (.createIntegration code dto)
  | updateIntegration id dto =>
    look fun db => onSome (db.integrations.find? id) fun current =>
      guard (dto.urlTemplate.all fun template => template = "" || checks.urlTemplate template) <|
        .write (.updateIntegration id (dto.next current.fields))
  | approveIntegration id =>
    look fun db => onSome (db.integrations.find? id) fun current =>
      guard (current.createdBy ≠ actor) <| .write (.approveIntegration id current.fields)
  | createScoreProvider code dto =>
    guard (scoresInOrder dto) <|
      findIntegration dto.httpIntegrationId <| .write (.createScoreProvider code dto)
  | updateScoreProvider id dto =>
    look fun db => onSome (db.providers.find? id) fun current =>
      let next := dto.next current.fields
      guard (scoresInOrder next) <|
        findIntegration next.httpIntegrationId <| .write (.updateScoreProvider id next)
  | approveScoreProvider id =>
    look fun db => onSome (db.providers.find? id) fun current =>
      onSome (db.integrations.find? current.fields.httpIntegrationId) fun integration =>
        guard (current.createdBy ≠ actor) <|
          guard (current.fields.providerMode = .submitted ∨ integration.isActive) <|
            .write (.approveScoreProvider id current.fields)
  | createMaster ruleCode dto =>
    guard (validateMaster dto) <| findProvider dto <| .write (.createMaster ruleCode dto)
  | updateMaster id dto =>
    editableMaster id fun current =>
      let next := dto.next current.fields
      guard (validateMaster next) <| findProvider next <| .write (.updateMaster id next)
  | cloneMaster id =>
    look fun db => onSome (db.masters.find? id) fun current => .write (.cloneMaster current)
  | addRule masterId dto =>
    editableMaster masterId fun _ =>
      let dto := { dto with isActive := true }
      validateRule checks dto <| .write (.addRule masterId dto)
  | updateRule masterId ruleId dto =>
    editableMaster masterId fun _ =>
      look fun db =>
        onSome (db.rules.rows.find? fun rule => rule.id = ruleId && rule.masterId = masterId)
          fun current =>
            let next := dto.next current.fields
            validateRule checks next <| .write (.updateRule masterId ruleId next)
  | deleteRule masterId ruleId =>
    editableMaster masterId fun _ => .write (.deleteRule masterId ruleId)
  | submit masterId =>
    editableMaster masterId fun _ =>
      look fun db => guard (db.rules.rows.any fun rule => rule.masterId = masterId) <|
        validateForPublication checks masterId <| .write (.submit masterId)
  | approve masterId =>
    checked masterId actor <|
      validateForPublication checks masterId <| .write (.approve masterId)
  | reject masterId reason => checked masterId actor <| .write (.reject masterId reason)
  | activate masterId =>
    look fun db => onSome (db.masters.find? masterId) fun current =>
      guard (current.status = .approved) <|
        validateForPublication checks masterId <| .write (.activate current)
  | retire masterId =>
    look fun db => onSome (db.masters.find? masterId) fun current =>
      guard (current.status = .active) <| .write (.retire masterId)

end Finify.Credit
