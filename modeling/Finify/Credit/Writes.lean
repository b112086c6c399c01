/-
# Writes of the credit rules

The statements and transactions with which the management of the credit rules writes its tables.
None of them looks at the status that the service has read before.  Foreign keys to rows that the
service has looked up, and never deletes, are left out.
-/

import Finify.Credit.Tables

namespace Finify.Credit

open Finify.Foundations

namespace Database

variable (db : Database)

/-! ## Integrations -/

/-- The INSERT of `createIntegration`. -/
def createIntegration (code : String) (fields : IntegrationFields) (actor : String) :
    Option Database :=
  if fields.fits ∧ ∀ row ∈ db.integrations.rows, row.code ≠ code.toUpper then
    some { db with
      integrations := db.integrations.append
        (fun id => { id := id, code := code.toUpper, fields := fields, createdBy := actor })
        fun _ => rfl }
  else none

/-- The UPDATE of `updateIntegration`. -/
def updateIntegration (id : ℕ) (fields : IntegrationFields) (actor : String) : Option Database :=
  if fields.fits then
    some { db with
      integrations := db.integrations.modify id
        (fun row => { row with
          fields := fields, isActive := false, approvedBy := none, updatedBy := some actor })
        fun _ => rfl }
  else none

/-- The UPDATE of `approveIntegration`, with `CK_CREDIT_HTTP_DIFFERENT_CHECKER`. -/
def approveIntegration (id : ℕ) (actor : String) : Option Database :=
  if ∀ row ∈ db.integrations.rows, row.id = id → actor ≠ row.createdBy then
    some { db with
      integrations := db.integrations.modify id
        (fun row => { row with
          isActive := true, approvedBy := some actor, updatedBy := some actor })
        fun _ => rfl }
  else none

/-! ## Score providers -/

/-- The INSERT of `createScoreProvider`. -/
def createScoreProvider (code : String) (fields : ProviderFields) (actor : String) :
    Option Database :=
  if fields.fits ∧ ∀ row ∈ db.providers.rows, row.code ≠ code.toUpper then
    some { db with
      providers := db.providers.append
        (fun id => { id := id, code := code.toUpper, fields := fields, createdBy := actor })
        fun _ => rfl }
  else none

/-- The UPDATE of `updateScoreProvider`. -/
def updateScoreProvider (id : ℕ) (fields : ProviderFields) (actor : String) : Option Database :=
  if fields.fits then
    some { db with
      providers := db.providers.modify id
        (fun row => { row with
          fields := fields, isActive := false, approvedBy := none, updatedBy := some actor })
        fun _ => rfl }
  else none

/-- A provider that another one replaces as the default. -/
def undefaulted (id : ℕ) (row : Provider) : Provider :=
  if row.fields.isDefault ∧ row.id ≠ id then
    { row with fields := { row.fields with isDefault := false } }
  else row

theorem undefaulted_id (id : ℕ) (row : Provider) : (undefaulted id row).id = row.id := by
  unfold undefaulted
  split <;> rfl

/-- The transaction of `approveScoreProvider`, which has read whether the provider is to be the
default. -/
def approveScoreProvider (id : ℕ) (isDefault : Bool) (actor : String) : Option Database :=
  let others := if isDefault then db.providers.map (undefaulted id) (undefaulted_id id)
    else db.providers
  let providers := others.modify id
    (fun row => { row with isActive := true, approvedBy := some actor }) fun _ => rfl
  if (∀ row ∈ db.providers.rows, row.id = id → actor ≠ row.createdBy) ∧
      OneDefault providers.rows then
    some { db with providers := providers }
  else none

/-! ## Master rules -/

/-- `next_version`. -/
def nextVersion (ruleCode : String) : ℕ :=
  ((db.masters.rows.filter fun row => row.ruleCode = ruleCode).map Master.version).foldr max 0 + 1

/-- What the INSERTs and UPDATEs store of what a maker has given. -/
def stored (fields : MasterFields) : MasterFields :=
  { fields with
    customerCategory := fields.customerCategory.toUpper
    currency := fields.currency.map String.toUpper }

/-- The INSERT of `createMaster`. -/
def createMaster (ruleCode : String) (fields : MasterFields) (actor : String) : Option Database :=
  if (stored fields).fits then
    some { db with
      masters := db.masters.append
        (fun id =>
          { id := id, ruleCode := ruleCode.toUpper, version := db.nextVersion ruleCode.toUpper
            fields := stored fields, createdBy := actor })
        fun _ => rfl }
  else none

/-- The UPDATE of `updateMaster`. -/
def updateMaster (id : ℕ) (fields : MasterFields) (actor : String) : Option Database :=
  if (stored fields).fits then
    some { db with
      masters := db.masters.modify id
        (fun row => { row with
          fields := stored fields, updatedBy := some actor, status := .draft
          rejectionReason := none })
        fun _ => rfl }
  else none

/-- The transaction of `cloneMaster`, which copies a master and its rules. -/
def cloneMaster (source : Master) (actor : String) : Option Database :=
  match db.masters.find? source.id with
  | none => none
  | some current =>
    some { db with
      masters := db.masters.append
        (fun id =>
          { id := id, ruleCode := current.ruleCode, version := db.nextVersion source.ruleCode
            fields := current.fields, createdBy := actor })
        fun _ => rfl
      rules := db.rules.appendEach
        (db.rules.rows.filter fun rule => rule.masterId = source.id)
        (fun rule id =>
          { id := id, masterId := db.masters.next, fields := rule.fields, createdBy := actor })
        fun _ _ => rfl }

/-! ## Rules -/

/-- The foreign key of a rule. -/
def hasIntegration (fields : RuleFields) : Prop :=
  ∀ id ∈ fields.httpIntegrationId, (db.integrations.find? id).isSome

instance (fields : RuleFields) : Decidable (db.hasIntegration fields) :=
  inferInstanceAs (Decidable (∀ id ∈ fields.httpIntegrationId, (db.integrations.find? id).isSome))

/-- The INSERT of `addRule`. -/
def addRule (masterId : ℕ) (fields : RuleFields) (actor : String) : Option Database :=
  let rules := db.rules.append
    (fun id => { id := id, masterId := masterId, fields := fields, createdBy := actor })
    fun _ => rfl
  if fields.fits ∧ db.hasIntegration fields ∧ OnePriority rules.rows then
    some { db with rules := rules }
  else none

/-- A rule as the UPDATE of `updateRule` leaves it. -/
def rewritten (masterId ruleId : ℕ) (fields : RuleFields) (actor : String) (row : Rule) : Rule :=
  if row.id = ruleId ∧ row.masterId = masterId then
    { row with fields := fields, updatedBy := some actor }
  else row

theorem rewritten_id (masterId ruleId : ℕ) (fields : RuleFields) (actor : String) (row : Rule) :
    (rewritten masterId ruleId fields actor row).id = row.id := by
  unfold rewritten
  split <;> rfl

/-- The UPDATE of `updateRule`. -/
def updateRule (masterId ruleId : ℕ) (fields : RuleFields) (actor : String) : Option Database :=
  let rules := db.rules.map (rewritten masterId ruleId fields actor)
    (rewritten_id masterId ruleId fields actor)
  if fields.fits ∧ db.hasIntegration fields ∧ OnePriority rules.rows then
    some { db with rules := rules }
  else none

/-- The DELETE of `deleteRule`. -/
def deleteRule (masterId ruleId : ℕ) : Database :=
  { db with
    rules := db.rules.filter fun row => ! (row.id = ruleId && row.masterId = masterId) }

/-! ## The life cycle -/

/-- The transaction of `submit`, with `UQ_CREDIT_CHANGE_PENDING`. -/
def submit (masterId : ℕ) (actor : String) : Option Database :=
  if ∀ request ∈ db.requests.rows, request.masterId = masterId → request.status ≠ .pending then
    some { db with
      masters := db.masters.modify masterId
        (fun row => { row with status := .pendingApproval }) fun _ => rfl
      requests := db.requests.append
        (fun id => { id := id, masterId := masterId, makerId := actor }) fun _ => rfl }
  else none

/-- A change request as the UPDATE of a decision leaves it. -/
def decided (masterId : ℕ) (status : RequestStatus) (actor : String) (row : ChangeRequest) :
    ChangeRequest :=
  if row.masterId = masterId ∧ row.status = .pending then
    { row with status := status, checkerId := some actor }
  else row

theorem decided_id (masterId : ℕ) (status : RequestStatus) (actor : String)
    (row : ChangeRequest) : (decided masterId status actor row).id = row.id := by
  unfold decided
  split <;> rfl

/-- The UPDATE of a decision on the change request of a master, with
`CK_CREDIT_CHANGE_DIFFERENT_CHECKER`. -/
def decideRequest (masterId : ℕ) (status : RequestStatus) (actor : String) : Option Database :=
  if ∀ row ∈ db.requests.rows, row.masterId = masterId → row.status = .pending →
      actor ≠ row.makerId then
    some { db with
      requests := db.requests.map (decided masterId status actor)
        (decided_id masterId status actor) }
  else none

/-- The transaction of `approve`. -/
def approve (masterId : ℕ) (actor : String) : Option Database :=
  (db.decideRequest masterId .approved actor).bind fun db =>
    let masters := db.masters.modify masterId
      (fun row => { row with status := .approved, approvedBy := some actor }) fun _ => rfl
    if ∀ row ∈ masters.rows, row.id = masterId → row.fits then
      some { db with masters := masters }
    else none

/-- The transaction of `reject`. -/
def reject (masterId : ℕ) (actor reason : String) : Option Database :=
  (db.decideRequest masterId .rejected actor).map fun db =>
    { db with
      masters := db.masters.modify masterId
        (fun row => { row with status := .rejected, rejectionReason := some reason })
        fun _ => rfl }

end Database

/-- The WHERE of the UPDATE that supersedes other versions when a master is activated. -/
def Master.replaces (current other : Master) : Prop :=
  other.status = .active ∧ other.id ≠ current.id ∧
    other.fields.productId = current.fields.productId ∧
    other.fields.customerCategory = current.fields.customerCategory ∧
    other.fields.currency.getD "" = current.fields.currency.getD "" ∧
    current.fields.minimumScore.getD (-999999999) ≤ other.fields.maximumScore.getD 999999999 ∧
    other.fields.minimumScore.getD (-999999999) ≤ current.fields.maximumScore.getD 999999999

instance (current other : Master) : Decidable (current.replaces other) :=
  inferInstanceAs (Decidable (_ ∧ _))

/-- A master after that UPDATE. -/
def Master.replacedBy (current other : Master) : Master :=
  if current.replaces other then { other with status := .superseded } else other

theorem Master.replacedBy_id (current other : Master) :
    (current.replacedBy other).id = other.id := by
  unfold Master.replacedBy
  split <;> rfl

/-- A master as its activation leaves it. -/
def Master.activated (actor : String) (now : ℤ) (row : Master) : Master :=
  { row with
    status := .active
    activatedBy := some actor
    fields := { row.fields with effectiveFrom := some (row.fields.effectiveFrom.getD now) } }

/-- A master as its retirement leaves it. -/
def Master.retired (actor : String) (now : ℤ) (row : Master) : Master :=
  { row with
    status := .retired
    updatedBy := some actor
    fields := { row.fields with effectiveTo := some now } }

namespace Database

variable (db : Database)

/-- The masters after the transaction of `activate`, which has read the master `current`. -/
def activatedMasters (current : Master) (actor : String) (now : ℤ) : Log Master.id :=
  (db.masters.map current.replacedBy current.replacedBy_id).modify current.id
    (Master.activated actor now) fun _ => rfl

/-- The transaction of `activate`. -/
def activate (current : Master) (actor : String) (now : ℤ) : Option Database :=
  let masters := db.activatedMasters current actor now
  if (∀ row ∈ masters.rows, row.id = current.id → row.fits) ∧ OneActive masters.rows then
    some { db with masters := masters }
  else none

/-- The UPDATE of `retire`. -/
def retire (masterId : ℕ) (actor : String) (now : ℤ) : Option Database :=
  let masters := db.masters.modify masterId (Master.retired actor now) fun _ => rfl
  if ∀ row ∈ masters.rows, row.id = masterId → row.fits then
    some { db with masters := masters }
  else none

end Database

/-! ## All of them -/

/-- What an operation of the service writes at its end, with what it has read for it. -/
inductive Write
  | createIntegration (code : String) (fields : IntegrationFields)
  | updateIntegration (id : ℕ) (fields : IntegrationFields)
  | approveIntegration (id : ℕ) (seen : IntegrationFields)
  | createScoreProvider (code : String) (fields : ProviderFields)
  | updateScoreProvider (id : ℕ) (fields : ProviderFields)
  | approveScoreProvider (id : ℕ) (seen : ProviderFields)
  | createMaster (ruleCode : String) (fields : MasterFields)
  | updateMaster (id : ℕ) (fields : MasterFields)
  | cloneMaster (source : Master)
  | addRule (masterId : ℕ) (fields : RuleFields)
  | updateRule (masterId ruleId : ℕ) (fields : RuleFields)
  | deleteRule (masterId ruleId : ℕ)
  | submit (masterId : ℕ)
  | approve (masterId : ℕ)
  | reject (masterId : ℕ) (reason : String)
  | activate (current : Master)
  | retire (masterId : ℕ)

/-- The tables after a write. -/
def Write.perform (db : Database) (actor : String) (now : ℤ) : Write → Option Database
  | createIntegration code fields => db.createIntegration code fields actor
  | updateIntegration id fields => db.updateIntegration id fields actor
  | approveIntegration id _ => db.approveIntegration id actor
  | createScoreProvider code fields => db.createScoreProvider code fields actor
  | updateScoreProvider id fields => db.updateScoreProvider id fields actor
  | approveScoreProvider id seen => db.approveScoreProvider id seen.isDefault actor
  | createMaster ruleCode fields => db.createMaster ruleCode fields actor
  | updateMaster id fields => db.updateMaster id fields actor
  | cloneMaster source => db.cloneMaster source actor
  | addRule masterId fields => db.addRule masterId fields actor
  | updateRule masterId ruleId fields => db.updateRule masterId ruleId fields actor
  | deleteRule masterId ruleId => some (db.deleteRule masterId ruleId)
  | submit masterId => db.submit masterId actor
  | approve masterId => db.approve masterId actor
  | reject masterId reason => db.reject masterId actor reason
  | activate current => db.activate current actor now
  | retire masterId => db.retire masterId actor now

end Finify.Credit
