/-
# Change requests for reference records

`ReferenceDataService`: a call that queues a request reads the live record, builds
the proposal, and inserts the request in a transaction of its own under an
advisory lock; `approve` locks the request, compares the live record with the
base of the request, and applies the proposal when it commits; `reject` and
`cancel` are one conditional update.  What has been read and not yet used is part
of the state.
-/

import Finify.Foundations.Table
import Finify.Foundations.Transition
import Finify.Reference.Records

namespace Finify.Reference

open Foundations

/-! ## Rows -/

inductive Status | pending | approved | rejected | cancelled
  deriving DecidableEq, Repr

def Status.name : Status → String
  | pending => "PENDING"
  | approved => "APPROVED"
  | rejected => "REJECTED"
  | cancelled => "CANCELLED"

inductive Action | create | update | delete
  deriving DecidableEq, Repr

/-- An authenticated administrator. -/
structure Actor where
  sub : ℕ
  superAdmin : Bool
  deriving DecidableEq

/-- A row of `reference_data_change_requests`. -/
structure Request where
  id : ℕ
  key : Key
  action : Action
  status : Status
  base : Option Snapshot
  proposed : Snapshot
  makerId : ℕ
  checkerId : Option ℕ
  deriving DecidableEq

/-- A call of `queue` that has read its record, and whether its transaction has passed its
checks. -/
structure Draft where
  key : Key
  action : Action
  base : Option Snapshot
  proposed : Snapshot
  actor : Actor
  checked : Bool := false
  deriving DecidableEq

/-- A call of `approve` that holds the lock of its request, and whether it has compared the live
record with the base. -/
structure Approval where
  request : Request
  actor : Actor
  compared : Bool := false
  deriving DecidableEq

/-- A new AML configuration takes the number `nextAml`.  The requests that were decided are
remembered, once for each decision. -/
structure State where
  live : Table Row.key
  nextAml : ℕ
  requests : Log Request.id
  drafts : List Draft
  approvals : List Approval
  decided : List ℕ

/-! ## What calls are given -/

inductive Input
  | createKeyword (keyword : String) (dto : KeywordDto)
  | updateKeyword (keyword : String) (dto : KeywordDto)
  | deleteKeyword (keyword : String)
  | createWalletType (walletId : ℤ) (dto : WalletTypeDto)
  | updateWalletType (walletId : ℤ) (dto : WalletTypeDto)
  | deleteWalletType (walletId : ℤ)
  | createAmlConfiguration (walletCode : ℤ) (keyword : String) (dto : CreateAmlDto)
  | updateAmlConfiguration (walletCode : ℤ) (keyword : String) (dto : AmlDto)
  | deleteAmlConfiguration (walletCode : ℤ) (keyword : String)
  deriving DecidableEq

/-- The row that a proposal leaves in the place of another one with its key. -/
def Row.onto (row old : Row) : Row := if row.key = old.key then row else old

theorem Row.onto_key (row old : Row) : (row.onto old).key = old.key := by
  rw [Row.onto]
  split
  next hsame => exact hsame
  next => rfl

def Row.rowId : Row → ℕ
  | aml row => row.rowId
  | keyword _ | walletType _ => 0

def Draft.request (draft : Draft) (id : ℕ) : Request where
  id := id
  key := draft.key
  action := draft.action
  status := .pending
  base := draft.base
  proposed := draft.proposed
  makerId := draft.actor.sub
  checkerId := none

theorem Draft.request_id (draft : Draft) (id : ℕ) : (draft.request id).id = id := rfl

/-- A request that is decided, by a checker unless it is cancelled. -/
def Request.settled (status : Status) (checkerId : Option ℕ) (request : Request) : Request :=
  { request with
    status := status
    checkerId := checkerId.or request.checkerId }

theorem Request.settled_id (status : Status) (checkerId : Option ℕ) (request : Request) :
    (request.settled status checkerId).id = request.id :=
  rfl

/-- `assertPending`. -/
def Request.assertPending (request : Request) : Except String Unit :=
  if request.status = .pending then .ok ()
  else .error ("Change request is already " ++ request.status.name)

/-- Whether an actor may decide a request. -/
def Request.allows (request : Request) (actor : Actor) : Bool :=
  decide (request.makerId ≠ actor.sub) || actor.superAdmin

/-- `assertDifferentUser`. -/
def Request.assertDifferentUser (request : Request) (actor : Actor) : Except String Unit :=
  if request.allows actor then .ok ()
  else .error "Maker cannot approve or reject their own change request"

namespace State

variable (state : State)

/-- `snapshot`. -/
def snapshot (key : Key) : Except String (Option Snapshot) :=
  match state.live.find? key with
  | none => .ok none
  | some row =>
    match row.snapshot with
    | none => .error "integer out of range"
    | some current => .ok (some current)

def existing (key : Key) (missing : String) : Except String Snapshot := do
  match ← state.snapshot key with
  | none => .error missing
  | some current => .ok current

/-- `validateAmlReferences`. -/
def validateAmlReferences (walletCode : ℤ) (keyword : String) : Except String Unit :=
  if (state.live.find? (.walletType walletCode)).isNone then .error "Wallet code not found"
  else if (state.live.find? (.keyword keyword)).isNone then .error "Keyword not found"
  else .ok ()

/-- What a call reads and proposes before its transaction. -/
def draft (input : Input) (actor : Actor) : Except String Draft :=
  match input with
  | .createKeyword keyword dto =>
    .ok ⟨.keyword keyword, .create, none, .keyword (dto.over (keywordDefaults keyword)), actor,
      false⟩
  | .updateKeyword keyword dto => do
      match ← state.existing (.keyword keyword) "Keyword not found" with
      | .keyword current =>
        .ok ⟨.keyword keyword, .update, some (.keyword current), .keyword (dto.over current),
          actor, false⟩
      | _ => .error "Keyword not found"
  | .deleteKeyword keyword => do
      match ← state.existing (.keyword keyword) "Keyword not found" with
      | .keyword current =>
        .ok ⟨.keyword keyword, .delete, some (.keyword current),
          .keyword { current with isActive := some false, serviceStatus := some false }, actor,
          false⟩
      | _ => .error "Keyword not found"
  | .createWalletType walletId dto =>
    .ok ⟨.walletType walletId, .create, none,
      .walletType (dto.over (walletTypeDefaults walletId)), actor, false⟩
  | .updateWalletType walletId dto => do
      match ← state.existing (.walletType walletId) "Wallet type not found" with
      | .walletType current =>
        .ok ⟨.walletType walletId, .update, some (.walletType current),
          .walletType (dto.over current), actor, false⟩
      | _ => .error "Wallet type not found"
  | .deleteWalletType walletId => do
      match ← state.existing (.walletType walletId) "Wallet type not found" with
      | .walletType current =>
        .ok ⟨.walletType walletId, .delete, some (.walletType current),
          .walletType { current with status := some false }, actor, false⟩
      | _ => .error "Wallet type not found"
  | .createAmlConfiguration walletCode keyword dto => do
      state.validateAmlReferences walletCode keyword
      assertAmlLimits (dto.proposal walletCode keyword)
      .ok ⟨.aml walletCode keyword, .create, none, .aml (dto.proposal walletCode keyword), actor,
        false⟩
  | .updateAmlConfiguration walletCode keyword dto => do
      match ← state.existing (.aml walletCode keyword) "AML configuration not found" with
      | .aml current =>
        assertAmlLimits (dto.over current)
        .ok ⟨.aml walletCode keyword, .update, some (.aml current), .aml (dto.over current),
          actor, false⟩
      | _ => .error "AML configuration not found"
  | .deleteAmlConfiguration walletCode keyword => do
      match ← state.existing (.aml walletCode keyword) "AML configuration not found" with
      | .aml current =>
        .ok ⟨.aml walletCode keyword, .delete, some (.aml current),
          .aml { current with isActive := some false }, actor, false⟩
      | _ => .error "AML configuration not found"

def pending? (key : Key) : Option Request :=
  state.requests.rows.find? fun request => decide (request.key = key ∧ request.status = .pending)

/-! ## `queue` -/

/-- The checks of the transaction, under the advisory lock of the record. -/
def check (draft : Draft) : Except String Unit := do
  let current ← state.snapshot draft.key
  if draft.action = .create ∧ current.isSome then .error "Record already exists"
  else if draft.action ≠ .create ∧ current.isNone then .error "Record not found"
  else if draft.action ≠ .create ∧ current = some draft.proposed then
    .error "No changes detected; an identical rule already exists"
  else
    match state.pending? draft.key with
    | some request => .error ("Pending change request " ++ toString request.id ++
        " already exists for this record")
    | none => .ok ()

/-- The insertion; `UQ_REFERENCE_CHANGE_PENDING` admits one pending request for each record. -/
def insert (draft : Draft) : Except String State :=
  if (state.pending? draft.key).isSome then
    .error "A pending change request already exists for this record"
  else .ok { state with requests := state.requests.append draft.request draft.request_id }

/-! ## Decisions -/

def locked (id : ℕ) : Bool := state.approvals.any fun approval => decide (approval.request.id = id)

/-- `approve` locks its request. -/
def lock (id : ℕ) (actor : Actor) : Except String Approval :=
  match state.requests.find? id with
  | none => .error "Change request not found"
  | some request => do
      request.assertPending
      request.assertDifferentUser actor
      .ok ⟨request, actor, false⟩

/-- `approve` reads the live record. -/
def compare (request : Request) : Except String Unit := do
  let current ← state.snapshot request.key
  if request.action = .create ∧ current.isSome then
    .error "The live record was created after this request was submitted"
  else if request.action ≠ .create ∧ current.isNone then .error "The live record no longer exists"
  else if request.action ≠ .create ∧ current ≠ request.base then
    .error
      "The live record changed after this request was submitted; reject it and create a new request"
  else .ok ()

/-- The rows that a new row refers to are there. -/
def hasReferences (row : Row) : Bool :=
  match row with
  | .aml row => (state.live.find? (.walletType row.walletCode)).isSome &&
      (state.live.find? (.keyword row.keyword)).isSome
  | .keyword _ | .walletType _ => true

/-- `apply`: an insertion, or an update of the row with the key of the proposal. -/
def apply (request : Request) : Except String State :=
  match request.action with
  | .create =>
    match request.proposed.apply state.nextAml with
    | none => .error "constraint"
    | some row =>
      if state.hasReferences row then
        match state.live.insert? row with
        | none => .error "duplicate key"
        | some live => .ok { state with live := live, nextAml := state.nextAml + 1 }
      else .error "foreign key"
  | .update | .delete =>
    match state.live.find? request.proposed.key with
    | none => .ok state
    | some old =>
      match request.proposed.apply old.rowId with
      | none => .error "constraint"
      | some row => .ok { state with live := state.live.modify row.key row.onto row.onto_key }

/-- A decision is written; `CK_REFERENCE_CHANGE_DIFFERENT_CHECKER` refuses the maker. -/
def settle (id : ℕ) (status : Status) (checkerId : Option ℕ) : State :=
  { state with
    requests := state.requests.modify id (Request.settled status checkerId)
      (Request.settled_id status checkerId)
    decided := id :: state.decided }

/-- `approve` applies the proposal, writes the decision and commits. -/
def commit (approval : Approval) : Except String State := do
  let applied ← state.apply approval.request
  if approval.request.makerId = approval.actor.sub then
    .error "CK_REFERENCE_CHANGE_DIFFERENT_CHECKER"
  else
    .ok { applied.settle approval.request.id .approved (some approval.actor.sub) with
      approvals := state.approvals.erase approval }

/-- `reject`. -/
def reject (id : ℕ) (actor : Actor) : Except String State :=
  match state.requests.find? id with
  | none => .error "Change request not found"
  | some request =>
    if request.status = .pending ∧ request.allows actor then
      if request.makerId = actor.sub then .error "CK_REFERENCE_CHANGE_DIFFERENT_CHECKER"
      else .ok (state.settle id .rejected (some actor.sub))
    else do
      request.assertPending
      request.assertDifferentUser actor
      .error "Change request could not be rejected"

/-- `cancel`. -/
def cancel (id : ℕ) (actor : Actor) : Except String State :=
  if (state.requests.find? id).any fun request =>
      decide (request.status = .pending ∧ request.makerId = actor.sub) then
    .ok (state.settle id .cancelled none)
  else .error "Only the maker can cancel their pending request"

end State

/-! ## Steps -/

/-- What calls do one after another; a call that fails or is lost leaves by `drop` or
`rollback`. -/
inductive Event
  | draft (input : Input) (actor : Actor)
  | check (draft : Draft)
  | insert (draft : Draft)
  | drop (draft : Draft)
  | lock (id : ℕ) (actor : Actor)
  | compare (approval : Approval)
  | commit (approval : Approval)
  | rollback (approval : Approval)
  | reject (id : ℕ) (actor : Actor)
  | cancel (id : ℕ) (actor : Actor)
  deriving DecidableEq

/-- One step of a call; `none` where the call has to wait or fails. -/
def step (state : State) : Event → Option State
  | .draft input actor =>
    (state.draft input actor).toOption.map fun draft =>
      { state with drafts := draft :: state.drafts }
  | .check draft =>
    if draft ∈ state.drafts ∧
        ∀ other ∈ state.drafts, other.checked = true → other.key ≠ draft.key then
      (state.check draft).toOption.map fun _ =>
        { state with drafts := { draft with checked := true } :: state.drafts.erase draft }
    else none
  | .insert draft =>
    if draft ∈ state.drafts ∧ draft.checked = true then
      (state.insert draft).toOption.map fun after =>
        { after with drafts := state.drafts.erase draft }
    else none
  | .drop draft =>
    if draft ∈ state.drafts then some { state with drafts := state.drafts.erase draft } else none
  | .lock id actor =>
    if state.locked id = true then none
    else
      (state.lock id actor).toOption.map fun approval =>
        { state with approvals := approval :: state.approvals }
  | .compare approval =>
    if approval ∈ state.approvals then
      (state.compare approval.request).toOption.map fun _ =>
        { state with
          approvals := { approval with compared := true } :: state.approvals.erase approval }
    else none
  | .commit approval =>
    if approval ∈ state.approvals ∧ approval.compared = true then
      (state.commit approval).toOption
    else none
  | .rollback approval =>
    if approval ∈ state.approvals then
      some { state with approvals := state.approvals.erase approval }
    else none
  | .reject id actor =>
    if state.locked id = true then none else (state.reject id actor).toOption
  | .cancel id actor =>
    if state.locked id = true then none else (state.cancel id actor).toOption

/-! ## What is claimed -/

def AmlRow.InOrder (row : AmlRow) : Prop :=
  row.maxTransactionAmount ≤ row.dailyMaxAmount ∧ row.dailyMaxAmount ≤ row.monthlyMaxAmount ∧
    row.dailyTransactionCount ≤ row.monthlyTransactionCount

/-- At most one request of each record is pending, no request was decided twice, and the limits of
every live AML configuration are in order. -/
structure State.Kept (state : State) : Prop where
  onePending : ∀ first ∈ state.requests.rows, ∀ second ∈ state.requests.rows,
    first.status = .pending → second.status = .pending → first.key = second.key → first = second
  decidedOnce : state.decided.Nodup
  inOrder : ∀ row, .aml row ∈ state.live.rows → row.InOrder

/-- An approval may be applied: its request is pending, the approver is not its maker or is a super
admin, and the base is the live record. -/
structure State.Permits (state : State) (approval : Approval) : Prop where
  request : state.requests.find? approval.request.id = some approval.request
  pending : approval.request.status = .pending
  allowed : approval.request.makerId ≠ approval.actor.sub ∨ approval.actor.superAdmin = true
  base : state.snapshot approval.request.key = .ok approval.request.base

/-- A live record changes only in an approval that may be applied, and after an approval the live
record agrees with the proposal. -/
structure Lawful (state : State) (event : Event) (after : State) : Prop where
  changes : ∀ key, after.live.find? key ≠ state.live.find? key →
    ∃ approval, event = .commit approval ∧ approval.request.key = key ∧ state.Permits approval
  agrees : ∀ approval, event = .commit approval →
    ∃ current, after.snapshot approval.request.key = .ok (some current) ∧
      current.Agrees approval.request.proposed

end Finify.Reference
