/-
# The onboarding services

The calls that the onboarding services offer for a journey, with what they return: the step
operations that take an idempotency key, starting and resuming, and the handoff to another
channel.  A call is one transaction unless it says otherwise.  Of the tables that other parts of
the platform govern a call is given what it finds in them.  Left out are the bounds on the
lengths of keys and tokens, the sessions of a channel, and what `allocateWallet` writes to the
tables of profiles and KYC cases.
-/

import Finify.Onboarding.Allocation
import Finify.Onboarding.Bindings
import Finify.Onboarding.Otp
import Mathlib.Data.List.Infix

namespace Finify.Onboarding.Services

open Finify.Foundations

/-! ## Rows -/

/-- `customer_credentials`. -/
structure Credential where
  customerId : ℕ
  pinHash : String
  failedAttempts : ℕ := 0
  maximumAttempts : ℤ
  lockedUntil : Option ℤ := none
  deriving DecidableEq

/-- `consent_acceptances`. -/
structure Acceptance where
  instanceId : ℕ
  customerId : ℕ
  consentVersionId : String
  contentHash : String
  accepted : Bool
  idempotencyKey : String
  deriving DecidableEq

/-- `profile_form_submissions`. -/
structure FormSubmission where
  instanceId : ℕ
  customerId : ℕ
  formVersionId : String
  response : String
  idempotencyKey : String
  submittedAt : ℤ
  deriving DecidableEq

/-- `status` of a handoff. -/
inductive HandoffStatus
  | pending
  | consumed
  | cancelled
  | expired
  deriving DecidableEq, Repr

/-- `channel_handoffs`; its token is known by its identifier. -/
structure Handoff where
  id : ℕ
  instanceId : ℕ
  targetVersion : ℕ
  sourceNode : String
  idempotencyKey : String
  status : HandoffStatus := .pending
  expiresAt : ℤ
  deriving DecidableEq

/-- The `journey_events` of handoffs. -/
inductive HandoffEvent
  | created (instanceId handoffId : ℕ) (node : String)
  | consumed (instanceId handoffId : ℕ) (node next : String)
  deriving DecidableEq

/-- The tables. -/
structure State where
  otp : Otp.State
  credentials : Table Credential.customerId := .empty
  acceptances : List Acceptance := []
  submissions : List FormSubmission := []
  requests : List Allocation.AllocationRequest := []
  handoffs : Log Handoff.id := .empty
  handoffEvents : List HandoffEvent := []

/-- The tables of the journeys. -/
abbrev State.db (state : State) : Database := state.otp.db

def State.withDb (state : State) (db : Database) : State :=
  { state with otp := { state.otp with db := db } }

/-! ## Step operations -/

/-- What a client sends. -/
inductive Input
  | advanceStep (nodeKey outcome : String) (output : Option Document)
  | verifyOtp (code : String)
  | createPin (pin confirmPin : String)
  | acceptConsent (consentVersionId : String) (accepted : Bool)
  | submitProfile (formVersionId response : String)
  | allocateWallet
  | callback (nodeType outcome reference : String) (output : Document)
  deriving DecidableEq

/-- A call of a step operation; a callback shows no token. -/
structure Call where
  instanceId : ℕ
  resumeTokenHash : String
  idempotencyKey : String
  input : Input
  deriving DecidableEq

/-- What a call finds: the time, the governed tables, the customer, and what other functions and
services answer. -/
structure Circumstances where
  now : ℤ
  catalogue : Catalogue := {}
  tenantId : ℕ := 1
  countryCode : String := "UGA"
  customerType : String := "INDIVIDUAL"
  channelCode : String := "MOBILE_APP"
  pinHash : String := ""
  contentHash : String := ""
  formIsValid : Bool := true
  walletReference : Option String := none

/-- What a call answers. -/
inductive Answer
  | step (result : StepResult)
  | wallet (walletReference : Option String) (replayed : Bool)
  | refused
  deriving DecidableEq

def Answer.replay : Answer → Answer
  | step result => .step { result with replayed := true }
  | wallet walletReference _ => .wallet walletReference true
  | refused => .refused

/-- The context of the configuration checks. -/
def Circumstances.context (circumstances : Circumstances) (node : Node) : RuntimeContext :=
  { tenantId := circumstances.tenantId
    countryCode := circumstances.countryCode
    customerType := circumstances.customerType
    channelCode := circumstances.channelCode
    node := node }

/-- A PIN of one digit, or of digits in their order up or down. -/
def isEasyPin (pin : String) : Bool :=
  (2 ≤ pin.length && pin.toList.all fun digit => digit = pin.front) ||
    decide (pin.toList <:+: "01234567890".toList) || decide (pin.toList <:+: "09876543210".toList)

/-- `maximumAttempts` of a PIN node; `none` where it is no number. -/
def Node.maximumAttempts (node : Node) : Option ℤ :=
  match (node.configuration.lookup "maximumAttempts").filter Value.truthy with
  | none => some 5
  | some value => value.toNumber.map fun attempts => min 20 (max 1 attempts)

/-- The call of `advance_journey_step` that `advanceStep` makes. -/
def Call.stepRequest (call : Call) (nodeKey outcome : String) (output : Option Document)
    (now : ℤ) : StepRequest :=
  { instanceId := call.instanceId
    resumeTokenHash := call.resumeTokenHash
    expectedNodeKey := nodeKey
    outcome := outcome
    idempotencyKey := call.idempotencyKey
    inputHash := "\x7bnodeKey:" ++ nodeKey ++ ",outcome:" ++ outcome ++ ",output:" ++
      (output.getD {}).text ++ "\x7d"
    output := some (output.getD {})
    actorId := some "customer"
    now := now }

section

variable (otpHash : ℕ → String → String) (state : State) (call : Call)
  (circumstances : Circumstances)

def State.context (expected : NodeType) : Option (Instance × Node) :=
  (state.db.context call.instanceId call.resumeTokenHash expected circumstances.now).toOption

/-- `advance`. -/
def State.advance (type : NodeType) (outcome : String) (output : Document)
    (actorType : ActorType) (actorId : String) : Option (State × Answer) :=
  ((state.db.advanceVerified call.instanceId type outcome call.idempotencyKey output actorType
    (some actorId) none circumstances.now).toOption).map fun answer =>
      (state.withDb answer.1, .step answer.2)

/-- `advance` with the outcome `SUCCESS`, for the customer. -/
def State.succeed (type : NodeType) (output : Document) : Option (State × Answer) :=
  state.advance call circumstances type "SUCCESS" output .customer "customer"

/-- `advanceStep`. -/
def advanceStep (nodeKey outcome : String) (output : Option Document) :
    Option (State × Answer) :=
  let request := call.stepRequest nodeKey outcome output circumstances.now
  if state.db.admitsStep request then
    ((state.db.advance request).toOption).map fun answer =>
      (state.withDb answer.1, .step answer.2)
  else none

/-- `verifyOtp`; a wrong code is refused after its attempt is counted. -/
def verifyOtp (code : String) : Option (State × Answer) :=
  match state.context call circumstances .otpVerification with
  | none => none
  | some (row, node) =>
    match state.otp.latestChallenge call.instanceId with
    | none => none
    | some challenge =>
      match challenge.status with
      | .verified => state.succeed call circumstances .otpVerification (Otp.otpOutput challenge)
      | .pending =>
        if challenge.expiresAt ≤ circumstances.now then none
        else if otpHash call.instanceId code ≠ challenge.secretHash then
          some ({ state with
            otp := { state.otp with
              challenges := state.otp.challenges.modify challenge.id Otp.Challenge.fail
                Otp.Challenge.fail_id } }, .refused)
        else
          State.succeed { state with otp := state.otp.submit row node challenge } call
            circumstances .otpVerification (Otp.otpOutput challenge)
      | _ => none

/-- `createPin`. -/
def createPin (pin confirmPin : String) : Option (State × Answer) :=
  if pin ≠ confirmPin ∨ isEasyPin pin then none
  else
    match state.context call circumstances .pinSetup with
    | none => none
    | some (row, node) =>
      match Node.maximumAttempts node with
      | none => none
      | some attempts =>
        let credential : Credential :=
          { customerId := row.customerId, pinHash := circumstances.pinHash,
            maximumAttempts := attempts }
        State.succeed
          { state with
            credentials := state.credentials.upsert credential
              (fun old =>
                { old with
                  pinHash := circumstances.pinHash
                  failedAttempts := 0
                  maximumAttempts := attempts
                  lockedUntil := none })
              fun _ => rfl }
          call circumstances .pinSetup
          { text := "\x7bcredential:PIN,created:true\x7d" }

/-- `INSERT INTO onboarding.consent_acceptances`, on conflict with `accepted`. -/
def State.accept (acceptance : Acceptance) : Option (List Acceptance) :=
  if state.acceptances.any fun other =>
      other.instanceId = acceptance.instanceId ∧
        other.consentVersionId = acceptance.consentVersionId then
    some (state.acceptances.map fun other =>
      if other.instanceId = acceptance.instanceId ∧
          other.consentVersionId = acceptance.consentVersionId then
        { other with accepted := true }
      else other)
  else if state.acceptances.any fun other =>
      other.instanceId = acceptance.instanceId ∧
        other.idempotencyKey = acceptance.idempotencyKey then none
  else some (state.acceptances ++ [acceptance])

/-- `acceptConsent`. -/
def acceptConsent (consentVersionId : String) (accepted : Bool) : Option (State × Answer) :=
  if !accepted then none
  else
    match state.context call circumstances .consent with
    | none => none
    | some (row, node) =>
      match (circumstances.catalogue.configuration (circumstances.context node) "consentVersionId"
          (some consentVersionId) .consent circumstances.now).toOption,
        state.accept
          { instanceId := call.instanceId
            customerId := row.customerId
            consentVersionId := consentVersionId
            contentHash := circumstances.contentHash
            accepted := true
            idempotencyKey := call.idempotencyKey } with
      | some version, some acceptances =>
        State.succeed { state with acceptances := acceptances } call circumstances .consent
          { text := "\x7bconsentVersionId:" ++ version.id ++ ",contentHash:" ++
              circumstances.contentHash ++ "\x7d" }
      | _, _ => none

/-- `INSERT INTO onboarding.profile_form_submissions`, on conflict with the new response. -/
def State.submitForm (submission : FormSubmission) : Option (List FormSubmission) :=
  if state.submissions.any fun other =>
      other.instanceId = submission.instanceId ∧
        other.formVersionId = submission.formVersionId then
    some (state.submissions.map fun other =>
      if other.instanceId = submission.instanceId ∧
          other.formVersionId = submission.formVersionId then
        { other with response := submission.response, submittedAt := submission.submittedAt }
      else other)
  else if state.submissions.any fun other =>
      other.instanceId = submission.instanceId ∧
        other.idempotencyKey = submission.idempotencyKey then none
  else some (state.submissions ++ [submission])

/-- `submitProfile`. -/
def submitProfile (formVersionId response : String) : Option (State × Answer) :=
  match state.context call circumstances .form with
  | none => none
  | some (row, node) =>
    match (circumstances.catalogue.configuration (circumstances.context node) "formVersionId"
        (some formVersionId) .customerForm circumstances.now).toOption,
      state.submitForm
        { instanceId := call.instanceId
          customerId := row.customerId
          formVersionId := formVersionId
          response := response
          idempotencyKey := call.idempotencyKey
          submittedAt := circumstances.now } with
    | some version, some submissions =>
      if circumstances.formIsValid then
        State.succeed { state with submissions := submissions } call circumstances .form
          { text := "\x7bformVersionId:" ++ version.id ++ "\x7d" }
      else none
    | _, _ => none

/-- The wallet request of the call. -/
def State.request? : Option Allocation.AllocationRequest :=
  state.requests.find? fun request =>
    request.instanceId = call.instanceId ∧ request.idempotencyKey = call.idempotencyKey

/-- The wallet requests with that of the call, as its end leaves it. -/
def State.storeRequest (binding : WalletProductBinding) (status : Allocation.RequestStatus)
    (walletReference : Option String) : List Allocation.AllocationRequest :=
  if (state.request? call).isSome then
    state.requests.map fun request =>
      if request.instanceId = call.instanceId ∧ request.idempotencyKey = call.idempotencyKey then
        { request with
          status := status
          walletReference := walletReference.or request.walletReference }
      else request
  else
    state.requests ++
      [{ instanceId := call.instanceId
         idempotencyKey := call.idempotencyKey
         walletType := binding.walletType
         currency := binding.currency
         status := status
         walletReference := walletReference }]

def walletOutput (walletReference bindingId : String) : Document :=
  { text := "\x7bwalletReference:" ++ walletReference ++ ",walletProductBindingId:" ++ bindingId ++
      "\x7d" }

/-- `allocateWallet`, its transactions taken as one; where the customer is not created or the
journey does not advance, the request has failed. -/
def allocateWallet : Option (State × Answer) :=
  match state.context call circumstances .walletAllocation with
  | none => none
  | some (_, node) =>
    match (circumstances.catalogue.walletBinding (circumstances.context node)).toOption with
    | none => none
    | some binding =>
      match (state.request? call).filter fun request => request.status = .succeeded with
      | some request => some (state, .wallet request.walletReference true)
      | none =>
        if !state.submissions.any fun submission => submission.instanceId = call.instanceId then
          none
        else
          let failed : State :=
            { state with requests := state.storeRequest call binding .failed none }
          match circumstances.walletReference with
          | none => some (failed, .refused)
          | some walletReference =>
            match state.succeed call circumstances .walletAllocation
                (walletOutput walletReference binding.id) with
            | none => some (failed, .refused)
            | some (after, _) =>
              some ({ after with
                requests := state.storeRequest call binding .succeeded
                  (some walletReference) }, .wallet (some walletReference) false)

def nodeType? (text : String) : Option NodeType :=
  [.start, .finish, .phoneCapture, .otpVerification, .pinSetup, .consent, .form, .kyc,
    .walletAllocation, .creditScore, .creditPolicy, .limitAllocation, .decision, .channelHandoff,
    .manualReview].find? fun type => NodeType.text type = text

/-- `callback`, with the right credential. -/
def callback (nodeType outcome reference : String) (output : Document) :
    Option (State × Answer) :=
  match nodeType? nodeType with
  | none => none
  | some type =>
    state.advance call circumstances type outcome
      { isObject := output.isObject, text := output.text ++ ",reference:" ++ reference }
      .externalService reference

/-- A step operation. -/
def perform : Option (State × Answer) :=
  match call.input with
  | .advanceStep nodeKey outcome output =>
    advanceStep state call circumstances nodeKey outcome output
  | .verifyOtp code => verifyOtp otpHash state call circumstances code
  | .createPin pin confirmPin => createPin state call circumstances pin confirmPin
  | .acceptConsent consentVersionId accepted =>
    acceptConsent state call circumstances consentVersionId accepted
  | .submitProfile formVersionId response =>
    submitProfile state call circumstances formVersionId response
  | .allocateWallet => allocateWallet state call circumstances
  | .callback nodeType outcome reference output =>
    callback state call circumstances nodeType outcome reference output

end

/-! ## Handoffs -/

/-- The parameters of `createHandoff`, and the active version of the target channel, if the
instance has a channel and the target is active in the country of the customer. -/
structure NewHandoff where
  instanceId : ℕ
  resumeTokenHash : String
  idempotencyKey : String
  targetVersion : Option ℕ
  expiresInSeconds : ℕ := 300
  now : ℤ
  deriving DecidableEq

/-- The channel that resolves for a client: its active version and `resumeTimeoutSeconds`. -/
structure TrustedChannel where
  versionId : ℕ
  resumeTimeoutSeconds : ℕ
  deriving DecidableEq

/-- The instance after a handoff. -/
def Instance.handOver (target : Node) (resumeTokenHash : String) (expiresAt now : ℤ)
    (row : Instance) : Instance :=
  { row.moveTo target now with resumeTokenHash := resumeTokenHash, expiresAt := expiresAt }

def Handoff.stepKey (handoff : Handoff) : String := "handoff:" ++ toString handoff.id

/-- `INSERT INTO onboarding.step_executions` with the attempt number 1, on conflict of the key
nothing; the number of the attempt may be taken as well. -/
def Handoff.executions (handoff : Handoff) (db : Database) (now : ℤ) : Option (List Execution) :=
  if (db.execution? handoff.instanceId handoff.stepKey).isSome then some db.executions
  else if db.executions.any fun execution =>
      execution.instanceId = handoff.instanceId ∧ execution.node = handoff.sourceNode ∧
        execution.attemptNumber = 1 then none
  else
    some (db.executions ++
      [{ instanceId := handoff.instanceId
         node := handoff.sourceNode
         attemptNumber := 1
         idempotencyKey := handoff.stepKey
         inputHash := "handoff token " ++ toString handoff.id
         output := { text := "\x7btargetChannel\x7d" }
         completedAt := now }])

section

variable (state : State)

/-- `createHandoff`. -/
def createHandoff (request : NewHandoff) : Option State :=
  match state.db.openInstance request.instanceId request.resumeTokenHash with
  | none => none
  | some row =>
    match state.db.currentNode row with
    | none => none
    | some node =>
      if node.type ≠ .channelHandoff ∨
          !(node.configuration.lookup "targetChannel").any Value.truthy then none
      else if state.handoffs.rows.any fun handoff =>
          handoff.instanceId = row.id ∧ handoff.idempotencyKey = request.idempotencyKey then
        some state
      else
        match request.targetVersion with
        | none => none
        | some targetVersion =>
          some { state with
            handoffs := state.handoffs.append
              (fun id =>
                { id := id
                  instanceId := row.id
                  targetVersion := targetVersion
                  sourceNode := node.key
                  idempotencyKey := request.idempotencyKey
                  expiresAt := request.now + request.expiresInSeconds })
              fun _ => rfl
            handoffEvents := state.handoffEvents ++
              [.created row.id state.handoffs.next node.key] }

/-- `UQ_ONBOARDING_ACTIVE_CUSTOMER_INSTANCE` has another row of the customer for an instance that
gets a status. -/
def Database.isOpenElsewhere (db : Database) (row : Instance) (status : InstanceStatus) : Bool :=
  status.isOpen && db.instances.rows.any fun other =>
    other.id ≠ row.id ∧ other.customerId = row.customerId ∧ other.status.isOpen

/-- `consumeHandoff` of a handoff whose token is shown, with a new resume token.  What marks a
handoff as expired is undone when the call raises. -/
def consumeHandoff (handoffId : ℕ) (trusted : TrustedChannel) (resumeTokenHash : String)
    (now : ℤ) : Option State :=
  match state.handoffs.find? handoffId with
  | none => none
  | some handoff =>
    if handoff.status ≠ .pending ∨ handoff.expiresAt ≤ now ∨
        handoff.targetVersion ≠ trusted.versionId then none
    else
      match state.db.instances.find? handoff.instanceId with
      | none => none
      | some row =>
        match state.db.nextNode row handoff.sourceNode "SUCCESS",
          handoff.executions state.db now with
        | some target, some executions =>
          if Database.isOpenElsewhere state.db row target.nextStatus then none
          else
            some { state with
              otp := { state.otp with
                db := { state.db with
                  instances := state.db.instances.modify row.id
                    (Instance.handOver target resumeTokenHash
                      (now + trusted.resumeTimeoutSeconds) now) fun _ => rfl
                  executions := executions } }
              handoffs := state.handoffs.modify handoff.id
                (fun handoff => { handoff with status := .consumed }) fun _ => rfl
              handoffEvents := state.handoffEvents ++
                [.consumed row.id handoff.id handoff.sourceNode target.key] }
        | _, _ => none

end

/-! ## Starting and resuming -/

/-- The parameters of `start_or_resume_journey`, with the version that is selected for the scope,
whether the version of an open instance supports the channel, and the identifiers of new rows. -/
structure StartRequest where
  customerId : ℕ
  versionId : Option ℕ
  channelSupported : Bool := true
  resumeTokenHash : String
  expiresAt : ℤ
  instanceId : ℕ
  now : ℤ
  deriving DecidableEq

section

variable (db : Database) (request : StartRequest)

def Database.openOf (customerId : ℕ) : Option Instance :=
  db.instances.rows.find? fun row => row.customerId = customerId ∧ row.status.isOpen

/-- A new instance at the entry of the selected version. -/
def Database.begin : Option Database :=
  (request.versionId.bind db.graph).bind fun graph =>
    graph.entries.head?.bind fun entry =>
      (db.instances.insert?
          { id := request.instanceId
            customerId := request.customerId
            versionId := request.versionId.getD 0
            currentNode := some entry.key
            resumeTokenHash := request.resumeTokenHash
            expiresAt := request.expiresAt }).map fun instances =>
        { db with
          instances := instances
          customers := db.customers.upsert { id := request.customerId, status := .onboarding } id
            fun _ => rfl }

/-- The status of an instance whose time is over. -/
def Instance.expire (row : Instance) : Instance := { row with status := .expired }

def Instance.resume (resumeTokenHash : String) (row : Instance) : Instance :=
  { row with resumeTokenHash := resumeTokenHash }

/-- `start_or_resume_journey`. -/
def Database.startOrResume : Option Database :=
  if request.expiresAt ≤ request.now then none
  else
    match Database.openOf db request.customerId with
    | none => Database.begin db request
    | some row =>
      if row.expiresAt ≤ request.now then
        Database.begin
          { db with instances := db.instances.modify row.id Instance.expire fun _ => rfl } request
      else if request.channelSupported then
        some { db with
          instances := db.instances.modify row.id (Instance.resume request.resumeTokenHash)
            fun _ => rfl }
      else none

end

/-! ## Runs -/

/-- The calls. `advance` is the second part of an `advanceStep` that has looked at the node
before, and `review` the decision on a KYC case. -/
inductive Event
  | call (circumstances : Circumstances) (call : Call)
  | advance (request : StepRequest)
  | createOtpChallenge (instanceId : ℕ) (resumeTokenHash idempotencyKey : String)
      (policy : Option Otp.Policy) (code : String) (now : ℤ)
  | review (instanceId : ℕ) (outcome idempotencyKey : String) (output : Document)
      (actorId : String) (now : ℤ)
  | createHandoff (request : NewHandoff)
  | consumeHandoff (handoffId : ℕ) (trusted : TrustedChannel) (resumeTokenHash : String) (now : ℤ)
  | startOrResume (request : StartRequest)

def step (otpHash : ℕ → String → String) (state : State) : Event → Option State
  | .call circumstances call => (perform otpHash state call circumstances).map Prod.fst
  | .advance request => (Onboarding.step state.db request).map state.withDb
  | .createOtpChallenge instanceId resumeTokenHash idempotencyKey policy code now =>
    (Otp.createOtpChallenge otpHash state.otp instanceId resumeTokenHash idempotencyKey policy
      code now).map fun otp => { state with otp := otp }
  | .review instanceId outcome idempotencyKey output actorId now =>
    ((state.db.advanceVerified instanceId .kyc outcome idempotencyKey output .admin
      (some actorId) none now).toOption).map fun answer => state.withDb answer.1
  | .createHandoff request => createHandoff state request
  | .consumeHandoff handoffId trusted resumeTokenHash now =>
    consumeHandoff state handoffId trusted resumeTokenHash now
  | .startOrResume request => (Database.startOrResume state.db request).map state.withDb

end Finify.Onboarding.Services
