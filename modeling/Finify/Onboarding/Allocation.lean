/-
# The allocation of a wallet

`allocateWallet` of the runtime service: it prepares a request, has `WalletService` create the
customer and its wallet, and then advances the journey, in three transactions between which it
can crash.  `createCustomer` is one transaction under the advisory lock of its customer and
taken as one step; the other wallet calls take theirs in between.
-/

import Finify.Onboarding.Runtime
import Finify.Wallets.DefaultWallet

namespace Finify.Onboarding.Allocation

open Finify.Foundations Finify.Wallets

/-! ## Rows and calls -/

/-- What is read of `wallet_product_bindings`. -/
structure Binding where
  id : ℕ
  walletType : ℤ
  currency : String
  deriving DecidableEq

/-- `status` of a request. -/
inductive RequestStatus
  | pending
  | succeeded
  | failed
  deriving DecidableEq, Repr

/-- `wallet_allocation_requests`. -/
structure AllocationRequest where
  instanceId : ℕ
  idempotencyKey : String
  walletType : ℤ
  currency : String
  status : RequestStatus := .pending
  walletReference : Option String := none
  deriving DecidableEq

/-- How far a call has come: its request is stored, or `createCustomer` has returned. -/
inductive Stage
  | prepared
  | created (walletReference : String)
  deriving DecidableEq

/-- A call of `allocateWallet` under way; `owner` is the phone number of the customer. -/
structure Call where
  instanceId : ℕ
  resumeTokenHash : String
  idempotencyKey : String
  owner : ℤ
  binding : Binding
  stage : Stage := .prepared
  deriving DecidableEq

/-- The tables and the calls under way. -/
structure State where
  db : Database
  wallets : Directory
  requests : List AllocationRequest := []
  calls : List Call := []
  checked : List StepRequest := []

/-- The parameters of `allocateWallet`, the binding that the node's configuration selects, and
whether a profile was submitted. -/
structure AllocateRequest where
  instanceId : ℕ
  resumeTokenHash : String
  idempotencyKey : String
  binding : Option Binding
  profileSubmitted : Bool
  now : ℤ := 0

/-! ## The service -/

def AllocateRequest.call (request : AllocateRequest) (owner : ℤ) (binding : Binding) : Call :=
  { instanceId := request.instanceId
    resumeTokenHash := request.resumeTokenHash
    idempotencyKey := request.idempotencyKey
    owner := owner
    binding := binding }

/-- What `createCustomer` is asked for. -/
def Call.customer (call : Call) : NewCustomer :=
  { msisdn := call.owner
    walletCode := if call.binding.walletType = 0 then 103 else call.binding.walletType
    currency := call.binding.currency }

def allocationOutput (walletReference : String) (bindingId : ℕ) : Document :=
  { text := "\x7bwalletReference:" ++ walletReference ++ ",walletProductBindingId:" ++
      toString bindingId ++ "\x7d" }

/-- `createCustomer` as a whole, with the identifier of the wallet, or no text if there is
none. -/
def openWallet (wallets : Directory) (customer : NewCustomer) (findings : Findings) :
    Option (Directory × String) :=
  (wallets.createCustomer customer findings).bind fun begun =>
    match begun.pending customer.msisdn with
    | some (.opening wallet _) =>
      (begun.finish customer.msisdn).map fun opened => (opened, toString wallet.walletMsisdn)
    | _ => some (begun, "")

section

variable (msisdn : ℕ → ℤ) (state : State)

def State.request? (instanceId : ℕ) (idempotencyKey : String) : Option AllocationRequest :=
  state.requests.find? fun request =>
    request.instanceId = instanceId ∧ request.idempotencyKey = idempotencyKey

/-- `UPDATE onboarding.wallet_allocation_requests`. -/
def State.updateRequest (call : Call) (change : AllocationRequest → AllocationRequest) :
    List AllocationRequest :=
  state.requests.map fun request =>
    if request.instanceId = call.instanceId ∧ request.idempotencyKey = call.idempotencyKey then
      change request
    else request

/-- The `catch` of a call. -/
def State.fail (call : Call) : State :=
  { state with
    requests := state.updateRequest call fun request => { request with status := .failed }
    calls := state.calls.erase call }

/-- `allocateWallet` up to the end of its first transaction. -/
def allocateWallet (request : AllocateRequest) : Option State :=
  match (state.db.context request.instanceId request.resumeTokenHash .walletAllocation
      request.now).toOption, request.binding with
  | some (row, _), some binding =>
    let found := state.request? request.instanceId request.idempotencyKey
    if found.any fun found => found.status = .succeeded then some state
    else if !request.profileSubmitted then none
    else
      some { state with
        requests := if found.isSome then state.requests else state.requests ++
          [{ instanceId := request.instanceId
             idempotencyKey := request.idempotencyKey
             walletType := binding.walletType
             currency := binding.currency }]
        wallets := state.wallets.addProfile (msisdn row.customerId)
        calls := state.calls ++ [request.call (msisdn row.customerId) binding] }
  | _, _ => none

/-- The call of `createCustomer`, which waits for the lock of the customer. -/
def createCustomer (call : Call) (findings : Findings) : Option State :=
  if call ∈ state.calls ∧ call.stage = .prepared ∧ state.wallets.Free call.owner then
    match openWallet state.wallets call.customer findings with
    | none => some (state.fail call)
    | some (wallets, walletReference) =>
      some { state with
        wallets := wallets
        calls := state.calls.erase call ++ [{ call with stage := .created walletReference }] }
  else none

/-- The advance of the last transaction. -/
def State.advanced (call : Call) (walletReference : String) (now : ℤ) :
    Option (Database × StepResult) :=
  (state.db.context call.instanceId call.resumeTokenHash .walletAllocation now).toOption.bind
    fun _ => (state.db.advanceVerified call.instanceId .walletAllocation "SUCCESS"
      call.idempotencyKey (allocationOutput walletReference call.binding.id) .customer
      (some "customer") none now).toOption

/-- The last transaction. -/
def finishAllocation (call : Call) (now : ℤ) : Option State :=
  match call.stage with
  | .prepared => none
  | .created walletReference =>
    if call ∈ state.calls then
      match state.advanced call walletReference now with
      | none => some (state.fail call)
      | some answer =>
        some { state with
          db := answer.1
          requests := state.updateRequest call fun request =>
            { request with status := .succeeded, walletReference := some walletReference }
          calls := state.calls.erase call }
    else none

/-- The process of a call ends. -/
def crash (call : Call) : Option State :=
  if call ∈ state.calls then some { state with calls := state.calls.erase call } else none

end

/-! ## Runs -/

/-- The steps of the calls, those of the other wallet calls, and the other ways to advance. -/
inductive Event
  | allocate (request : AllocateRequest)
  | create (call : Call) (findings : Findings)
  | finish (call : Call) (now : ℤ)
  | crash (call : Call)
  | wallet (event : WalletEvent)
  | check (request : StepRequest)
  | advance (request : StepRequest)
  | service (instanceId : ℕ) (expected : NodeType) (outcome idempotencyKey : String)
      (output : Document) (actorType : ActorType) (actorId : Option String) (now : ℤ)

def stepAllocation (msisdn : ℕ → ℤ) (state : State) : Event → Option State
  | .allocate request => allocateWallet msisdn state request
  | .create call findings => createCustomer state call findings
  | .finish call now => finishAllocation state call now
  | .crash call => crash state call
  | .wallet event =>
    (state.wallets.step event).map fun wallets => { state with wallets := wallets }
  | .check request =>
    if state.db.admitsStep request then some { state with checked := request :: state.checked }
    else none
  | .advance request =>
    if request ∈ state.checked then
      (step state.db request).map fun db =>
        { state with db := db, checked := state.checked.erase request }
    else none
  | .service instanceId expected outcome idempotencyKey output actorType actorId now =>
    ((state.db.advanceVerified instanceId expected outcome idempotencyKey output actorType
      actorId none now).toOption).map fun answer => { state with db := answer.1 }

/-- Instances that were just started beside any wallets, with no call under way. -/
structure Opening (state : State) : Prop where
  fresh : Fresh state.db
  events : state.db.events = []
  served : Served state.wallets.wallets.rows
  idle : state.wallets.Idle
  calls : state.calls = []

/-- Every instance that has left a WALLET_ALLOCATION node by its success transition has a
customer with an open wallet. -/
def Delivered (msisdn : ℕ → ℤ) (state : State) : Prop :=
  ∀ event ∈ state.db.events, ∀ nodeKey attempt,
    LeftBySuccess .walletAllocation state.db event nodeKey attempt →
      ∃ row ∈ state.db.instances.rows, row.id = event.instanceId ∧
        state.wallets.HasOpen (msisdn row.customerId)

/-- `createCustomer` opens no wallet because the approval of KYC is pending. -/
def KycPending (findings : Findings) : Prop :=
  findings.kycNeeded = some true ∧ findings.kycApproved = false

instance (findings : Findings) : Decidable (KycPending findings) :=
  inferInstanceAs (Decidable (_ ∧ _))

/-- KYC is not pending when the wallet is to be created, no instance comes to a
WALLET_ALLOCATION node between the look and the call of `advanceStep`, and no provider reports
the success of one. -/
def Guarded (state : State) : Event → Prop
  | .create _ findings => ¬ KycPending findings
  | .advance request =>
    ∀ row ∈ state.db.openInstance request.instanceId request.resumeTokenHash,
      ∀ node ∈ state.db.currentNode row, node.type ≠ .walletAllocation
  | .service _ expected outcome _ _ _ _ _ =>
    ¬ (expected = .walletAllocation ∧ outcome.toUpper.toUpper = "SUCCESS")
  | _ => True

instance (state : State) : (event : Event) → Decidable (Guarded state event)
  | .create _ findings => inferInstanceAs (Decidable (¬ KycPending findings))
  | .advance _ => inferInstanceAs (Decidable (∀ row ∈ (_ : Option Instance), _))
  | .service _ expected outcome _ _ _ _ _ =>
    inferInstanceAs (Decidable (¬ (expected = .walletAllocation ∧
      outcome.toUpper.toUpper = "SUCCESS")))
  | .allocate _ => .isTrue trivial
  | .finish _ _ => .isTrue trivial
  | .crash _ => .isTrue trivial
  | .wallet _ => .isTrue trivial
  | .check _ => .isTrue trivial

/-! ## Wallets stay -/

def HasWallet (wallets : Directory) (owner : ℤ) : Prop :=
  ∃ wallet ∈ wallets.wallets.rows, wallet.OwnedBy owner

section

variable {before after : Directory} {owner : ℤ}

theorem HasWallet.hasOpen (hwallet : HasWallet before owner) (hsound : before.Sound) :
    before.HasOpen owner := by
  obtain ⟨own, hown, howned⟩ := hwallet
  obtain ⟨wallet, hmem, hwalletOwned, hdefault⟩ := hsound.rows.served owner own hown howned
  exact ⟨wallet, hmem, hwalletOwned, hsound.rows.opened wallet hmem hwalletOwned.1 hdefault⟩

/-- No call takes a wallet from its customer. -/
theorem HasWallet.effect (hwallet : HasWallet before owner) (heffect : before.Effect after) :
    HasWallet after owner := by
  obtain ⟨wallet, hmem, howned⟩ := hwallet
  cases heffect with
  | opened _ _ hinsert _ =>
    exact ⟨wallet, hinsert ▸ List.mem_append_left _ hmem, howned⟩
  | added _ hinsert _ =>
    exact ⟨wallet, hinsert ▸ List.mem_append_left _ hmem, howned⟩
  | chosen _ _ =>
    exact ⟨_, Directory.mem_rechoose.mpr ⟨wallet, hmem, rfl⟩,
      (Directory.rechosen_ownedBy owner).mpr howned⟩
  | written _ =>
    obtain ⟨moved, hmoved, _, hcustomer, hmsisdn, _⟩ := Directory.exists_restate before hmem
    exact ⟨moved, hmoved, hcustomer.trans howned.1, hmsisdn.trans howned.2⟩
  | same | requested | opening | adding | locked | cleared | dropped | changing | droppedChange =>
    exact ⟨wallet, hmem, howned⟩

/-- What `createCustomer` has checked when it goes on, and what it does then. -/
theorem createCustomer_cases {customer : NewCustomer} {findings : Findings}
    (hstep : before.createCustomer customer findings = some after) :
    ¬ (customer.msisdn ∈ before.profiles ∧ before.HasOpen customer.msisdn) ∧
      before.wallets.find? customer.msisdn = none ∧
      ((KycPending findings ∧ after.pending customer.msisdn = none ∧
          after.wallets = before.wallets) ∨
        ¬ KycPending findings ∧ ∃ opening, after = before.setPending customer.msisdn
          (some (.opening (Directory.defaultWallet customer.msisdn customer.walletCode
            customer.currency customer.iban customer.swiftBic) opening))) := by
  dsimp only [Directory.createCustomer] at hstep
  obtain ⟨hfree, hstep⟩ := Option.ite_none_right_eq_some.mp hstep
  obtain ⟨hprofile, hstep⟩ := Option.ite_none_left_eq_some.mp hstep
  obtain ⟨_, hstep⟩ := Option.ite_none_left_eq_some.mp hstep
  obtain ⟨kycNeeded, hkyc, hstep⟩ := Option.bind_eq_some_iff.mp hstep
  obtain ⟨hnumber, hstep⟩ := Option.ite_none_left_eq_some.mp hstep
  refine ⟨fun h => hprofile ⟨h.1, .inl h.2⟩, Option.not_isSome_iff_eq_none.mp hnumber, ?_⟩
  split at hstep
  case isTrue hpending =>
    rw [Bool.and_eq_true, Bool.not_eq_true'] at hpending
    obtain ⟨_, hstep⟩ := Option.ite_none_left_eq_some.mp hstep
    cases hstep
    exact .inl ⟨⟨hkyc.trans (congrArg some hpending.1), hpending.2⟩,
      Option.isNone_iff_eq_none.mp hfree, rfl⟩
  case isFalse hready =>
    cases hstep
    refine .inr ⟨fun hpending => hready ?_, _, rfl⟩
    rw [Option.some.inj (hkyc.symm.trans hpending.1), hpending.2]
    rfl

/-- The insert of a first wallet. -/
theorem finish_opening {wallet : Wallet} {opening : Wallets.Opening} {inserted : Directory}
    (hpending : before.pending owner = some (.opening wallet opening))
    (hfinish : before.finish owner = some inserted) :
    inserted.wallets.rows = before.wallets.rows ++ [wallet] := by
  obtain ⟨call, hcall, hrest⟩ := Option.bind_eq_some_iff.mp hfinish
  rw [hpending] at hcall
  cases hcall
  obtain ⟨middle, hinsert, hlast⟩ := Option.bind_eq_some_iff.mp hrest
  cases hlast
  exact (Directory.insertWallet_eq_some hinsert).2.1

/-- A call of `createCustomer` that ends well has opened the first wallet of its customer, if
KYC is not pending. -/
theorem openWallet_cases {customer : NewCustomer} {findings : Findings} {walletReference : String}
    (hopen : openWallet before customer findings = some (after, walletReference)) :
    ¬ (customer.msisdn ∈ before.profiles ∧ before.HasOpen customer.msisdn) ∧
      before.wallets.find? customer.msisdn = none ∧
      (∃ begun, before.Effect begun ∧ begun.Effect after) ∧
      (KycPending findings ∨ after.wallets.rows = before.wallets.rows ++
        [Directory.defaultWallet customer.msisdn customer.walletCode customer.currency
          customer.iban customer.swiftBic]) := by
  obtain ⟨begun, hbegun, hrest⟩ := Option.bind_eq_some_iff.mp hopen
  have heffect := Directory.createCustomer_effect hbegun
  obtain ⟨hopened, hnumber, hcases⟩ := createCustomer_cases hbegun
  refine ⟨hopened, hnumber, ?_⟩
  rcases hcases with ⟨hkyc, hnone, _⟩ | ⟨_, opening, rfl⟩
  · rw [hnone] at hrest
    cases hrest
    exact ⟨⟨_, heffect, .same⟩, .inl hkyc⟩
  · have hpending : (before.setPending customer.msisdn (some (.opening
        (Directory.defaultWallet customer.msisdn customer.walletCode customer.currency
          customer.iban customer.swiftBic) opening))).pending customer.msisdn = some (.opening _ _) :=
      (Directory.setPending_pending _ _ _ _).trans (if_pos rfl)
    rw [hpending] at hrest
    obtain ⟨opened, hfinish, hsame⟩ := Option.map_eq_some_iff.mp hrest
    cases hsame
    have hrows := finish_opening hpending hfinish
    exact ⟨⟨_, heffect, Directory.finish_effect hfinish⟩, .inr hrows⟩

end

/-! ## The invariant -/

/-- Who has left a WALLET_ALLOCATION node has a wallet, and so has the owner of a call to which
`createCustomer` has returned. -/
structure Delivering (msisdn : ℕ → ℤ) (state : State) : Prop where
  sound : state.wallets.Sound
  delivered : ∀ event ∈ state.db.events, ∀ nodeKey attempt,
    LeftBySuccess .walletAllocation state.db event nodeKey attempt →
      ∃ row ∈ state.db.instances.rows, row.id = event.instanceId ∧
        HasWallet state.wallets (msisdn row.customerId)
  owners : ∀ call ∈ state.calls, ∃ row ∈ state.db.instances.rows, row.id = call.instanceId ∧
    msisdn row.customerId = call.owner
  created : ∀ call ∈ state.calls, ∀ walletReference, call.stage = .created walletReference →
    HasWallet state.wallets call.owner

section

variable {msisdn : ℕ → ℤ} {state after : State}

/-- Steps of the journey that leave the calls alone keep the invariant, if they leave a
WALLET_ALLOCATION node by its success transition only for a customer with a wallet. -/
theorem Delivering.advance (hdelivering : Delivering msisdn state) {db : Database}
    (hfollows : Follows state.db db)
    (hevents : ∀ event ∈ db.events, ∀ nodeKey attempt,
      LeftBySuccess .walletAllocation db event nodeKey attempt →
        (∃ old ∈ state.db.events, event.instanceId = old.instanceId ∧
          event.payload = old.payload) ∨
        ∃ row ∈ state.db.instances.rows, row.id = event.instanceId ∧
          HasWallet state.wallets (msisdn row.customerId)) :
    Delivering msisdn { state with db := db } := by
  constructor
  · exact hdelivering.sound
  · intro event hevent nodeKey attempt hleft
    have hbefore : ∃ row ∈ state.db.instances.rows, row.id = event.instanceId ∧
        HasWallet state.wallets (msisdn row.customerId) := by
      rcases hevents event hevent nodeKey attempt hleft with ⟨old, hold, hsame, hpayload⟩ | hnew
      · rw [hsame]
        exact hdelivering.delivered old hold nodeKey attempt (hleft.before hfollows hsame hpayload)
      · exact hnew
    obtain ⟨row, hrow, hid, hwallet⟩ := hbefore
    obtain ⟨moved, hmoved, hsameId, hcustomer⟩ := hfollows.kept row hrow
    exact ⟨moved, hmoved, hsameId.trans hid, hcustomer ▸ hwallet⟩
  · intro call hcall
    obtain ⟨row, hrow, hid, howner⟩ := hdelivering.owners call hcall
    obtain ⟨moved, hmoved, hsameId, hcustomer⟩ := hfollows.kept row hrow
    exact ⟨moved, hmoved, hsameId.trans hid, hcustomer ▸ howner⟩
  · exact hdelivering.created

theorem Delivering.advanceVerified (hdelivering : Delivering msisdn state) {instanceId : ℕ}
    {expected : NodeType} {outcome idempotencyKey : String} {output : Document}
    {actorType : ActorType} {actorId : Option String} {now : ℤ} {answer : Database × StepResult}
    (hadvance : (state.db.advanceVerified instanceId expected outcome idempotencyKey output
      actorType actorId none now).toOption = some answer)
    (hwallet : expected = .walletAllocation → outcome.toUpper.toUpper = "SUCCESS" →
      ∃ row ∈ state.db.instances.rows, row.id = instanceId ∧
        HasWallet state.wallets (msisdn row.customerId)) :
    Delivering msisdn { state with db := answer.1 } := by
  obtain ⟨next, result⟩ := answer
  have hok := ok_of_toOption hadvance
  have hfollows := follows_of_advanceVerified hok
  apply hdelivering.advance hfollows
  intro event hevent nodeKey attempt hleft
  obtain ⟨target, hpayload⟩ := hleft.1
  rcases mem_events_advanceVerified hok hevent hpayload with
    hold | ⟨row, source, hrow, hsource, htype, _, hinstance, hkey, hsaid, _⟩
  · exact .inl hold
  · obtain ⟨hmem, hid⟩ := Table.find?_eq_some.mp hrow
    have hnode := (hleft.before hfollows rfl rfl).type_of_current hmem (hinstance.trans hid.symm)
      hsource hkey
    rw [hinstance]
    exact .inr (hwallet (htype.symm.trans hnode) hsaid.symm)

/-- Fewer calls and other requests keep the invariant. -/
theorem Delivering.drop (hdelivering : Delivering msisdn state)
    (requests : List AllocationRequest) (checked : List StepRequest) {calls : List Call}
    (hcalls : ∀ call ∈ calls, call ∈ state.calls) :
    Delivering msisdn { state with requests := requests, calls := calls, checked := checked } := by
  constructor
  · exact hdelivering.sound
  · exact hdelivering.delivered
  · intro call hcall
    exact hdelivering.owners call (hcalls call hcall)
  · intro call hcall
    exact hdelivering.created call (hcalls call hcall)

/-- Calls of the wallet service keep the invariant. -/
theorem Delivering.withWallets (hdelivering : Delivering msisdn state) {wallets : Directory}
    (hsound : wallets.Sound)
    (hkept : ∀ owner, HasWallet state.wallets owner → HasWallet wallets owner) :
    Delivering msisdn { state with wallets := wallets } := by
  constructor
  · exact hsound
  · intro event hevent nodeKey attempt hleft
    obtain ⟨row, hrow, hid, hwallet⟩ :=
      hdelivering.delivered event hevent nodeKey attempt hleft
    exact ⟨row, hrow, hid, hkept _ hwallet⟩
  · exact hdelivering.owners
  · intro call hcall walletReference hstage
    exact hkept _ (hdelivering.created call hcall walletReference hstage)

/-- A call that begins, or goes on once its customer has a wallet, keeps the invariant. -/
theorem Delivering.addCall (hdelivering : Delivering msisdn state) (call : Call)
    (howner : ∃ row ∈ state.db.instances.rows, row.id = call.instanceId ∧
      msisdn row.customerId = call.owner)
    (hcreated : ∀ walletReference, call.stage = .created walletReference →
      HasWallet state.wallets call.owner) :
    Delivering msisdn { state with calls := state.calls ++ [call] } := by
  constructor
  · exact hdelivering.sound
  · exact hdelivering.delivered
  · intro other hother
    rcases List.mem_append.mp hother with hold | hnew
    · exact hdelivering.owners other hold
    · rw [List.mem_singleton.mp hnew]
      exact howner
  · intro other hother
    rcases List.mem_append.mp hother with hold | hnew
    · exact hdelivering.created other hold
    · rw [List.mem_singleton.mp hnew]
      exact hcreated

theorem sound_addProfile {wallets : Directory} (hsound : wallets.Sound) (owner : ℤ) :
    (wallets.addProfile owner).Sound :=
  ⟨hsound.rows, hsound.calls.opening, hsound.calls.adding, hsound.calls.target, hsound.calls.held,
    hsound.calls.changing⟩

theorem Delivering.allocate (hdelivering : Delivering msisdn state) {request : AllocateRequest}
    (hallocate : allocateWallet msisdn state request = some after) : Delivering msisdn after := by
  unfold allocateWallet at hallocate
  split at hallocate
  case h_1 row node binding hcontext _ =>
    have hopened := (context_eq_ok (ok_of_toOption hcontext)).1
    obtain ⟨hrow, hid⟩ := Table.find?_eq_some.mp (Option.filter_eq_some_iff.mp hopened).1
    dsimp only at hallocate
    split at hallocate
    · cases hallocate
      exact hdelivering
    · obtain ⟨_, hallocate⟩ := Option.ite_none_left_eq_some.mp hallocate
      cases hallocate
      have hprofile := hdelivering.withWallets
        (sound_addProfile hdelivering.sound (msisdn row.customerId)) (fun _ hwallet => hwallet)
      have hcall := hprofile.addCall (request.call (msisdn row.customerId) binding)
        ⟨row, hrow, hid, rfl⟩ (fun _ hstage => by cases hstage)
      exact hcall.drop _ _ fun _ hmem => hmem
  case h_2 => cases hallocate

theorem Delivering.create (hdelivering : Delivering msisdn state) {call : Call}
    {findings : Findings} (hkyc : ¬ KycPending findings)
    (hcreate : createCustomer state call findings = some after) : Delivering msisdn after := by
  rw [createCustomer, Option.ite_none_right_eq_some] at hcreate
  obtain ⟨⟨hmem, _, _⟩, hcreate⟩ := hcreate
  have hfewer : ∀ other ∈ state.calls.erase call, other ∈ state.calls :=
    fun _ hother => List.mem_of_mem_erase hother
  cases hopen : openWallet state.wallets call.customer findings with
  | none =>
    rw [hopen] at hcreate
    cases hcreate
    exact hdelivering.drop _ _ hfewer
  | some answer =>
    obtain ⟨wallets, walletReference⟩ := answer
    rw [hopen] at hcreate
    cases hcreate
    obtain ⟨_, _, ⟨begun, hbegin, hend⟩, hrows⟩ := openWallet_cases hopen
    have hsound := (hdelivering.sound.step hbegin).step hend
    have howned : HasWallet wallets call.owner := by
      rw [HasWallet, hrows.resolve_left hkyc]
      exact ⟨_, List.mem_append_right _ (List.mem_singleton_self _), rfl, rfl⟩
    have hopened := (hdelivering.drop state.requests state.checked hfewer).withWallets hsound
      (fun _ hwallet => (hwallet.effect hbegin).effect hend)
    exact hopened.addCall _ (hdelivering.owners call hmem) fun _ _ => howned

theorem Delivering.finish (hdelivering : Delivering msisdn state) {call : Call} {now : ℤ}
    (hfinish : finishAllocation state call now = some after) : Delivering msisdn after := by
  have hfewer : ∀ other ∈ state.calls.erase call, other ∈ state.calls :=
    fun _ hother => List.mem_of_mem_erase hother
  unfold finishAllocation at hfinish
  cases hstage : call.stage with
  | prepared =>
    rw [hstage] at hfinish
    cases hfinish
  | created walletReference =>
    rw [hstage] at hfinish
    dsimp only at hfinish
    rw [Option.ite_none_right_eq_some] at hfinish
    obtain ⟨hmem, hfinish⟩ := hfinish
    cases hadvanced : state.advanced call walletReference now with
    | none =>
      rw [hadvanced] at hfinish
      cases hfinish
      exact hdelivering.drop _ _ hfewer
    | some answer =>
      rw [hadvanced] at hfinish
      cases hfinish
      obtain ⟨_, _, hadvance⟩ := Option.bind_eq_some_iff.mp hadvanced
      obtain ⟨row, hrow, hid, howner⟩ := hdelivering.owners call hmem
      have hwallet := hdelivering.created call hmem walletReference hstage
      have hmoved := hdelivering.advanceVerified hadvance
        (fun _ _ => ⟨row, hrow, hid, howner ▸ hwallet⟩)
      exact hmoved.drop _ _ hfewer

/-- Every guarded step keeps the invariant. -/
theorem Delivering.step (hdelivering : Delivering msisdn state) {event : Event}
    (hguard : Guarded state event) (hstep : stepAllocation msisdn state event = some after) :
    Delivering msisdn after := by
  cases event with
  | allocate request => exact hdelivering.allocate hstep
  | create call findings => exact hdelivering.create hguard hstep
  | finish call now => exact hdelivering.finish hstep
  | crash call =>
    obtain ⟨_, hcrash⟩ := Option.ite_none_right_eq_some.mp hstep
    cases hcrash
    exact hdelivering.drop _ _ fun _ hother => List.mem_of_mem_erase hother
  | wallet event =>
    obtain ⟨wallets, hwallets, rfl⟩ := Option.map_eq_some_iff.mp hstep
    have heffect := Directory.step_effect hwallets
    exact hdelivering.withWallets (hdelivering.sound.step heffect)
      (fun _ hwallet => hwallet.effect heffect)
  | check request =>
    obtain ⟨_, hcheck⟩ := Option.ite_none_right_eq_some.mp hstep
    cases hcheck
    exact hdelivering.drop _ _ fun _ hmem => hmem
  | advance request =>
    obtain ⟨_, hadvance⟩ := Option.ite_none_right_eq_some.mp hstep
    obtain ⟨db, hdb, rfl⟩ := Option.map_eq_some_iff.mp hadvance
    obtain ⟨result, hok⟩ := step_eq_some.mp hdb
    have hfollows := follows_of_advance hok
    have hmoved := hdelivering.advance hfollows fun event hevent nodeKey attempt hleft => by
      obtain ⟨target, hpayload⟩ := hleft.1
      rcases mem_events_advance hok hevent hpayload with
        hold | ⟨row, source, _, hmoves, hinstance, hkey, _, _⟩
      · exact .inl ⟨event, hold, rfl, rfl⟩
      · have hnode := (hleft.before hfollows rfl rfl).type_of_current hmoves.mem.1 hinstance
          hmoves.atSource hkey
        exact absurd hnode (hguard row hmoves.opened source hmoves.atSource)
    exact hmoved.drop _ _ fun _ hmem => hmem
  | service instanceId expected outcome idempotencyKey output actorType actorId now =>
    obtain ⟨answer, hadvance, rfl⟩ := Option.map_eq_some_iff.mp hstep
    exact hdelivering.advanceVerified hadvance fun htype houtcome =>
      absurd ⟨htype, houtcome⟩ hguard

theorem Opening.delivering (hopening : Opening state) : Delivering msisdn state := by
  constructor
  · exact ⟨hopening.served, hopening.idle.reserved⟩
  · intro event hevent
    rw [hopening.events] at hevent
    cases hevent
  · intro call hcall
    rw [hopening.calls] at hcall
    cases hcall
  · intro call hcall
    rw [hopening.calls] at hcall
    cases hcall

theorem Delivering.of_run {start : State} (hopening : Opening start)
    (hrun : ReachesUnder (stepAllocation msisdn) Guarded start state) : Delivering msisdn state := by
  apply ReachesUnder.preserves (Delivering msisdn) _ hrun hopening.delivering
  intro before event after hdelivering hguard hstep
  exact hdelivering.step hguard hstep

end

/-! ## Retries -/

/-- The customer has no open wallet, and the number of its first one is free. -/
def NoWallet (wallets : Directory) (owner : ℤ) : Prop :=
  wallets.wallets.find? owner = none ∧ ¬ wallets.HasOpen owner

instance (wallets : Directory) (owner : ℤ) : Decidable (NoWallet wallets owner) :=
  inferInstanceAs (Decidable (_ ∧ _))

/-- A call of `allocateWallet` that finds what it needs apart from the wallets: the instance at
its node with a transition for success, a new key, the binding, the profile, and the customer,
its currency, wallet type and KYC in order. -/
structure Ready (msisdn : ℕ → ℤ) (state : State) (request : AllocateRequest)
    (findings : Findings) (row : Instance) (node : Node) (binding : Binding) : Prop where
  context : state.db.context request.instanceId request.resumeTokenHash .walletAllocation
    request.now = .ok (row, node)
  inProgress : row.status = .inProgress
  target : (state.db.nextNode row node.key "SUCCESS").isSome
  newKey : state.db.execution? request.instanceId request.idempotencyKey = none
  unfinished : ∀ found ∈ state.request? request.instanceId request.idempotencyKey,
    found.status ≠ .succeeded
  binding : request.binding = some binding
  profile : request.profileSubmitted = true
  active : findings.profileActive = true ∧ findings.currencyActive = true
  kyc : findings.kycNeeded.isSome ∧ ¬ KycPending findings
  free : state.wallets.Free (msisdn row.customerId)

/-- The steps of a call that is not disturbed. -/
def attempt (request : AllocateRequest) (owner : ℤ) (binding : Binding) (findings : Findings) :
    List Event :=
  let call := request.call owner binding
  [.allocate request, .create call findings,
    .finish { call with stage := .created (toString owner) } request.now]

/-- The step is executed, its request has succeeded, and the customer has got a wallet. -/
structure Completed (before after : State) (request : AllocateRequest) (owner : ℤ) : Prop where
  moved : ∃ execution ∈ after.db.executions,
    execution.key = (request.instanceId, request.idempotencyKey)
  recorded : ∃ found ∈ after.request? request.instanceId request.idempotencyKey,
    found.status = .succeeded ∧ found.walletReference = some (toString owner)
  opened : ∃ wallet, wallet.OwnedBy owner ∧ wallet.status ≠ .closed ∧
    after.wallets.wallets.rows = before.wallets.wallets.rows ++ [wallet]

section

variable {msisdn : ℕ → ℤ} {state after : State} {request : AllocateRequest} {findings : Findings}
  {row : Instance} {node : Node} {binding : Binding}

def State.begun (state : State) (request : AllocateRequest) (owner : ℤ) (binding : Binding) :
    State :=
  { state with
    requests :=
      if (state.request? request.instanceId request.idempotencyKey).isSome then state.requests
      else state.requests ++
        [{ instanceId := request.instanceId
           idempotencyKey := request.idempotencyKey
           walletType := binding.walletType
           currency := binding.currency }]
    wallets := state.wallets.addProfile owner
    calls := state.calls ++ [request.call owner binding] }

theorem Ready.begins (hready : Ready msisdn state request findings row node binding) :
    stepAllocation msisdn state (.allocate request) =
      some (state.begun request (msisdn row.customerId) binding) := by
  have hnot : (state.request? request.instanceId request.idempotencyKey).any
      (fun found => found.status = .succeeded) = false := by
    rw [Option.any_eq_false]
    intro found hfound
    exact decide_eq_false (hready.unfinished found hfound)
  simp [stepAllocation, allocateWallet, hready.context, hready.binding, hready.profile, hnot,
    Except.toOption, State.begun]

theorem finish_wallets {call : Call} {now : ℤ}
    (hfinish : finishAllocation state call now = some after) : after.wallets = state.wallets := by
  unfold finishAllocation at hfinish
  split at hfinish
  · cases hfinish
  · split at hfinish
    · split at hfinish
      · cases hfinish
        rfl
      · cases hfinish
        rfl
    · cases hfinish

theorem mem_addProfile (wallets : Directory) (owner : ℤ) :
    owner ∈ (wallets.addProfile owner).profiles := by
  unfold Directory.addProfile
  dsimp only
  split
  case isTrue hmem => exact hmem
  case isFalse => exact List.mem_append_right _ (List.mem_singleton_self _)

/-- An undisturbed call opens a wallet only for a customer that has none. -/
theorem Ready.wallets (hready : Ready msisdn state request findings row node binding)
    (hrun : runInputs (stepAllocation msisdn) state
      (attempt request (msisdn row.customerId) binding findings) = some after) :
    NoWallet state.wallets (msisdn row.customerId) ∨
      after.wallets.wallets = state.wallets.wallets := by
  obtain ⟨begun, hbegun, hrun⟩ := Option.bind_eq_some_iff.mp hrun
  obtain ⟨created, hcreated, hrun⟩ := Option.bind_eq_some_iff.mp hrun
  obtain ⟨finished, hfinished, hrun⟩ := Option.bind_eq_some_iff.mp hrun
  cases hrun
  cases hready.begins.symm.trans hbegun
  have hfinish : finishAllocation created
      { request.call (msisdn row.customerId) binding with
        stage := .created (toString (msisdn row.customerId)) } request.now = some after := hfinished
  have hsame := finish_wallets hfinish
  have hcreate : createCustomer _ _ _ = some created := hcreated
  rw [createCustomer, Option.ite_none_right_eq_some] at hcreate
  cases hopen : openWallet (state.wallets.addProfile (msisdn row.customerId))
      (request.call (msisdn row.customerId) binding).customer findings with
  | none =>
    have hfailed := hcreate.2
    rw [show (state.begun request (msisdn row.customerId) binding).wallets =
      state.wallets.addProfile (msisdn row.customerId) from rfl, hopen] at hfailed
    cases hfailed
    rw [hsame]
    exact .inr rfl
  | some answer =>
    obtain ⟨hopened, hnumber, _, _⟩ := openWallet_cases hopen
    exact .inl ⟨hnumber, fun hhas => hopened ⟨mem_addProfile _ _, hhas⟩⟩

/-- No index has a row like the first wallet of a customer without one. -/
theorem NoWallet.finish {before : Directory} {owner walletCode : ℤ} {currency : String}
    {swiftBic : Option String} {opening : Wallets.Opening} (hno : NoWallet before owner)
    (hpending : before.pending owner = some (.opening
      (Directory.defaultWallet owner walletCode currency none swiftBic) opening)) :
    ∃ opened, before.finish owner = some opened := by
  have hindex : ¬ Directory.IndexTaken before.wallets.rows
      (Directory.defaultWallet owner walletCode currency none swiftBic) := by
    rintro ⟨other, hother, hnumber | ⟨_, _, _, howned, _, hopen⟩ | ⟨_, _, _, howned, _, hopen⟩ |
      ⟨hset, _⟩⟩
    · exact Table.find?_eq_none.mp hno.1 other hother hnumber
    · exact hno.2 ⟨other, hother, howned, hopen⟩
    · exact hno.2 ⟨other, hother, howned, hopen⟩
    · exact hset rfl
  have hfree : before.wallets.find? (Wallet.walletMsisdn
      (Directory.defaultWallet owner walletCode currency none swiftBic)) = none := hno.1
  obtain ⟨wallets, hinsert⟩ := Table.insert?_of_fresh hfree
  rw [Directory.finish, hpending]
  dsimp only [Option.bind_eq_bind, Option.bind_some]
  rw [Directory.insertWallet, if_neg hindex, hinsert]
  exact ⟨_, rfl⟩

/-- Nothing keeps `createCustomer` from opening the first wallet of a customer without one. -/
theorem NoWallet.openWallet {before : Directory} {customer : NewCustomer}
    (hno : NoWallet before customer.msisdn) (hfree : before.Free customer.msisdn)
    (hactive : findings.profileActive = true ∧ findings.currencyActive = true)
    (hkyc : findings.kycNeeded.isSome ∧ ¬ KycPending findings) (hiban : customer.iban = none) :
    ∃ opened, openWallet before customer findings = some (opened, toString customer.msisdn) ∧
      opened.wallets.rows = before.wallets.rows ++
        [Directory.defaultWallet customer.msisdn customer.walletCode customer.currency
          customer.iban customer.swiftBic] := by
  obtain ⟨kycNeeded, hneeded⟩ := Option.isSome_iff_exists.mp hkyc.1
  have hready : ¬ (kycNeeded && !findings.kycApproved) = true := by
    intro hpending
    rw [Bool.and_eq_true, Bool.not_eq_true'] at hpending
    exact hkyc.2 ⟨hneeded.trans (congrArg some hpending.1), hpending.2⟩
  have hprofile : ¬ (customer.msisdn ∈ before.profiles ∧
      (before.HasOpen customer.msisdn ∨ (!findings.profileActive) = true)) := by
    rw [hactive.1]
    rintro ⟨_, hopen | hnever⟩
    · exact hno.2 hopen
    · cases hnever
  obtain ⟨opening, begun, hbegun, hset⟩ : ∃ opening begun,
      before.createCustomer customer findings = some begun ∧
        begun = before.setPending customer.msisdn (some (.opening
          (Directory.defaultWallet customer.msisdn customer.walletCode customer.currency
            customer.iban customer.swiftBic) opening)) := by
    dsimp only [Directory.createCustomer]
    rw [if_pos hfree, if_neg hprofile, hactive.2, if_neg (by decide), hneeded, hno.1]
    dsimp only [Option.bind_eq_bind, Option.bind_some]
    rw [if_neg (by decide), if_neg hready]
    exact ⟨_, _, rfl, rfl⟩
  have hpending : begun.pending customer.msisdn = some (.opening
      (Directory.defaultWallet customer.msisdn customer.walletCode customer.currency
        customer.iban customer.swiftBic) opening) := by
    rw [hset, Directory.setPending_pending, if_pos rfl]
  have hstill : NoWallet begun customer.msisdn := by
    rw [hset]
    exact hno
  obtain ⟨opened, hopened⟩ := hstill.finish (hiban ▸ hpending)
  have hrows := finish_opening hpending hopened
  refine ⟨opened, ?_, hrows.trans (by rw [hset]; rfl)⟩
  rw [Allocation.openWallet, hbegun, Option.bind_some, hpending]
  dsimp only
  rw [hopened]
  rfl

theorem request?_begun (state : State) (request : AllocateRequest) (owner : ℤ)
    (binding : Binding) : ((state.begun request owner binding).request? request.instanceId
      request.idempotencyKey).isSome := by
  unfold State.begun State.request?
  dsimp only
  split
  case isTrue hsome => exact hsome
  case isFalse =>
    rw [List.find?_isSome]
    exact ⟨_, List.mem_append_right _ (List.mem_singleton_self _),
      decide_eq_true ⟨rfl, rfl⟩⟩

theorem find?_updateRequest (state : State) (call : Call)
    (change : AllocationRequest → AllocationRequest)
    (hinstance : ∀ request, (change request).instanceId = request.instanceId)
    (hkey : ∀ request, (change request).idempotencyKey = request.idempotencyKey) :
    ((state.updateRequest call change).find? fun request =>
        request.instanceId = call.instanceId ∧ request.idempotencyKey = call.idempotencyKey) =
      (state.request? call.instanceId call.idempotencyKey).map change := by
  unfold State.updateRequest State.request?
  induction state.requests with
  | nil => rfl
  | cons request rest ih =>
    by_cases hfound : request.instanceId = call.instanceId ∧
        request.idempotencyKey = call.idempotencyKey
    · simp [hfound, hinstance, hkey]
    · rw [List.map_cons, if_neg hfound, List.find?_cons_of_neg (by simpa using hfound),
        List.find?_cons_of_neg (by simpa using hfound)]
      exact ih

theorem Ready.moves (hready : Ready msisdn state request findings row node binding)
    (output : Document) : ∃ target, state.db.Moves (verifiedRequest row node "SUCCESS"
      request.idempotencyKey output (some "customer") none request.now) row node target := by
  obtain ⟨hopened, hcurrent, hnode, _, htype⟩ := context_eq_ok hready.context
  have hrow := (Option.filter_eq_some_iff.mp hopened).1
  have hid : row.id = request.instanceId := (Table.find?_eq_some.mp hrow).2
  obtain ⟨target, htarget⟩ := Option.isSome_iff_exists.mp hready.target
  have hupper : "SUCCESS".toUpper.toUpper = "SUCCESS" := by decide +kernel
  refine ⟨target, ?_, ?_, hcurrent, hready.inProgress, hnode, rfl, ?_, ?_⟩
  · show state.db.openInstance row.id row.resumeTokenHash = some row
    rw [Database.openInstance, hid, hrow]
    exact Option.filter_eq_some_iff.mpr ⟨rfl, decide_eq_true rfl⟩
  · show state.db.execution? row.id request.idempotencyKey = none
    rw [hid]
    exact hready.newKey
  · rw [htype]
    decide
  · show state.db.nextNode row node.key "SUCCESS".toUpper.toUpper = some target
    rw [hupper]
    exact htarget

/-- A call that finds what it needs completes for a customer without a wallet. -/
theorem Ready.completes (hready : Ready msisdn state request findings row node binding)
    (hno : NoWallet state.wallets (msisdn row.customerId)) :
    ∃ after, runInputs (stepAllocation msisdn) state
        (attempt request (msisdn row.customerId) binding findings) = some after ∧
      Completed state after request (msisdn row.customerId) := by
  obtain ⟨hopened, _, _, _, htype⟩ := context_eq_ok hready.context
  have hrow := (Option.filter_eq_some_iff.mp hopened).1
  have hprofile : NoWallet (state.wallets.addProfile (msisdn row.customerId))
      (request.call (msisdn row.customerId) binding).customer.msisdn := hno
  obtain ⟨wallets, hwallets, hrows⟩ :=
    hprofile.openWallet hready.free hready.active hready.kyc rfl
  obtain ⟨target, hmoves⟩ := hready.moves
    (allocationOutput (toString (msisdn row.customerId)) binding.id)
  have hmoved := advanceVerified_of_moves hrow htype hmoves rfl
  obtain ⟨db, result, hadvance, hexecution⟩ := hmoved ActorType.customer
  let call := request.call (msisdn row.customerId) binding
  let returned := { call with stage := .created (toString (msisdn row.customerId)) }
  let begun := state.begun request (msisdn row.customerId) binding
  let created := { begun with
    wallets := wallets
    calls := begun.calls.erase call ++ [returned] }
  have hcreated : stepAllocation msisdn begun (.create call findings) = some created := by
    show createCustomer begun call findings = some created
    rw [createCustomer,
      if_pos ⟨List.mem_append_right _ (List.mem_singleton_self _), rfl, hready.free⟩]
    show (match openWallet (state.wallets.addProfile (msisdn row.customerId)) call.customer
      findings with
      | none => _
      | some (_, _) => _) = _
    rw [hwallets]
    rfl
  have hadvanced : created.advanced returned (toString (msisdn row.customerId)) request.now =
      some (db, result) := by
    show ((state.db.context request.instanceId request.resumeTokenHash .walletAllocation
      request.now).toOption).bind _ = _
    rw [hready.context]
    exact congrArg Except.toOption hadvance
  let succeed := fun request : AllocationRequest =>
    { request with
      status := .succeeded
      walletReference := some (toString (msisdn row.customerId)) }
  let finished := { created with
    db := db
    requests := created.updateRequest returned succeed
    calls := created.calls.erase returned }
  have hfinished : stepAllocation msisdn created (.finish returned request.now) =
      some finished := by
    show (if returned ∈ created.calls then
        match created.advanced returned (toString (msisdn row.customerId)) request.now with
        | none => some (created.fail returned)
        | some answer => some { created with
            db := answer.1
            requests := created.updateRequest returned succeed
            calls := created.calls.erase returned }
      else none) = _
    rw [if_pos (List.mem_append_right _ (List.mem_singleton_self _)), hadvanced]
  obtain ⟨stored, hstored⟩ := Option.isSome_iff_exists.mp
    (request?_begun state request (msisdn row.customerId) binding)
  have hfound : finished.request? request.instanceId request.idempotencyKey =
      some (succeed stored) :=
    (find?_updateRequest created returned succeed (fun _ => rfl) (fun _ => rfl)).trans
      (congrArg (Option.map succeed) hstored)
  refine ⟨finished, ?_, hexecution, ⟨_, hfound, rfl, rfl⟩, _, ⟨rfl, rfl⟩, ?_, hrows⟩
  case refine_2 => exact fun hclosed => by cases hclosed
  rw [runInputs, attempt, List.foldlM_cons, hready.begins]
  show (stepAllocation msisdn begun (.create call findings)).bind _ = _
  rw [hcreated]
  show (stepAllocation msisdn created (.finish returned request.now)).bind _ = _
  rw [hfinished]
  rfl

end

/-- An undisturbed call that finds what it needs completes exactly if its customer has no wallet
yet, and otherwise opens none. -/
def Retries (msisdn : ℕ → ℤ) (state : State) : Prop :=
  ∀ request findings row node binding, Ready msisdn state request findings row node binding →
    ((∃ after, runInputs (stepAllocation msisdn) state
          (attempt request (msisdn row.customerId) binding findings) = some after ∧
        Completed state after request (msisdn row.customerId)) ↔
      NoWallet state.wallets (msisdn row.customerId)) ∧
    (¬ NoWallet state.wallets (msisdn row.customerId) → ∀ after,
      runInputs (stepAllocation msisdn) state
          (attempt request (msisdn row.customerId) binding findings) = some after →
        after.wallets.wallets = state.wallets.wallets)

theorem retries (msisdn : ℕ → ℤ) (state : State) : Retries msisdn state := by
  intro request findings row node binding hready
  constructor
  · constructor
    · intro ⟨after, hrun, hcompleted⟩
      rcases hready.wallets hrun with hno | hsame
      · exact hno
      · obtain ⟨wallet, _, _, hrows⟩ := hcompleted.opened
        rw [hsame] at hrows
        simp at hrows
    · exact hready.completes
  · intro hsome after hrun
    exact (hready.wallets hrun).resolve_left hsome

/-- In runs in which no wallet is put off for KYC and no one else reports the success of a
WALLET_ALLOCATION node, who has left one has an open wallet; and a repeated call completes as
long as the wallet was not created. -/
theorem wallet_delivered {msisdn : ℕ → ℤ} {start state : State} (hopening : Opening start)
    (hrun : ReachesUnder (stepAllocation msisdn) Guarded start state) :
    Delivered msisdn state ∧ Retries msisdn state := by
  have hdelivering := Delivering.of_run hopening hrun
  refine ⟨?_, retries msisdn state⟩
  intro event hevent nodeKey attempt hleft
  obtain ⟨row, hrow, hid, hwallet⟩ := hdelivering.delivered event hevent nodeKey attempt hleft
  exact ⟨row, hrow, hid, hwallet.hasOpen hdelivering.sound⟩

/-- An instance at the START of a graph that allocates a wallet. -/
def walletJourney : State where
  db :=
    { versions := ⟨[{ id := 1, graph :=
        { scopes := [{ countryCode := "UGA", channelCode := "MOBILE_APP",
                       customerType := "INDIVIDUAL", priority := 100 }]
          nodes := [{ key := "start", type := .start, entry := true },
            { key := "wallet", type := .walletAllocation,
              configuration := [("walletProductBindingId", .text "1"),
                ("walletType", .text "103"), ("currency", .text "UGX")] },
            { key := "end", type := .finish }]
          transitions :=
            [{ source := "start", target := "wallet", outcome := "SUCCESS", priority := 1 },
              { source := "wallet", target := "end", outcome := "SUCCESS", priority := 1 }] } }],
        by decide⟩
      instances := ⟨[{ id := 1, customerId := 1, versionId := 1, currentNode := some "start",
                       resumeTokenHash := "token", expiresAt := 100 }],
        List.pairwise_singleton _ _⟩
      customers := ⟨[{ id := 1, status := .onboarding }], List.pairwise_singleton _ _⟩ }
  wallets := .empty

theorem walletJourney_opening : Opening walletJourney where
  fresh := by
    constructor
    · rfl
    · intro row hmem
      rw [List.mem_singleton.mp hmem]
      exact ⟨rfl, _, _, rfl, by decide, rfl, rfl⟩
  events := rfl
  served := by constructor <;> simp [walletJourney, Directory.empty]
  idle := ⟨fun _ => rfl, fun _ => rfl⟩
  calls := rfl

/-- The phone number of every customer. -/
def onePhone (_ : ℕ) : ℤ := 7

/-- Findings with all in order, but for the approval of KYC. -/
def kycFindings (kycNeeded : Bool) : Findings :=
  { profileActive := true
    currencyActive := true
    kycNeeded := some kycNeeded
    kycApproved := false
    isCustomerType := fun _ => true }

def phoneBinding : Binding := { id := 1, walletType := 103, currency := "UGX" }

def walletRequest : AllocateRequest :=
  { instanceId := 1, resumeTokenHash := "token", idempotencyKey := "wallet-key",
    binding := some phoneBinding, profileSubmitted := true }

/-- The journey up to its WALLET_ALLOCATION node. -/
def toWallet : List Event :=
  [.check (stepFrom "start" "start-key"), .advance (stepFrom "start" "start-key")]

/-- A journey whose wallet type needs no KYC is delivered. -/
theorem wallet_delivered_alone : ∃ state,
    ReachesUnder (stepAllocation onePhone) Guarded walletJourney state ∧
      state.db.executions.length = 2 ∧ state.wallets.HasOpen 7 ∧
      Delivered onePhone state ∧ Retries onePhone state := by
  have hany : (runInputs (guardedStep (stepAllocation onePhone) Guarded) walletJourney
      (toWallet ++ attempt walletRequest 7 phoneBinding (kycFindings false))).any
        (fun state => state.db.executions.length = 2 ∧ state.wallets.HasOpen 7) := by
    decide +kernel
  obtain ⟨state, hrun, hfacts⟩ := (Option.any_eq_true _ _).mp hany
  obtain ⟨hlength, hopen⟩ := of_decide_eq_true hfacts
  have hreach := (Reaches.of_runInputs hrun).under
  exact ⟨state, hreach, hlength, hopen, wallet_delivered walletJourney_opening hreach⟩

/-- In every run, who has left a WALLET_ALLOCATION node has an open wallet. -/
def AlwaysDelivered : Prop :=
  ∀ msisdn start state, Opening start → Reaches (stepAllocation msisdn) start state →
    Delivered msisdn state

/-- In every run a call that has crashed can be repeated to its end. -/
def CrashesRetried : Prop :=
  ∀ msisdn start before call state, Opening start → Reaches (stepAllocation msisdn) start before →
    crash before call = some state → ∀ request findings row node binding,
      request.instanceId = call.instanceId → request.idempotencyKey = call.idempotencyKey →
        Ready msisdn state request findings row node binding →
          ∃ after, runInputs (stepAllocation msisdn) state
              (attempt request (msisdn row.customerId) binding findings) = some after ∧
            ∃ execution ∈ after.db.executions,
              execution.key = (request.instanceId, request.idempotencyKey)

/-- The call under way after `createCustomer` has returned. -/
def returnedCall (walletReference : String) : Call :=
  { walletRequest.call 7 phoneBinding with stage := .created walletReference }

/-- With KYC pending the journey goes on without a wallet; and after a crash between the creation
of the wallet and the advance the step cannot be repeated. -/
theorem wallet_not_delivered : ¬ AlwaysDelivered ∧ ¬ CrashesRetried := by
  constructor
  · intro halways
    have hany : (runInputs (stepAllocation onePhone) walletJourney
        (toWallet ++ [.allocate walletRequest, .create (walletRequest.call 7 phoneBinding)
          (kycFindings true), .finish (returnedCall "") 0])).any fun state =>
            (¬ state.wallets.HasOpen 7) ∧
            (∃ event ∈ state.db.events, event.instanceId = 1 ∧
              event.payload = .stepSucceeded "wallet" "SUCCESS" "end" 1) ∧
            ∃ row ∈ state.db.instances.rows, row.id = 1 ∧
              (state.db.graph row.versionId).any fun graph =>
                (graph.node? "wallet").any fun node => node.type = .walletAllocation := by
      decide +kernel
    obtain ⟨state, hrun, hfacts⟩ := (Option.any_eq_true _ _).mp hany
    obtain ⟨hnone, ⟨event, hevent, hid, hpayload⟩, row, hrow, hrowId, hgraph⟩ :=
      of_decide_eq_true hfacts
    obtain ⟨graph, hfound, hnode⟩ := (Option.any_eq_true _ _).mp hgraph
    obtain ⟨node, hat, htype⟩ := (Option.any_eq_true _ _).mp hnode
    obtain ⟨_, _, _, hopen⟩ := halways onePhone walletJourney state walletJourney_opening
      (Reaches.of_runInputs hrun) event hevent "wallet" 1 ⟨⟨"end", hpayload⟩, row, hrow,
        hrowId.trans hid.symm, graph, node, hfound, hat, of_decide_eq_true htype⟩
    exact hnone hopen
  · intro hretried
    have hany : (runInputs (stepAllocation onePhone) walletJourney
        (toWallet ++ [.allocate walletRequest, .create (walletRequest.call 7 phoneBinding)
          (kycFindings false)])).any fun before =>
            (crash before (returnedCall "7")).any fun state =>
              (state.db.context 1 "token" .walletAllocation 0).toOption.any (fun context =>
                context.1.status = .inProgress ∧
                  (state.db.nextNode context.1 context.2.key "SUCCESS").isSome) ∧
              state.db.execution? 1 "wallet-key" = none ∧
              (∀ found ∈ state.request? 1 "wallet-key", found.status ≠ .succeeded) ∧
              state.wallets.Free 7 ∧
              (runInputs (stepAllocation onePhone) state
                (attempt walletRequest 7 phoneBinding (kycFindings false))).all fun after =>
                  ∀ execution ∈ after.db.executions, execution.key ≠ (1, "wallet-key") := by
      decide +kernel
    obtain ⟨before, hrun, hcrashed⟩ := (Option.any_eq_true _ _).mp hany
    obtain ⟨state, hcrash, hfacts⟩ := (Option.any_eq_true _ _).mp hcrashed
    obtain ⟨hcontext, hnew, hunfinished, hfree, hnever⟩ := of_decide_eq_true hfacts
    obtain ⟨context, hfound, hcurrent⟩ := (Option.any_eq_true _ _).mp hcontext
    obtain ⟨hprogress, htarget⟩ := of_decide_eq_true hcurrent
    obtain ⟨after, hafter, execution, hmem, hkey⟩ := hretried onePhone walletJourney before
      (returnedCall "7") state walletJourney_opening (Reaches.of_runInputs hrun) hcrash
      walletRequest (kycFindings false) context.1 context.2 phoneBinding rfl rfl
      ⟨ok_of_toOption hfound, hprogress, htarget, hnew, hunfinished, rfl, rfl, ⟨rfl, rfl⟩,
        ⟨rfl, by decide⟩, hfree⟩
    have hall := (Option.all_eq_true _ _).mp hnever after hafter
    exact of_decide_eq_true hall execution hmem hkey

end Finify.Onboarding.Allocation
