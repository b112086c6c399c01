/-
# KYC and the accounts of customers

The KYC service beside the calls that open wallets and the onboarding that brings customers to
both.  The wallets and their locks are those of `Wallets.Directory`; what its calls find about
wallet types and KYC cases is read here from the tables.  A call that opens a wallet reads under
the advisory lock of its customer, inserts the wallet, and commits; the others take steps in
between.  Locks of profiles and requests are not kept, so more orders of steps are allowed than
the database allows.
-/

import Finify.Kyc.Service
import Finify.Wallets.DefaultWallet

namespace Finify.Kyc

open Finify.Foundations Finify.Wallets

/-! ## Rows -/

/-- `SW_TBL_WALLET_TYPE`.  `isCustomer` stands for the wallet type 100. -/
structure WalletType where
  isKycNeeded : Option Bool
  isCustomer : Bool := true
  active : Bool := true
  deriving DecidableEq

/-- `customer_registry.customers` with the phone number of the customer. -/
structure Registered where
  id : ℕ
  phone : ℤ
  legacyProfileMsisdn : Option ℤ := none
  deriving DecidableEq

/-- The approved cases of a customer get the number of the customer. -/
def Case.numbered (customerId : ℕ) (msisdn : ℤ) (row : Case) : Case :=
  if row.customerId = some customerId ∧ row.status = .approved then
    { row with customerMsisdn := some msisdn }
  else row

@[simp] theorem Case.numbered_id (customerId : ℕ) (msisdn : ℤ) (row : Case) :
    (row.numbered customerId msisdn).id = row.id := by
  unfold Case.numbered
  split <;> rfl

@[simp] theorem Case.numbered_status (customerId : ℕ) (msisdn : ℤ) (row : Case) :
    (row.numbered customerId msisdn).status = row.status := by
  unfold Case.numbered
  split <;> rfl

@[simp] theorem Case.numbered_customerId (customerId : ℕ) (msisdn : ℤ) (row : Case) :
    (row.numbered customerId msisdn).customerId = row.customerId := by
  unfold Case.numbered
  split <;> rfl

theorem Case.numbered_customerMsisdn (customerId : ℕ) (msisdn : ℤ) (row : Case) :
    (row.numbered customerId msisdn).customerMsisdn =
      if row.customerId = some customerId ∧ row.status = .approved then some msisdn
      else row.customerMsisdn := by
  unfold Case.numbered
  split <;> rfl

/-- Other cases are left. -/
theorem Case.numbered_of_ne {customerId : ℕ} {msisdn : ℤ} {row : Case}
    (hstatus : row.status ≠ .approved) : row.numbered customerId msisdn = row := by
  unfold Case.numbered
  rw [if_neg fun happroved => hstatus happroved.2]

/-- The type and the owner of a wallet as they were written, and what was true of them then. -/
structure Clearance where
  walletCode : ℤ
  ownerMsisdn : ℤ
  kycNeeded : Bool
  kycApproved : Bool
  deriving DecidableEq

/-- The tables and the calls under way.  `approvals` is the approved case that the call holding
the lock of a customer has read, `inserted` tells that it has inserted its wallet, and
`clearances` observes the last write of each wallet's type and owner. -/
structure Accounts where
  kyc : State
  directory : Directory
  walletTypes : ℤ → Option WalletType
  registry : Table Registered.id
  allocations : List ℕ := []
  approvals : ℤ → Option ℕ := fun _ => none
  inserted : ℤ → Option Clearance := fun _ => none
  clearances : ℤ → Option Clearance := fun _ => none

/-- What a call finds in tables that no modelled call writes. -/
structure Circumstances where
  profileActive : Bool := true
  currencyActive : Bool := true

namespace Accounts

variable (accounts : Accounts)

/-! ## Wallet types and KYC -/

def KycApproved (owner : ℤ) : Prop :=
  ∃ row ∈ accounts.kyc.cases.rows, row.customerMsisdn = some owner ∧ row.status = .approved

instance (owner : ℤ) : Decidable (accounts.KycApproved owner) :=
  inferInstanceAs (Decidable (∃ row ∈ accounts.kyc.cases.rows, _))

/-- `Is_Kyc_Needed` of a wallet type. -/
def kycNeeded (walletCode : ℤ) : Bool :=
  (accounts.walletTypes walletCode).any fun walletType => walletType.isKycNeeded = some true

/-- `sw_fn_enforce_wallet_kyc`: whether it lets a row pass.  Without a wallet type
`v_kyc_required` is null, and the condition is not met. -/
def enforceWalletKyc (wallet : Wallet) : Bool :=
  if !wallet.isCustomer then true
  else
    match (accounts.walletTypes wallet.walletCode).map fun walletType =>
        walletType.isKycNeeded.getD false with
    | some true => decide (accounts.KycApproved wallet.ownerMsisdn)
    | _ => true

/-- The observation of a row that is written. -/
def clearance (wallet : Wallet) : Clearance where
  walletCode := wallet.walletCode
  ownerMsisdn := wallet.ownerMsisdn
  kycNeeded := accounts.kycNeeded wallet.walletCode
  kycApproved := decide (accounts.KycApproved wallet.ownerMsisdn)

/-- The need of KYC of a customer wallet type that is active, as the services select it. -/
def eligible (walletCode : ℤ) : Option Bool :=
  ((accounts.walletTypes walletCode).filter fun walletType =>
    walletType.isCustomer && walletType.active).map fun walletType =>
      walletType.isKycNeeded = some true

/-- What a call finds. -/
def findings (owner walletCode : ℤ) (circumstances : Circumstances) : Findings where
  profileActive := circumstances.profileActive
  currencyActive := circumstances.currencyActive
  kycNeeded := accounts.eligible walletCode
  kycApproved := decide (accounts.KycApproved owner)
  isCustomerType := fun code => (accounts.walletTypes code).any WalletType.isCustomer

/-- `approvedKycCase`, where it is asked for; cases reviewed at one time may come in either
order. -/
def approvedKycCase (kycRequired : Bool) (owner : ℤ) : Option ℕ :=
  if kycRequired then approvedCase accounts.kyc.cases.rows (some owner) else none

/-! ## Opening the first wallet -/

/-- `existingKycCase`. -/
def existingKycCase (owner : ℤ) : Option Case :=
  latest Case.createdAt (accounts.kyc.cases.rows.filter fun row =>
    row.customerMsisdn = some owner ∧ row.status ≠ .rejected ∧ row.status ≠ .failed)

/-- The case that a new account has to wait for, with the tables of the KYC service. -/
def awaitedCase (owner : ℤ) (id : ℕ) (documentType : DocumentType) (actor : String) (now : ℤ) :
    Option (ℕ × Table Case.id) :=
  match accounts.existingKycCase owner with
  | some row =>
    if accounts.kyc.Unlocked row.id then some (row.id, accounts.kyc.cases) else none
  | none =>
    (accounts.kyc.cases.insert?
      { id := id
        customerMsisdn := some owner
        documentType := documentType
        createdBy := actor
        createdAt := now }).map fun cases => (id, cases)

def pendingRequest (owner : ℤ) (kycCaseId : ℕ) : OpeningRequest where
  customerMsisdn := owner
  status := .pendingKyc
  kycCaseId := some kycCaseId

/-- The tables of a customer without a profile get one that is not verified. -/
def withProfile (owner : ℤ) : Table Profile.msisdn :=
  accounts.kyc.profiles.upsert { msisdn := owner, kycStatus := 0 } id fun _ => rfl

/-- `createCustomer`: a call that needs an approval and has none stores its request and ends; any
other is about to insert the wallet. -/
def createCustomer (customer : NewCustomer) (circumstances : Circumstances) (id : ℕ)
    (documentType : DocumentType) (actor : String) (now : ℤ) : Option Accounts :=
  let owner := customer.msisdn
  match accounts.directory.createCustomer customer
      (accounts.findings owner customer.walletCode circumstances) with
  | none => none
  | some directory =>
    if (directory.pending owner).isSome then
      some { accounts with
        directory := directory
        approvals := Function.update accounts.approvals owner
          (accounts.approvedKycCase (accounts.kycNeeded customer.walletCode) owner) }
    else if (accounts.kyc.requests.find? owner).any fun request => request.status = .opened then
      none
    else
      (accounts.awaitedCase owner id documentType actor now).map fun found =>
        { accounts with
          directory := directory
          kyc :=
            { accounts.kyc with
              cases := found.2
              profiles := accounts.withProfile owner
              requests := accounts.kyc.requests.upsert (pendingRequest owner found.1)
                (fun request =>
                  { request with status := .pendingKyc, kycCaseId := some found.1 })
                fun _ => rfl } }

/-- `completeCustomerAccountOpening`. -/
def completeCustomerAccountOpening (owner : ℤ) (circumstances : Circumstances) :
    Option Accounts :=
  match accounts.directory.openings owner with
  | none => none
  | some opening =>
    (accounts.directory.completeCustomerAccountOpening owner
      (accounts.findings owner opening.walletCode circumstances)).map fun directory =>
        { accounts with
          directory := directory
          approvals :=
            if opening.opened then accounts.approvals
            else Function.update accounts.approvals owner
              (accounts.approvedKycCase
                (accounts.kycNeeded opening.walletCode || opening.kycRequired) owner) }

/-- `createAdditionalForActor`. -/
def createAdditionalForActor (owner : ℤ) (request : NewWallet) (circumstances : Circumstances)
    (number : ℤ) : Option Accounts :=
  (accounts.directory.createAdditionalForActor owner request
    (accounts.findings owner request.walletCode circumstances) number).map fun directory =>
      { accounts with directory := directory }

/-- The wallet that the call holding the lock of a customer inserts. -/
def walletOf (owner : ℤ) : Option Wallet :=
  match accounts.directory.pending owner with
  | some (.opening wallet _) => some wallet
  | some (.adding wallet) => some wallet
  | _ => none

/-- The insert of a wallet, which the trigger lets pass. -/
def insertWallet (owner : ℤ) : Option Accounts :=
  match accounts.walletOf owner with
  | none => none
  | some wallet =>
    if accounts.inserted owner = none ∧ accounts.enforceWalletKyc wallet then
      some { accounts with
        inserted := Function.update accounts.inserted owner (some (accounts.clearance wallet)) }
    else none

def openedRequest (owner walletMsisdn : ℤ) (kycCaseId : Option ℕ) : OpeningRequest where
  customerMsisdn := owner
  status := .opened
  kycCaseId := kycCaseId
  walletMsisdn := some walletMsisdn

/-- What the KYC tables get when the first wallet of a customer is opened. -/
def openAccount (owner walletMsisdn : ℤ) : State :=
  { accounts.kyc with
    profiles := (accounts.withProfile owner).modify owner
      (fun profile =>
        { profile with
          kycStatus := if (accounts.approvals owner).isSome then 1 else profile.kycStatus })
      fun _ => rfl
    requests := accounts.kyc.requests.upsert
      (openedRequest owner walletMsisdn (accounts.approvals owner))
      (fun request =>
        { request with
          status := .opened
          kycCaseId := accounts.approvals owner
          walletMsisdn := some walletMsisdn })
      fun _ => rfl }

/-- The call that holds the lock of a customer has ended. -/
def release (owner : ℤ) : Accounts :=
  { accounts with
    approvals := Function.update accounts.approvals owner none
    inserted := Function.update accounts.inserted owner none }

/-- The commit of a call that has inserted its wallet. -/
def finish (owner : ℤ) : Option Accounts :=
  match accounts.inserted owner, accounts.walletOf owner with
  | some clearance, some wallet =>
    (accounts.directory.finish owner).map fun directory =>
      { accounts.release owner with
        directory := directory
        kyc :=
          match accounts.directory.pending owner with
          | some (.opening _ _) => accounts.openAccount owner wallet.walletMsisdn
          | _ => accounts.kyc
        clearances := Function.update accounts.clearances wallet.walletMsisdn
          (some clearance) }
  | _, _ => none

/-- The end of a call without effect. -/
def rollback (owner : ℤ) : Accounts :=
  { accounts.release owner with directory := accounts.directory.setPending owner none }

/-! ## Wallet types -/

/-- `applyWalletType`: a type is stored or replaced. -/
def applyWalletType (walletCode : ℤ) (walletType : WalletType) : Accounts :=
  { accounts with walletTypes := Function.update accounts.walletTypes walletCode (some walletType) }

/-- `UPDATE SW_TBL_WALLET SET Wallet_Code`, which the foreign key and the trigger let pass. -/
def changeWalletCode (walletMsisdn walletCode : ℤ) : Option Accounts :=
  match accounts.directory.wallets.find? walletMsisdn with
  | none => none
  | some wallet =>
    let changed := { wallet with walletCode := walletCode }
    if (accounts.walletTypes walletCode).isSome ∧ accounts.enforceWalletKyc changed then
      some { accounts with
        directory :=
          { accounts.directory with
            wallets := accounts.directory.wallets.modify walletMsisdn
              (fun wallet => { wallet with walletCode := walletCode }) fun _ => rfl }
        clearances := Function.update accounts.clearances walletMsisdn
          (some (accounts.clearance changed)) }
    else none

/-! ## Onboarding -/

/-- `startKyc`, with the identifier that the row is given. -/
def startKyc (instanceId : ℕ) (resumeTokenHash : String) (id : ℕ) (documentType : DocumentType)
    (now : ℤ) : Option Accounts :=
  match (accounts.kyc.journeys.context instanceId resumeTokenHash .kyc now).toOption with
  | none => none
  | some (row, _) =>
    match accounts.kyc.links.find? instanceId with
    | some _ => some accounts
    | none =>
      (accounts.kyc.cases.insert?
        { id := id
          customerMsisdn := none
          customerId := some row.customerId
          documentType := documentType
          createdBy := "onboarding-runtime"
          createdAt := now }).bind fun cases =>
        (accounts.kyc.links.insert? { instanceId := instanceId, caseId := id }).map fun links =>
          { accounts with kyc := { accounts.kyc with cases := cases, links := links } }

/-- `allocateWallet` up to its first transaction. -/
def allocateWallet (instanceId : ℕ) (resumeTokenHash : String) (now : ℤ) : Option Accounts :=
  (accounts.kyc.journeys.context instanceId resumeTokenHash .walletAllocation now).toOption.map
    fun found => { accounts with allocations := accounts.allocations ++ [found.1.customerId] }

/-- The first transaction of `allocateWallet`, which waits for the locks of the cases that it
writes. -/
def prepareAllocation (customerId : ℕ) : Option Accounts :=
  match accounts.registry.find? customerId with
  | none => none
  | some customer =>
    if customerId ∈ accounts.allocations ∧
        ∀ row ∈ accounts.kyc.cases.rows, row.customerId = some customerId →
          row.status = .approved → accounts.kyc.Unlocked row.id then
      some { accounts with
        allocations := accounts.allocations.erase customerId
        registry := accounts.registry.modify customerId
          (fun customer => { customer with legacyProfileMsisdn := some customer.phone })
          fun _ => rfl
        directory := accounts.directory.addProfile customer.phone
        kyc :=
          { accounts.kyc with
            profiles := accounts.kyc.profiles.upsert
              { msisdn := customer.phone, kycStatus := 1 } id fun _ => rfl
            cases := accounts.kyc.cases.map (Case.numbered customerId customer.phone)
              (Case.numbered_id customerId customer.phone) } }
    else none

/-- A journey is advanced. -/
def advance (request : Onboarding.StepRequest) : Option Accounts :=
  (Onboarding.step accounts.kyc.journeys request).map fun journeys =>
    { accounts with kyc := { accounts.kyc with journeys := journeys } }

end Accounts

/-! ## Steps -/

/-- A call as far as it goes at once, the next step of one, or its end without effect. -/
inductive AccountEvent
  | kyc (event : Event)
  | createCustomer (customer : NewCustomer) (circumstances : Circumstances) (id : ℕ)
      (documentType : DocumentType) (actor : String) (now : ℤ)
  | completeCustomerAccountOpening (owner : ℤ) (circumstances : Circumstances)
  | createAdditional (owner : ℤ) (request : NewWallet) (circumstances : Circumstances)
      (number : ℤ)
  | insertWallet (owner : ℤ)
  | finish (owner : ℤ)
  | rollback (owner : ℤ)
  | applyWalletType (walletCode : ℤ) (walletType : WalletType)
  | changeWalletCode (walletMsisdn walletCode : ℤ)
  | startKyc (instanceId : ℕ) (resumeTokenHash : String) (id : ℕ) (documentType : DocumentType)
      (now : ℤ)
  | allocateWallet (instanceId : ℕ) (resumeTokenHash : String) (now : ℤ)
  | prepareAllocation (customerId : ℕ)
  | advance (request : Onboarding.StepRequest)

def accountStep (accounts : Accounts) : AccountEvent → Option Accounts
  | .kyc event => (step accounts.kyc event).map fun kyc => { accounts with kyc := kyc }
  | .createCustomer customer circumstances id documentType actor now =>
    accounts.createCustomer customer circumstances id documentType actor now
  | .completeCustomerAccountOpening owner circumstances =>
    accounts.completeCustomerAccountOpening owner circumstances
  | .createAdditional owner request circumstances number =>
    accounts.createAdditionalForActor owner request circumstances number
  | .insertWallet owner => accounts.insertWallet owner
  | .finish owner => accounts.finish owner
  | .rollback owner => some (accounts.rollback owner)
  | .applyWalletType walletCode walletType => some (accounts.applyWalletType walletCode walletType)
  | .changeWalletCode walletMsisdn walletCode =>
    accounts.changeWalletCode walletMsisdn walletCode
  | .startKyc instanceId resumeTokenHash id documentType now =>
    accounts.startKyc instanceId resumeTokenHash id documentType now
  | .allocateWallet instanceId resumeTokenHash now =>
    accounts.allocateWallet instanceId resumeTokenHash now
  | .prepareAllocation customerId => accounts.prepareAllocation customerId
  | .advance request => accounts.advance request

end Finify.Kyc
