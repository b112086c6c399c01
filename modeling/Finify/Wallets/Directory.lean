/-
# The wallets of customers

The calls of `WalletService` that open wallets, choose the default one and change their
status.  A call is a transaction of several steps, and other calls take steps in
between.  Calls for one customer exclude each other by an advisory lock, which is
kept here by customer together with the call that holds it; changes of status take
the lock of a row only, which is kept by wallet.  Texts come as their checks leave
them.
-/

import Finify.Foundations.Transition
import Finify.Foundations.Table

namespace Finify.Wallets

open Finify.Foundations

/-! ## Rows -/

/-- `STATUS`. -/
inductive Status
  | active
  | suspended
  | frozen
  | closed
  deriving DecidableEq, Repr

/-- `wallet_purpose`. -/
inductive Purpose
  | customerMain
  | customerAdditional
  | other
  deriving DecidableEq, Repr

/-- `SW_TBL_WALLET`.  `isCustomer` stands for the owner type. -/
structure Wallet where
  walletMsisdn : ℤ
  walletCode : ℤ
  ownerMsisdn : ℤ
  isCustomer : Bool := true
  currency : String
  status : Status := .active
  isDefault : Bool := false
  purpose : Purpose := .customerAdditional
  parent : Option ℤ := none
  iban : Option String := none
  swiftBic : Option String := none
  deriving DecidableEq

def Wallet.OwnedBy (owner : ℤ) (wallet : Wallet) : Prop :=
  wallet.isCustomer ∧ wallet.ownerMsisdn = owner

instance (owner : ℤ) (wallet : Wallet) : Decidable (wallet.OwnedBy owner) :=
  inferInstanceAs (Decidable (_ ∧ _))

/-- `customer_account_opening_requests`, with its row for a customer. -/
structure Opening where
  walletCode : ℤ
  currency : String
  iban : Option String
  swiftBic : Option String
  kycRequired : Bool
  opened : Bool := false
  deriving DecidableEq

/-- What a call finds in tables that other services write: the status of the profile,
the currency, the wallet type with its need of KYC, and the KYC case. -/
structure Findings where
  profileActive : Bool
  currencyActive : Bool
  kycNeeded : Option Bool
  kycApproved : Bool
  isCustomerType : ℤ → Bool

/-- The request of `createCustomer`. -/
structure NewCustomer where
  msisdn : ℤ
  walletCode : ℤ := 103
  currency : String
  iban : Option String := none
  swiftBic : Option String := none

/-- The request of `createAdditionalForActor`. -/
structure NewWallet where
  walletCode : ℤ
  currency : String
  iban : Option String := none
  swiftBic : Option String := none

/-- The request as it is stored. -/
def NewCustomer.opening (customer : NewCustomer) (kycRequired : Bool) : Opening where
  walletCode := customer.walletCode
  currency := customer.currency
  iban := customer.iban
  swiftBic := customer.swiftBic
  kycRequired := kycRequired

/-! ## Calls under way -/

/-- A call that holds the advisory lock of a customer: it is about to insert a first
wallet or another one, has locked the wallet to be the default, or has cleared the old
default too. -/
inductive OwnerCall
  | opening (wallet : Wallet) (opening : Opening)
  | adding (wallet : Wallet)
  | locked (walletId : ℤ)
  | cleared (walletId : ℤ) (rows : List ℤ)

/-- The rows that a call has locked. -/
def OwnerCall.held : OwnerCall → List ℤ
  | opening _ _ => []
  | adding _ => []
  | locked walletId => [walletId]
  | cleared walletId rows => walletId :: rows

/-- The committed rows, and the calls under way: by customer those that hold its
advisory lock, by wallet the new status that a change is about to write. -/
structure Directory where
  wallets : Table Wallet.walletMsisdn
  profiles : List ℤ
  openings : ℤ → Option Opening
  pending : ℤ → Option OwnerCall
  changing : ℤ → Option Status

namespace Directory

def empty : Directory where
  wallets := .empty
  profiles := []
  openings := fun _ => none
  pending := fun _ => none
  changing := fun _ => none

/-- Let a call go on, or end, for a customer. -/
def setPending (directory : Directory) (owner : ℤ) (call : Option OwnerCall) : Directory :=
  { directory with pending := Function.update directory.pending owner call }

/-- Let a change of status go on, or end, on a wallet. -/
def setChanging (directory : Directory) (walletId : ℤ) (status : Option Status) : Directory :=
  { directory with changing := Function.update directory.changing walletId status }

theorem setPending_pending (directory : Directory) (owner : ℤ) (call : Option OwnerCall)
    (other : ℤ) : (directory.setPending owner call).pending other =
      if other = owner then call else directory.pending other := by
  simp [setPending, Function.update_apply]

theorem setChanging_changing (directory : Directory) (walletId : ℤ) (status : Option Status)
    (other : ℤ) : (directory.setChanging walletId status).changing other =
      if other = walletId then status else directory.changing other := by
  simp [setChanging, Function.update_apply]

/-- Nobody holds the advisory lock of a customer. -/
def Free (directory : Directory) (owner : ℤ) : Prop :=
  (directory.pending owner).isNone

instance (directory : Directory) (owner : ℤ) : Decidable (directory.Free owner) :=
  inferInstanceAs (Decidable (_ = true))

/-- A row is locked by a call of its owner. -/
def Locked (directory : Directory) (wallet : Wallet) : Prop :=
  ∃ call ∈ directory.pending wallet.ownerMsisdn, wallet.walletMsisdn ∈ call.held

instance (directory : Directory) (wallet : Wallet) : Decidable (directory.Locked wallet) :=
  inferInstanceAs (Decidable (∃ call ∈ directory.pending wallet.ownerMsisdn, _))

/-- The unique indexes already have a row like this one: the number, the open default and
the open main wallet of a customer, and the IBAN. -/
def IndexTaken (wallets : List Wallet) (wallet : Wallet) : Prop :=
  ∃ other ∈ wallets, other.walletMsisdn = wallet.walletMsisdn ∨
    (wallet.isCustomer ∧ wallet.isDefault ∧ wallet.status ≠ .closed ∧
      other.OwnedBy wallet.ownerMsisdn ∧ other.isDefault ∧ other.status ≠ .closed) ∨
    (wallet.isCustomer ∧ wallet.purpose = .customerMain ∧ wallet.status ≠ .closed ∧
      other.OwnedBy wallet.ownerMsisdn ∧ other.purpose = .customerMain ∧
      other.status ≠ .closed) ∨
    (wallet.iban ≠ none ∧ other.iban = wallet.iban)

instance (wallets : List Wallet) (wallet : Wallet) : Decidable (IndexTaken wallets wallet) :=
  inferInstanceAs (Decidable (∃ other ∈ wallets, _))

/-! ## Opening the first wallet -/

/-- The row of `insertDefaultWallet`. -/
def defaultWallet (owner walletCode : ℤ) (currency : String) (iban swiftBic : Option String) :
    Wallet where
  walletMsisdn := owner
  walletCode := walletCode
  ownerMsisdn := owner
  currency := currency
  isDefault := true
  purpose := .customerMain
  iban := iban
  swiftBic := swiftBic

/-- The customer has an open wallet. -/
def HasOpen (directory : Directory) (owner : ℤ) : Prop :=
  ∃ wallet ∈ directory.wallets.rows, wallet.OwnedBy owner ∧ wallet.status ≠ .closed

instance (directory : Directory) (owner : ℤ) : Decidable (directory.HasOpen owner) :=
  inferInstanceAs (Decidable (∃ wallet ∈ directory.wallets.rows, _))

/-- The profile of a new customer. -/
def addProfile (directory : Directory) (owner : ℤ) : Directory :=
  { directory with
    profiles := if owner ∈ directory.profiles then directory.profiles
      else directory.profiles ++ [owner] }

/-- Store the request to open an account. -/
def setOpening (directory : Directory) (owner : ℤ) (opening : Opening) : Directory :=
  { directory with openings := Function.update directory.openings owner (some opening) }

/-- `createCustomer` up to the insert.  Without the KYC approval that is needed only the
profile and the request are stored. -/
def createCustomer (directory : Directory) (customer : NewCustomer) (findings : Findings) :
    Option Directory := do
  let owner := customer.msisdn
  if directory.Free owner then
    if owner ∈ directory.profiles ∧ (directory.HasOpen owner ∨ !findings.profileActive) then none
    else if !findings.currencyActive then none
    else
      let kycNeeded ← findings.kycNeeded
      if (directory.wallets.find? owner).isSome then none
      else if kycNeeded && !findings.kycApproved then
        if (directory.openings owner).any Opening.opened then none
        else some ((directory.addProfile owner).setOpening owner (customer.opening true))
      else
        some (directory.setPending owner (some (.opening
          (defaultWallet owner customer.walletCode customer.currency customer.iban
            customer.swiftBic)
          { customer.opening kycNeeded with opened := true })))
  else none

/-- `completeCustomerAccountOpening` up to the insert.  A request that is already opened
is left as it is. -/
def completeCustomerAccountOpening (directory : Directory) (owner : ℤ) (findings : Findings) :
    Option Directory := do
  if directory.Free owner then
    if owner ∈ directory.profiles ∧ findings.profileActive then
      let opening ← directory.openings owner
      if opening.opened then some directory
      else
        let kycNeeded ← findings.kycNeeded
        if (kycNeeded || opening.kycRequired) && !findings.kycApproved then none
        else if !findings.currencyActive then none
        else if (directory.wallets.find? owner).isSome then none
        else
          some (directory.setPending owner (some (.opening
            (defaultWallet owner opening.walletCode opening.currency opening.iban
              opening.swiftBic)
            { opening with opened := true })))
    else none
  else none

/-- Insert a wallet, unless that violates a unique index. -/
def insertWallet (directory : Directory) (wallet : Wallet) : Option Directory :=
  if IndexTaken directory.wallets.rows wallet then none
  else (directory.wallets.insert? wallet).map fun wallets => { directory with wallets := wallets }

/-! ## Opening another wallet -/

/-- `createAdditionalForActor` up to the insert, with the next value of the sequence. -/
def createAdditionalForActor (directory : Directory) (owner : ℤ) (request : NewWallet)
    (findings : Findings) (number : ℤ) : Option Directory := do
  if directory.Free owner then
    if owner ∉ directory.profiles ∨ !findings.profileActive ∨ !findings.currencyActive then none
    else
      let kycNeeded ← findings.kycNeeded
      if kycNeeded && !findings.kycApproved then none
      else if ∃ wallet ∈ directory.wallets.rows, wallet.OwnedBy owner ∧
          wallet.walletCode = request.walletCode ∧
          wallet.currency.toUpper = request.currency ∧ wallet.status ≠ .closed then none
      else
        let globalMain ← directory.wallets.rows.find? fun wallet =>
          wallet.OwnedBy owner ∧ wallet.purpose = .customerMain ∧ wallet.status ≠ .closed
        let currencyMain := directory.wallets.rows.find? fun wallet =>
          wallet.OwnedBy owner ∧ wallet.currency.toUpper = request.currency ∧
            wallet.status ≠ .closed ∧ findings.isCustomerType wallet.walletCode
        if request.walletCode ≠ 103 ∧ currencyMain = none then none
        else
          some (directory.setPending owner (some (.adding
            { walletMsisdn := number
              walletCode := request.walletCode
              ownerMsisdn := owner
              currency := request.currency
              parent := some (currencyMain.getD globalMain).walletMsisdn
              iban := request.iban
              swiftBic := request.swiftBic })))
  else none

/-! ## Choosing the default -/

/-- `setDefaultForActor` up to the lock of the wallet. -/
def setDefaultForActor (directory : Directory) (owner walletId : ℤ) : Option Directory := do
  if directory.Free owner ∧ directory.changing walletId = none then
    let wallet ← directory.wallets.find? walletId
    if wallet.OwnedBy owner ∧ wallet.status = .active then
      some (directory.setPending owner (some (.locked walletId)))
    else none
  else none

/-- The rows that the first update of `setDefaultForActor` finds. -/
def defaultRows (directory : Directory) (owner : ℤ) : List ℤ :=
  (directory.wallets.rows.filter fun wallet =>
    wallet.OwnedBy owner ∧ (wallet.isDefault ∨ wallet.purpose = .customerMain)).map
      Wallet.walletMsisdn

/-- The first update of `setDefaultForActor`, which waits for the rows that it finds. -/
def clearDefault (directory : Directory) (owner : ℤ) : Option Directory :=
  match directory.pending owner with
  | some (.locked walletId) =>
    let rows := directory.defaultRows owner
    if ∀ row ∈ rows, directory.changing row = none then
      some (directory.setPending owner (some (.cleared walletId rows)))
    else none
  | _ => none

/-- What the two updates make of a row. -/
def rechosen (owner walletId : ℤ) (rows : List ℤ) (wallet : Wallet) : Wallet :=
  if wallet.OwnedBy owner ∧ wallet.walletMsisdn = walletId then
    { wallet with isDefault := true, purpose := .customerMain }
  else if wallet.OwnedBy owner ∧ wallet.walletMsisdn ∈ rows then
    { wallet with
      isDefault := false
      purpose := if wallet.purpose = .customerMain then .customerAdditional else wallet.purpose }
  else wallet

@[simp] theorem rechosen_walletMsisdn (owner walletId : ℤ) (rows : List ℤ) (wallet : Wallet) :
    (rechosen owner walletId rows wallet).walletMsisdn = wallet.walletMsisdn := by
  unfold rechosen
  split
  case isTrue => rfl
  case isFalse => split <;> rfl

/-- The wallets after both updates of `setDefaultForActor`. -/
def rechoose (directory : Directory) (owner walletId : ℤ) (rows : List ℤ) : Directory :=
  { directory with
    wallets := directory.wallets.map (rechosen owner walletId rows)
      (rechosen_walletMsisdn owner walletId rows) }

/-- The second update violates a unique index: the customer has another default or main
wallet that the first has not found. -/
def Contested (directory : Directory) (owner walletId : ℤ) (rows : List ℤ) : Prop :=
  ∃ other ∈ directory.wallets.rows, other.OwnedBy owner ∧ other.walletMsisdn ≠ walletId ∧
    other.walletMsisdn ∉ rows ∧ (other.isDefault ∨ other.purpose = .customerMain) ∧
    other.status ≠ .closed

instance (directory : Directory) (owner walletId : ℤ) (rows : List ℤ) :
    Decidable (directory.Contested owner walletId rows) :=
  inferInstanceAs (Decidable (∃ other ∈ directory.wallets.rows, _))

/-- The last write of the call that a customer's lock is held by, and its end. -/
def finish (directory : Directory) (owner : ℤ) : Option Directory := do
  match ← directory.pending owner with
  | .opening wallet opening =>
    let inserted ← directory.insertWallet wallet
    some (((inserted.addProfile owner).setOpening owner opening).setPending owner none)
  | .adding wallet =>
    let inserted ← directory.insertWallet wallet
    some (inserted.setPending owner none)
  | .locked _ => none
  | .cleared walletId rows =>
    if directory.Contested owner walletId rows then none
    else some ((directory.rechoose owner walletId rows).setPending owner none)

/-! ## Changing the status -/

/-- `changeStatus` up to the update, which waits for the lock of the row. -/
def changeStatus (directory : Directory) (walletId : ℤ) (status : Status) : Option Directory := do
  let wallet ← directory.wallets.find? walletId
  if directory.changing walletId = none ∧ ¬ directory.Locked wallet then
    if wallet.purpose = .customerMain ∧ status = .closed then none
    else if wallet.isDefault ∧ status ≠ .active then none
    else if wallet.status = status then some directory
    else some (directory.setChanging walletId (some status))
  else none

def restate (directory : Directory) (walletId : ℤ) (status : Status) : Directory :=
  { directory with
    wallets := directory.wallets.modify walletId (fun wallet => { wallet with status := status })
      fun _ => rfl }

/-- The update of `changeStatus`, unless it violates a unique index, and its end. -/
def writeStatus (directory : Directory) (walletId : ℤ) : Option Directory := do
  let status ← directory.changing walletId
  let wallet ← directory.wallets.find? walletId
  if IndexTaken (directory.wallets.rows.filter fun other => other.walletMsisdn ≠ walletId)
      { wallet with status := status } then none
  else some ((directory.restate walletId status).setChanging walletId none)

end Directory

/-! ## Steps -/

/-- A call as far as it goes at once, the next step of one, or its end without effect. -/
inductive WalletEvent
  | createCustomer (customer : NewCustomer) (findings : Findings)
  | completeCustomerAccountOpening (owner : ℤ) (findings : Findings)
  | createAdditional (owner : ℤ) (request : NewWallet) (findings : Findings) (number : ℤ)
  | setDefault (owner walletId : ℤ)
  | clearDefault (owner : ℤ)
  | finish (owner : ℤ)
  | rollback (owner : ℤ)
  | changeStatus (walletId : ℤ) (status : Status)
  | writeStatus (walletId : ℤ)
  | rollbackStatus (walletId : ℤ)

def Directory.step (directory : Directory) : WalletEvent → Option Directory
  | .createCustomer customer findings => directory.createCustomer customer findings
  | .completeCustomerAccountOpening owner findings =>
    directory.completeCustomerAccountOpening owner findings
  | .createAdditional owner request findings number =>
    directory.createAdditionalForActor owner request findings number
  | .setDefault owner walletId => directory.setDefaultForActor owner walletId
  | .clearDefault owner => directory.clearDefault owner
  | .finish owner => directory.finish owner
  | .rollback owner => some (directory.setPending owner none)
  | .changeStatus walletId status => directory.changeStatus walletId status
  | .writeStatus walletId => directory.writeStatus walletId
  | .rollbackStatus walletId => some (directory.setChanging walletId none)

end Finify.Wallets
