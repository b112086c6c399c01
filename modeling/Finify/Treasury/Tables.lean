/-
# The tables of treasury funding

What `createTreasuryFunding` and `reviewTreasuryFunding` read and write: wallets,
requests, evidence documents, journals with their entries, and the audit of wallet
operations.  Requests carry the checks of their table as a predicate that every
write has to meet.  Money is kept in hundredths.  Left out are descriptions, payloads
and times, which nothing reads.
-/

import Finify.Posting.Ledger
import Finify.Pricing.Registry

namespace Finify.Treasury

open Finify.Foundations
open Finify.Posting (Entry Operation JournalStatus)
open Finify.Pricing (Administrator)

/-! ## Operations -/

/-- `direction`. -/
inductive Direction
  | credit
  | debit
  deriving DecidableEq, Repr

/-- What a movement adds to a balance. -/
def Direction.signed (amount : ℤ) : Direction → ℤ
  | credit => amount
  | debit => -amount

/-- `funding_type`. -/
inductive FundingType
  | safeguarding
  | commissionFunding
  | chargeRevenue
  deriving DecidableEq, Repr

/-- `funding_type.replace(/_/g, ' ').toLowerCase()`. -/
def FundingType.words : FundingType → String
  | safeguarding => "safeguarding"
  | commissionFunding => "commission funding"
  | chargeRevenue => "charge revenue"

/-- `business_purpose`. -/
inductive BusinessPurpose
  | safeguardingFunding
  | commissionFunding
  | safeguardingWithdrawal
  | grossProfitWithdrawal
  deriving DecidableEq, Repr

/-- `funding_classification`. -/
inductive Classification
  | ownerInvestment
  | customerFunds
  | bankPrefunding
  | notApplicable
  deriving DecidableEq, Repr

/-- `classification.replace(/_/g, ' ').toLowerCase()`. -/
def Classification.words : Classification → String
  | ownerInvestment => "owner investment"
  | customerFunds => "customer funds"
  | bankPrefunding => "bank prefunding"
  | notApplicable => "not applicable"

/-- The keys of `operations`. -/
inductive FundingOperation
  | addSafeguarding
  | addCommissionFunding
  | withdrawSafeguarding
  | withdrawChargeRevenue
  deriving DecidableEq, Repr

namespace FundingOperation

/-- `operations[name]`. -/
def ofName : String → Option FundingOperation
  | "ADD_SAFEGUARDING" => some addSafeguarding
  | "ADD_COMMISSION_FUNDING" => some addCommissionFunding
  | "WITHDRAW_SAFEGUARDING" => some withdrawSafeguarding
  | "WITHDRAW_CHARGE_REVENUE" => some withdrawChargeRevenue
  | _ => none

def direction : FundingOperation → Direction
  | addSafeguarding => .credit
  | addCommissionFunding => .credit
  | withdrawSafeguarding => .debit
  | withdrawChargeRevenue => .debit

def fundingType : FundingOperation → FundingType
  | addSafeguarding => .safeguarding
  | addCommissionFunding => .commissionFunding
  | withdrawSafeguarding => .safeguarding
  | withdrawChargeRevenue => .chargeRevenue

def walletCode : FundingOperation → ℤ
  | addSafeguarding => 110
  | addCommissionFunding => 114
  | withdrawSafeguarding => 110
  | withdrawChargeRevenue => 113

def businessPurpose : FundingOperation → BusinessPurpose
  | addSafeguarding => .safeguardingFunding
  | addCommissionFunding => .commissionFunding
  | withdrawSafeguarding => .safeguardingWithdrawal
  | withdrawChargeRevenue => .grossProfitWithdrawal

end FundingOperation

/-- A row of `safeguardingContra`. -/
structure Contra where
  walletCode : ℤ
  category : String
  deriving DecidableEq

/-- `safeguardingContra[classification]`. -/
def Classification.contra? : Classification → Option Contra
  | ownerInvestment => some { walletCode := 116, category := "OWNER_CAPITAL" }
  | customerFunds => some { walletCode := 117, category := "CUSTOMER_FUNDS_LIABILITY" }
  | bankPrefunding => some { walletCode := 115, category := "BANK_PREFUNDING" }
  | notApplicable => none

/-! ## Rows -/

/-- `SW_TBL_WALLET`.  Whatever opens a wallet writes its currency in capitals. -/
structure Wallet where
  walletMsisdn : ℤ
  ownerMsisdn : ℤ
  isSystem : Bool := true
  walletCode : ℤ
  amount : ℤ := 0
  balanceBefore : ℤ := 0
  lastTransactionId : Option ℤ := none
  lastTransactionAmount : Option ℤ := none
  modifiedBy : Option String := none
  currency : String
  status : Option ℤ := some 0
  currency_upper : currency.toUpper = currency

/-- `status` of a request. -/
inductive FundingStatus
  | pending
  | approved
  | rejected
  | cancelled
  deriving DecidableEq, Repr

def FundingStatus.text : FundingStatus → String
  | pending => "PENDING"
  | approved => "APPROVED"
  | rejected => "REJECTED"
  | cancelled => "CANCELLED"

/-- `treasury_funding_requests`. -/
structure FundingRequest where
  id : ℕ
  fundingType : FundingType
  walletMsisdn : ℤ
  walletCode : ℤ
  currency : String
  amount : ℤ
  reference : String
  maker : Administrator
  makerComment : String
  direction : Direction
  bankName : String
  bankAccount : String
  valueDate : String
  evidenceReference : String
  businessPurpose : BusinessPurpose
  classification : Classification
  status : FundingStatus := .pending
  checker : Option Administrator := none
  checkerComment : Option String := none
  walletBalanceBefore : Option ℤ := none
  walletBalanceAfter : Option ℤ := none
  accountingJournalId : Option ℕ := none

namespace FundingRequest

/-- `CK_TREASURY_MOVEMENT_TARGET`. -/
def TargetChecked (request : FundingRequest) : Prop :=
  (request.direction = .credit ∧
      ((request.fundingType = .safeguarding ∧ request.walletCode = 110) ∨
        (request.fundingType = .commissionFunding ∧ request.walletCode = 114))) ∨
    (request.direction = .debit ∧
      ((request.fundingType = .safeguarding ∧ request.walletCode = 110) ∨
        (request.fundingType = .chargeRevenue ∧ request.walletCode = 113)))

instance (request : FundingRequest) : Decidable request.TargetChecked :=
  inferInstanceAs (Decidable (_ ∨ _))

/-- `CK_TREASURY_MOVEMENT_BALANCES`. -/
def BalancesChecked (request : FundingRequest) : Prop :=
  (request.status = .approved ∧
      ∃ before ∈ request.walletBalanceBefore, ∃ after ∈ request.walletBalanceAfter,
        0 ≤ after ∧ after = before + request.direction.signed request.amount) ∨
    (request.status ≠ .approved ∧ request.walletBalanceBefore = none ∧
      request.walletBalanceAfter = none)

instance (request : FundingRequest) : Decidable request.BalancesChecked :=
  inferInstanceAs (Decidable (_ ∨ _))

/-- The checks of the table. -/
structure Checked (request : FundingRequest) : Prop where
  amount : 0 < request.amount
  target : request.TargetChecked
  differentChecker : ∀ checker ∈ request.checker,
    checker.username.toLower ≠ request.maker.username.toLower
  balances : request.BalancesChecked
  classification : request.fundingType = .safeguarding ↔ request.classification ≠ .notApplicable
  journal : request.status = .approved → request.fundingType = .safeguarding →
    request.accountingJournalId ≠ none

instance (request : FundingRequest) : Decidable request.Checked :=
  decidable_of_iff
    (0 < request.amount ∧ request.TargetChecked ∧
      (∀ checker ∈ request.checker,
        checker.username.toLower ≠ request.maker.username.toLower) ∧
      request.BalancesChecked ∧
      (request.fundingType = .safeguarding ↔ request.classification ≠ .notApplicable) ∧
      (request.status = .approved → request.fundingType = .safeguarding →
        request.accountingJournalId ≠ none))
    ⟨fun ⟨h₁, h₂, h₃, h₄, h₅, h₆⟩ => ⟨h₁, h₂, h₃, h₄, h₅, h₆⟩,
      fun h => ⟨h.1, h.2, h.3, h.4, h.5, h.6⟩⟩

end FundingRequest

/-- `status` of a document. -/
inductive DocumentStatus
  | uploaded
  | attached
  deriving DecidableEq, Repr

/-- `treasury_documents`. -/
structure Document where
  id : ℕ
  status : DocumentStatus := .uploaded
  uploadedBy : Administrator
  treasuryRequestId : Option ℕ := none

/-- `sw_tbl_accounting_journal`, with the columns that treasury funding writes. -/
structure Journal where
  id : ℕ
  transactionId : ℤ
  operation : Operation
  status : JournalStatus
  keyword : String
  reference : String
  currency : String
  businessDate : String

/-- `operation` of an audit record. -/
inductive WalletOperation
  | treasuryFunding
  | treasuryWithdrawal
  deriving DecidableEq, Repr

/-- `sw_tbl_wallet_operation_audit`, with the balances of its two states. -/
structure WalletAudit where
  walletMsisdn : ℤ
  ownerMsisdn : ℤ
  operation : WalletOperation
  previousBalance : ℤ
  newBalance : ℤ
  actor : Administrator
  correlationId : String

/-- The database as treasury funding sees it. -/
structure Books where
  wallets : Table Wallet.walletMsisdn
  requests : Log FundingRequest.id
  documents : Table Document.id
  journals : Log Journal.id
  entries : Log Entry.id
  audits : List WalletAudit
  categories : String → Option ℤ

namespace Books

/-- The `Amount` of a wallet. -/
def balance (books : Books) (wallet : ℤ) : Option ℤ :=
  (books.wallets.find? wallet).map Wallet.amount

def entriesOf (books : Books) (journal : ℕ) : List Entry :=
  books.entries.rows.filter fun entry => entry.journalId = journal

end Books

end Finify.Treasury
