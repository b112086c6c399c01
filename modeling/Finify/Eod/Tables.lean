/-
# The tables of the accounting day

What `sw_proc_accounting_close_eod` reads and writes for one reporting entity: wallets
with their GL mapping, journals with their entries, periods, batches, runs and the
balances of a closed day.  A date is the number of its day, money is kept in hundredths.
Left out are the steps of a run, which repeat its exceptions and totals, generated
row numbers that only join rows kept together here, and names that nothing reads.
-/

import Finify.Posting.Ledger

namespace Finify.Eod

open Finify.Foundations
open Finify.Posting (JournalStatus)

/-- A day, by its number. -/
abbrev Date := ℤ

/-! ## Rows -/

/-- `account_type` of a GL account. -/
inductive AccountType
  | asset
  | liability
  | equity
  | income
  | expense
  deriving DecidableEq, Repr

/-- `account_type IN ('ASSET','LIABILITY','EQUITY')`. -/
def AccountType.carriesBalance : AccountType → Bool
  | asset | liability | equity => true
  | income | expense => false

/-- `normal_balance` of a GL account. -/
inductive NormalBalance
  | debit
  | credit
  deriving DecidableEq, Repr

/-- `SW_TBL_WALLET`. -/
structure Wallet where
  walletMsisdn : ℤ
  walletCode : ℤ
  amount : ℤ
  currency : String
  deriving DecidableEq

/-- `sw_tbl_gl_account`. -/
structure GlAccount where
  accountCode : String
  accountType : AccountType
  normalBalance : NormalBalance
  isActive : Bool := true
  deriving DecidableEq

/-- `sw_tbl_wallet_gl_mapping`. -/
structure Mapping where
  walletCode : ℤ
  glAccountCode : String
  isSafeguarded : Bool := false
  isActive : Bool := true
  deriving DecidableEq

/-- `sw_tbl_accounting_configuration`. -/
structure Configuration where
  currency : String
  masterWallet : ℤ
  strictSafeguarding : Bool := true
  effectiveFrom : Date
  effectiveTo : Option Date := none
  isActive : Bool := true
  deriving DecidableEq

/-- `sw_tbl_accounting_journal`. -/
structure Journal where
  id : ℕ
  businessDate : Date
  currency : String
  status : JournalStatus
  deriving DecidableEq

/-- `sw_tbl_accounting_entry`.  `entryDate` is the time its transaction started. -/
structure Entry where
  id : ℕ
  journalId : ℕ
  businessDate : Date
  currency : String
  debit : ℤ
  credit : ℤ
  entryDate : ℤ
  accountNumber : ℤ
  balanceBefore : Option ℤ
  balanceAfter : Option ℤ
  deriving DecidableEq

/-- `status` of a period. -/
inductive PeriodStatus
  | opened
  | closing
  | closed
  | reopened
  | failed
  deriving DecidableEq, Repr

/-- `sw_tbl_accounting_period`. -/
structure Period where
  businessDate : Date
  currency : String
  status : PeriodStatus := .opened
  closeVersion : ℕ := 0
  closingStartedAt : Option ℤ := none
  closedAt : Option ℤ := none
  closedBy : Option String := none
  deriving DecidableEq

/-- `UQ_ACCOUNTING_PERIOD`. -/
def Period.key (period : Period) : Date × String := (period.businessDate, period.currency)

/-- `status` of a batch. -/
inductive BatchStatus
  | running
  | completed
  | partially
  | failed
  deriving DecidableEq, Repr

/-- `sw_tbl_eod_batch`, one for each date. -/
structure Batch where
  businessDate : Date
  status : BatchStatus := .running
  requestedBy : String
  correlationId : Option String := none
  completedAt : Option ℤ := none
  deriving DecidableEq

/-- `status` of a run. -/
inductive RunStatus
  | running
  | validated
  | completed
  | failed
  | blocked
  deriving DecidableEq, Repr

/-- `severity` of an exception. -/
inductive Severity
  | info
  | warning
  | error
  | critical
  deriving DecidableEq, Repr

/-- `severity IN ('ERROR','CRITICAL')`. -/
def Severity.blocks : Severity → Bool
  | error | critical => true
  | info | warning => false

/-- `context` of an exception. -/
inductive Context
  | count (count : ℕ)
  | safeguarding (masterBalance : Option ℤ) (safeguardedLiability variance : ℤ)
  deriving DecidableEq, Repr

/-- `sw_tbl_eod_exception`, kept with its run. -/
structure EodException where
  exceptionCode : String
  severity : Severity
  message : String
  context : Context
  deriving DecidableEq, Repr

/-- The figures of a run. -/
structure Totals where
  totalDebit : ℤ := 0
  totalCredit : ℤ := 0
  journalCount : ℕ := 0
  entryCount : ℕ := 0
  walletCount : ℕ := 0
  masterBalance : Option ℤ := none
  safeguardedLiability : Option ℤ := none
  safeguardingVariance : Option ℤ := none
  deriving DecidableEq, Repr

/-- `sw_tbl_eod_run` with its exceptions. -/
structure Run where
  businessDate : Date
  currency : String
  runVersion : ℕ
  dryRun : Bool
  status : RunStatus
  requestedBy : String
  totals : Totals
  errorCode : Option String
  errorMessage : Option String
  completedAt : Option ℤ
  exceptions : List EodException
  deriving DecidableEq

/-- `UQ_EOD_RUN_VERSION`. -/
def Run.key (run : Run) : Date × String × ℕ := (run.businessDate, run.currency, run.runVersion)

/-- `sw_tbl_daily_wallet_balance`.  `runVersion` stands for the `run_id`, as the run is one of
the same date and currency. -/
structure WalletBalance where
  businessDate : Date
  currency : String
  walletMsisdn : ℤ
  walletCode : ℤ
  glAccountCode : String
  openingBalance : ℤ
  totalDebit : ℤ
  totalCredit : ℤ
  closingBalance : ℤ
  transactionCount : ℕ
  runVersion : ℕ
  deriving DecidableEq

def WalletBalance.key (balance : WalletBalance) : Date × String × ℤ :=
  (balance.businessDate, balance.currency, balance.walletMsisdn)

/-- `sw_tbl_daily_gl_balance`. -/
structure GlBalance where
  businessDate : Date
  currency : String
  glAccountCode : String
  openingBalance : ℤ
  totalDebit : ℤ
  totalCredit : ℤ
  closingBalance : ℤ
  runVersion : ℕ
  deriving DecidableEq

def GlBalance.key (balance : GlBalance) : Date × String × String :=
  (balance.businessDate, balance.currency, balance.glAccountCode)

/-- The database of one reporting entity as the close sees it. -/
structure Books where
  wallets : Table Wallet.walletMsisdn
  mappings : Table Mapping.walletCode
  accounts : Table GlAccount.accountCode
  configurations : List Configuration
  journals : Log Journal.id
  entries : Log Entry.id
  periods : Table Period.key
  batches : Table Batch.businessDate
  runs : Table Run.key
  walletBalances : Table WalletBalance.key
  glBalances : Table GlBalance.key

/-! ## Reading the tables -/

namespace Books

variable (books : Books) (date : Date) (currency : String)

/-- The configuration in force on a date: the one that took effect last. -/
def configuration : Option Configuration :=
  latest Configuration.effectiveFrom (books.configurations.filter fun config =>
    config.currency = currency ∧ config.isActive ∧ config.effectiveFrom ≤ date ∧
      ∀ last ∈ config.effectiveTo, date ≤ last)

def dayJournals : List Journal :=
  books.journals.rows.filter fun journal =>
    journal.businessDate = date ∧ journal.currency = currency

def dayEntries : List Entry :=
  books.entries.rows.filter fun entry => entry.businessDate = date ∧ entry.currency = currency

def journalEntries (journalId : ℕ) : List Entry :=
  books.entries.rows.filter fun entry => entry.journalId = journalId

def walletsOf : List Wallet :=
  books.wallets.rows.filter fun wallet => wallet.currency.toUpper = currency

def activeMapping (walletCode : ℤ) : Option Mapping :=
  (books.mappings.find? walletCode).filter Mapping.isActive

/-- The `Amount` of a wallet. -/
def balance (wallet : ℤ) : Option ℤ :=
  (books.wallets.find? wallet).map Wallet.amount

def period : Option Period :=
  books.periods.find? (date, currency)

def periodStatus : Option PeriodStatus :=
  (books.period date currency).map Period.status

/-- The run that closed a date: the completed one with the highest version. -/
def completedRun : Option Run :=
  latest Run.runVersion (books.runs.rows.filter fun run =>
    run.businessDate = date ∧ run.currency = currency ∧ run.status = .completed ∧
      run.dryRun = false)

def nextVersion : ℕ :=
  ((books.runs.rows.filter fun run =>
    run.businessDate = date ∧ run.currency = currency).map Run.runVersion).foldr max 0 + 1

/-- The balance row of a wallet on the last closed date before this one. -/
def previousBalance (wallet : ℤ) : Option WalletBalance :=
  latest WalletBalance.businessDate (books.walletBalances.rows.filter fun prior =>
    prior.currency = currency ∧ prior.walletMsisdn = wallet ∧ prior.businessDate < date)

def previousClosing (wallet : ℤ) : Option ℤ :=
  (books.previousBalance date currency wallet).map WalletBalance.closingBalance

/-- The closing balance of a GL account on the last closed date before this one. -/
def previousGlClosing (accountCode : String) : Option ℤ :=
  (latest GlBalance.businessDate (books.glBalances.rows.filter fun prior =>
    prior.currency = currency ∧ prior.glAccountCode = accountCode ∧
      prior.businessDate < date)).map GlBalance.closingBalance

/-- A version that no run of the date and currency has. -/
theorem nextVersion_fresh (run : Run) (hrun : run ∈ books.runs.rows) :
    run.key ≠ (date, currency, books.nextVersion date currency) := by
  intro hkey
  simp only [Run.key, Prod.mk.injEq] at hkey
  have hmem : run.runVersion ∈ (books.runs.rows.filter fun run =>
      run.businessDate = date ∧ run.currency = currency).map Run.runVersion :=
    List.mem_map_of_mem (List.mem_filter.mpr ⟨hrun, by simp [hkey.1, hkey.2.1]⟩)
  have hle := List.le_max_of_le hmem le_rfl
  rw [hkey.2.2, nextVersion] at hle
  exact absurd hle (Nat.not_succ_le_self _)

end Books

end Finify.Eod
