/-
# The close of an accounting day

`sw_proc_accounting_close_eod`, as migration 029 leaves it.  The procedure validates
the journals of the day, and then either rehearses the close from the live balances or
takes the balances of the day and compares the safeguarding wallet with them.  The batch
and the run are inserted at its start and rewritten before it returns; here they are
written once, as they end.
-/

import Finify.Eod.Tables
import Finify.Foundations.Text

namespace Finify.Eod

open Finify.Foundations

/-! ## The call and its answer -/

/-- The parameters of the procedure and the time of the call.  `currency` is
`v_currency`, the parameter trimmed and in capitals. -/
structure CloseRequest where
  businessDate : Option Date
  currency : Option String
  requestedBy : String := "SYSTEM"
  dryRun : Bool := false
  correlationId : Option String := none
  now : ℤ := 0
  deriving DecidableEq

/-- `status_code` of the answer. -/
inductive StatusCode
  | invalidRequest
  | accountingConfigurationNotFound
  | alreadyClosed
  | readinessFailed
  | closed
  | dryRunPassed
  | reconciliationFailed
  deriving DecidableEq, Repr

namespace StatusCode

/-- `status_code` as a text. -/
def text : StatusCode → String
  | invalidRequest => "INVALID_REQUEST"
  | accountingConfigurationNotFound => "ACCOUNTING_CONFIGURATION_NOT_FOUND"
  | alreadyClosed => "ALREADY_CLOSED"
  | readinessFailed => "READINESS_FAILED"
  | closed => "CLOSED"
  | dryRunPassed => "DRY_RUN_PASSED"
  | reconciliationFailed => "RECONCILIATION_FAILED"

/-- `status_message`. -/
def message : StatusCode → String
  | invalidRequest => "A business date and ISO three-letter currency are required"
  | accountingConfigurationNotFound =>
    "No active accounting configuration exists for the entity and currency"
  | alreadyClosed => "The business date is already closed"
  | readinessFailed => "EOD journal validation failed"
  | closed => "Business date closed successfully"
  | dryRunPassed => "EOD dry run passed"
  | reconciliationFailed => "EOD controls failed; inspect exceptions"

/-- `success`. -/
def success : StatusCode → Bool
  | alreadyClosed | closed | dryRunPassed => true
  | _ => false

end StatusCode

/-- The row that the procedure returns. -/
structure CloseResult where
  statusCode : StatusCode
  runVersion : Option ℕ
  runStatus : RunStatus
  totals : Totals
  exceptionCount : ℕ
  deriving DecidableEq

/-- The zeros of an answer without figures. -/
def Totals.zero : Totals :=
  { masterBalance := some 0, safeguardedLiability := some 0, safeguardingVariance := some 0 }

/-- `v_currency ~ '^[A-Z]{3}$'`. -/
def isCurrency (currency : String) : Bool :=
  currency.length = 3 && currency.toList.all Char.isUpper

/-- A currency code is written in capitals. -/
theorem toUpper_of_isCurrency {currency : String} (hiso : isCurrency currency) :
    currency.toUpper = currency :=
  toUpper_of_capitals (List.all_eq_true.mp (Bool.and_eq_true_iff.mp hiso).2)

/-! ## Validating the journals -/

def validation (count : ℕ) (code : String) (severity : Severity) (message : String) :
    List EodException :=
  if 0 < count then
    [{ exceptionCode := code, severity := severity, message := message, context := .count count }]
  else []

/-- `count(*)` of the exceptions of severity error or critical. -/
def blockingCount (exceptions : List EodException) : ℕ :=
  exceptions.countP fun exception => exception.severity.blocks

namespace Books

variable (books : Books) (date : Date) (currency : String)

/-- `v_processing`. -/
def processing : ℕ :=
  (books.dayJournals date currency).countP fun journal => journal.status = .processing

/-- `v_unbalanced`. -/
def unbalanced : ℕ :=
  (books.dayJournals date currency).countP fun journal =>
    ((books.journalEntries journal.id).map Entry.debit).sum ≠
      ((books.journalEntries journal.id).map Entry.credit).sum

/-- `v_unmapped`. -/
def unmapped : ℕ :=
  (books.dayEntries date currency).countP fun entry =>
    (books.wallets.find? entry.accountNumber).any fun wallet =>
      (books.activeMapping wallet.walletCode).isNone

/-- `v_currency_mismatch`. -/
def currencyMismatch : ℕ :=
  (books.dayEntries date currency).countP fun entry =>
    (books.wallets.find? entry.accountNumber).any fun wallet =>
      wallet.currency.toUpper ≠ currency

/-- `JOURNAL_VALIDATION`. -/
def journalValidation : List EodException :=
  validation (books.processing date currency) "JOURNALS_PROCESSING" .error
      "Accounting journals are still processing" ++
    validation (books.unbalanced date currency) "UNBALANCED_JOURNALS" .critical
      "One or more journals are unbalanced" ++
    validation (books.unmapped date currency) "UNMAPPED_WALLETS" .error
      "Wallets with accounting activity lack a GL mapping" ++
    validation (books.currencyMismatch date currency) "WALLET_CURRENCY_MISMATCH" .critical
      "Journal and wallet currencies do not match"

/-- The figures of the day's entries. -/
def activity : Totals :=
  { totalDebit := ((books.dayEntries date currency).map Entry.debit).sum
    totalCredit := ((books.dayEntries date currency).map Entry.credit).sum
    journalCount := ((books.dayEntries date currency).map Entry.journalId).dedup.length
    entryCount := (books.dayEntries date currency).length }

/-! ## The balances of the day -/

def walletActivity (wallet : ℤ) : List Entry :=
  (books.dayEntries date currency).filter fun entry => entry.accountNumber = wallet

end Books

/-- `ORDER BY entrydate, id`. -/
def Entry.stamp (entry : Entry) : ℤ ×ₗ ℕ := toLex (entry.entryDate, entry.id)

/-- `(array_agg(balance_before ORDER BY entrydate, id))[1]`. -/
def openingOf (entries : List Entry) : Option ℤ :=
  (earliest Entry.stamp entries).bind Entry.balanceBefore

/-- `(array_agg(balance_after ORDER BY entrydate DESC, id DESC))[1]`. -/
def closingOf (entries : List Entry) : Option ℤ :=
  (latest Entry.stamp entries).bind Entry.balanceAfter

namespace Books

variable (books : Books) (date : Date) (currency : String)

/-- What a wallet without an entry balance of the day is taken to hold. -/
def carried (wallet : Wallet) : ℤ :=
  (books.previousClosing date currency wallet.walletMsisdn).getD wallet.amount

def walletSnapshot (wallet : Wallet) (mapping : Mapping) : WalletBalance :=
  { businessDate := date
    currency := currency
    walletMsisdn := wallet.walletMsisdn
    walletCode := wallet.walletCode
    glAccountCode := mapping.glAccountCode
    openingBalance := (openingOf (books.walletActivity date currency wallet.walletMsisdn)).getD
      (books.carried date currency wallet)
    totalDebit := ((books.walletActivity date currency wallet.walletMsisdn).map Entry.debit).sum
    totalCredit := ((books.walletActivity date currency wallet.walletMsisdn).map Entry.credit).sum
    closingBalance := (closingOf (books.walletActivity date currency wallet.walletMsisdn)).getD
      (books.carried date currency wallet)
    transactionCount := (books.walletActivity date currency wallet.walletMsisdn).length
    runVersion := books.nextVersion date currency }

/-- The balance rows of the wallets that have an active mapping. -/
def walletSnapshots : List WalletBalance :=
  (books.walletsOf currency).filterMap fun wallet =>
    (books.activeMapping wallet.walletCode).map fun mapping =>
      books.walletSnapshot date currency wallet mapping

theorem mem_walletSnapshots {balance : WalletBalance} :
    balance ∈ books.walletSnapshots date currency ↔
      ∃ wallet ∈ books.walletsOf currency, ∃ mapping,
        books.activeMapping wallet.walletCode = some mapping ∧
          books.walletSnapshot date currency wallet mapping = balance := by
  simp [walletSnapshots]

theorem nodup_walletSnapshots :
    ((books.walletSnapshots date currency).map WalletBalance.key).Nodup := by
  have hwallets : (books.walletsOf currency).Pairwise
      fun first second => first.walletMsisdn ≠ second.walletMsisdn :=
    List.Pairwise.filter _ (List.pairwise_map.mp books.wallets.nodup)
  apply List.pairwise_map.mpr
  apply List.pairwise_filterMap.mpr
  apply hwallets.imp
  intro first second hne firstRow hfirst secondRow hsecond hkey
  obtain ⟨_, _, rfl⟩ := Option.map_eq_some_iff.mp hfirst
  obtain ⟨_, _, rfl⟩ := Option.map_eq_some_iff.mp hsecond
  simp only [WalletBalance.key, walletSnapshot, Prod.mk.injEq] at hkey
  exact hne hkey.2.2

theorem ofDay_walletSnapshots (row : WalletBalance)
    (hrow : row ∈ books.walletSnapshots date currency) :
    decide (row.key.1 = date ∧ row.key.2.1 = currency) := by
  obtain ⟨_, _, _, _, rfl⟩ := (books.mem_walletSnapshots date currency).mp hrow
  exact decide_eq_true ⟨rfl, rfl⟩

/-- `WALLET_SNAPSHOT`. -/
def snapshotWallets : Books :=
  { books with
    walletBalances := books.walletBalances.replace
      (fun key => key.1 = date ∧ key.2.1 = currency)
      (books.walletSnapshots date currency)
      (books.nodup_walletSnapshots date currency)
      (books.ofDay_walletSnapshots date currency) }

def dayBalances : List WalletBalance :=
  books.walletBalances.rows.filter fun balance =>
    balance.businessDate = date ∧ balance.currency = currency

def dayGlBalances : List GlBalance :=
  books.glBalances.rows.filter fun balance =>
    balance.businessDate = date ∧ balance.currency = currency

def glActivity (accountCode : String) : List Entry :=
  (books.dayEntries date currency).filter fun entry =>
    (books.wallets.find? entry.accountNumber).any fun wallet =>
      (books.activeMapping wallet.walletCode).any fun mapping =>
        mapping.glAccountCode = accountCode

def glOpening (account : GlAccount) : ℤ :=
  (books.previousGlClosing date currency account.accountCode).getD
    (if account.accountType.carriesBalance then
      (((books.dayBalances date currency).filter fun balance =>
        balance.glAccountCode = account.accountCode).map WalletBalance.openingBalance).sum
    else 0)

def glSnapshot (account : GlAccount) : GlBalance :=
  let debit := ((books.glActivity date currency account.accountCode).map Entry.debit).sum
  let credit := ((books.glActivity date currency account.accountCode).map Entry.credit).sum
  { businessDate := date
    currency := currency
    glAccountCode := account.accountCode
    openingBalance := books.glOpening date currency account
    totalDebit := debit
    totalCredit := credit
    closingBalance :=
      match account.normalBalance with
      | .debit => books.glOpening date currency account + debit - credit
      | .credit => books.glOpening date currency account + credit - debit
    runVersion := books.nextVersion date currency }

def glSnapshots : List GlBalance :=
  (books.accounts.rows.filter GlAccount.isActive).map (books.glSnapshot date currency)

theorem nodup_glSnapshots : ((books.glSnapshots date currency).map GlBalance.key).Nodup := by
  have haccounts : (books.accounts.rows.filter GlAccount.isActive).Pairwise
      fun first second => first.accountCode ≠ second.accountCode :=
    List.Pairwise.filter _ (List.pairwise_map.mp books.accounts.nodup)
  apply List.pairwise_map.mpr
  apply List.pairwise_map.mpr
  apply haccounts.imp
  intro first second hne hkey
  simp only [GlBalance.key, glSnapshot, Prod.mk.injEq] at hkey
  exact hne hkey.2.2

theorem ofDay_glSnapshots (row : GlBalance) (hrow : row ∈ books.glSnapshots date currency) :
    decide (row.key.1 = date ∧ row.key.2.1 = currency) := by
  obtain ⟨_, _, rfl⟩ := List.mem_map.mp hrow
  exact decide_eq_true ⟨rfl, rfl⟩

/-- `GL_AGGREGATION`. -/
def snapshotGl : Books :=
  { books with
    glBalances := books.glBalances.replace
      (fun key => key.1 = date ∧ key.2.1 = currency)
      (books.glSnapshots date currency)
      (books.nodup_glSnapshots date currency)
      (books.ofDay_glSnapshots date currency) }

/-! ## Safeguarding -/

/-- `account_type='LIABILITY'`. -/
def isLiability (accountCode : String) : Bool :=
  (books.accounts.find? accountCode).any fun account => account.accountType = .liability

/-- The safeguarded liability by the stored balances of the day. -/
def snapshotLiability : ℤ :=
  (((books.dayBalances date currency).filter fun balance =>
    (books.mappings.find? balance.walletCode).any Mapping.isSafeguarded &&
      books.isLiability balance.glAccountCode).map WalletBalance.closingBalance).sum

def liveLiability : ℤ :=
  (((books.walletsOf currency).filter fun wallet =>
    (books.activeMapping wallet.walletCode).any fun mapping =>
      mapping.isSafeguarded && books.isLiability mapping.glAccountCode).map Wallet.amount).sum

end Books

/-- `SAFEGUARDING_VARIANCE`. -/
def safeguardingException (strict : Bool) (master : Option ℤ) (liability variance : ℤ) :
    List EodException :=
  if variance = 0 then []
  else
    [{ exceptionCode := "SAFEGUARDING_VARIANCE"
       severity := if variance < 0 ∧ strict then .critical else .warning
       message :=
        if variance < 0 then "Safeguarding balance is below safeguarded wallet liabilities"
        else "Safeguarding balance exceeds safeguarded wallet liabilities"
       context := .safeguarding master liability variance }]

/-! ## The procedure -/

/-- What the procedure finds out before it writes its last state. -/
structure Report where
  statusCode : StatusCode
  status : RunStatus
  stored : Totals
  returned : Totals
  errorCode : Option String
  errorMessage : Option String
  exceptions : List EodException
  deriving DecidableEq

/-- The report of a day that fails its validation. -/
def Report.notReady (exceptions : List EodException) : Report :=
  { statusCode := .readinessFailed
    status := .blocked
    stored := {}
    returned := .zero
    errorCode := some "READINESS_FAILED"
    errorMessage := some "Journal validation failed"
    exceptions := exceptions }

/-- The report after the safeguarding comparison. -/
def Report.compared (dryRun strict : Bool) (activity : Totals) (walletCount : ℕ)
    (master : Option ℤ) (liability : ℤ) : Report :=
  let variance := master.getD 0 - liability
  let totals : Totals :=
    { activity with
      walletCount := walletCount
      masterBalance := master
      safeguardedLiability := some liability
      safeguardingVariance := some variance }
  let exceptions := safeguardingException strict master liability variance
  let passed : Bool := blockingCount exceptions = 0
  { statusCode :=
      if passed then (if dryRun then .dryRunPassed else .closed) else .reconciliationFailed
    status := if passed then (if dryRun then .validated else .completed) else .blocked
    stored := totals
    returned := totals
    errorCode := if passed then none else some "RECONCILIATION_FAILED"
    errorMessage := if passed then none else some "One or more EOD controls failed"
    exceptions := exceptions }

namespace Period

/-- `SET status='CLOSING'` of a period that can be closed. -/
def startClosing (now : ℤ) (period : Period) : Period :=
  if period.status = .opened ∨ period.status = .reopened ∨ period.status = .failed then
    { period with status := .closing, closingStartedAt := some now }
  else period

/-- The last rewriting of the period. -/
def finishClosing (status : RunStatus) (now : ℤ) (requestedBy : String) (period : Period) :
    Period :=
  if status = .completed then
    { period with
      status := .closed
      closeVersion := period.closeVersion + 1
      closedAt := some now
      closedBy := some requestedBy }
  else { period with status := .failed }

theorem key_startClosing (now : ℤ) (period : Period) :
    (period.startClosing now).key = period.key := by
  unfold startClosing
  split <;> rfl

theorem key_finishClosing (status : RunStatus) (now : ℤ) (requestedBy : String)
    (period : Period) : (period.finishClosing status now requestedBy).key = period.key := by
  unfold finishClosing
  split <;> rfl

end Period

def RunStatus.batchStatus (status : RunStatus) : BatchStatus :=
  if status = .completed ∨ status = .validated then .completed else .failed

namespace Books

variable (books : Books) (date : Date) (currency : String) (request : CloseRequest)
  (report : Report)

def newBatch : Batch :=
  { businessDate := date
    status := report.status.batchStatus
    requestedBy := request.requestedBy
    correlationId := request.correlationId
    completedAt := some request.now }

def rewriteBatch (batch : Batch) : Batch :=
  { batch with
    status := report.status.batchStatus
    requestedBy := request.requestedBy
    correlationId := request.correlationId <|> batch.correlationId
    completedAt := some request.now }

def newRun : Run :=
  { businessDate := date
    currency := currency
    runVersion := books.nextVersion date currency
    dryRun := request.dryRun
    status := report.status
    requestedBy := request.requestedBy
    totals := report.stored
    errorCode := report.errorCode
    errorMessage := report.errorMessage
    completedAt := some request.now
    exceptions := report.exceptions }

/-- The periods, with one of the day. -/
def openPeriods : Table Period.key :=
  books.periods.upsert { businessDate := date, currency := currency } id fun _ => rfl

/-- The periods as they end: a rehearsal only opens the day's. -/
def endPeriods : Table Period.key :=
  if request.dryRun then books.openPeriods date currency
  else
    ((books.openPeriods date currency).modify (date, currency) (Period.startClosing request.now)
        (Period.key_startClosing request.now)).modify (date, currency)
      (Period.finishClosing report.status request.now request.requestedBy)
      (Period.key_finishClosing report.status request.now request.requestedBy)

/-- Write the batch, the run and the period. -/
def record : Books :=
  { books with
    batches := books.batches.upsert (newBatch date request report)
      (rewriteBatch request report) fun _ => rfl
    runs := books.runs.add (books.newRun date currency request report)
      (books.nextVersion_fresh date currency)
    periods := books.endPeriods date currency request report }

/-- The row that is returned with a recorded run. -/
def answer : CloseResult :=
  { statusCode := report.statusCode
    runVersion := some (books.nextVersion date currency)
    runStatus := report.status
    totals := report.returned
    exceptionCount := blockingCount report.exceptions }

/-- The report of a rehearsal, from the live balances. -/
def rehearsal (config : Configuration) : Report :=
  .compared true config.strictSafeguarding (books.activity date currency)
    (books.walletsOf currency).length (books.balance config.masterWallet)
    (books.liveLiability currency)

/-- The report of a close, from the balances it has stored. -/
def settlement (config : Configuration) : Report :=
  .compared false config.strictSafeguarding (books.activity date currency)
    (books.dayBalances date currency).length (books.balance config.masterWallet)
    (books.snapshotLiability date currency)

/-- The database with the balances of the day. -/
def snapshot : Books :=
  (books.snapshotWallets date currency).snapshotGl date currency

/-- The procedure from its first write on. -/
def closeDay (config : Configuration) : Books × CloseResult :=
  let exceptions := books.journalValidation date currency
  if 0 < blockingCount exceptions then
    (books.record date currency request (.notReady exceptions),
      books.answer date currency (.notReady exceptions))
  else if request.dryRun then
    (books.record date currency request (books.rehearsal date currency config),
      books.answer date currency (books.rehearsal date currency config))
  else
    let taken := books.snapshot date currency
    (taken.record date currency request (taken.settlement date currency config),
      taken.answer date currency (taken.settlement date currency config))

end Books

/-- The answer of a call that writes nothing. -/
def refused (code : StatusCode) : CloseResult :=
  { statusCode := code
    runVersion := none
    runStatus := .failed
    totals := .zero
    exceptionCount := 1 }

/-- The answer for a day that is closed. -/
def alreadyClosed (existing : Run) : CloseResult :=
  { statusCode := .alreadyClosed
    runVersion := some existing.runVersion
    runStatus := existing.status
    totals := existing.totals
    exceptionCount := existing.exceptions.length }

/-- `sw_proc_accounting_close_eod`. -/
def closeEod (books : Books) (request : CloseRequest) : Books × CloseResult :=
  match request.businessDate with
  | none => (books, refused .invalidRequest)
  | some date =>
    match request.currency with
    -- the comparison with a null currency is null, and so is not taken
    | none => (books, refused .accountingConfigurationNotFound)
    | some currency =>
      if isCurrency currency then
        match books.configuration date currency with
        | none => (books, refused .accountingConfigurationNotFound)
        | some config =>
          match if request.dryRun then none else books.completedRun date currency with
          | some existing => (books, alreadyClosed existing)
          | none => books.closeDay date currency request config
      else (books, refused .invalidRequest)

/-! ## What a call comes to -/

/-- The day, the currency and the configuration that a call is about. -/
def Books.target (books : Books) (request : CloseRequest) :
    Option (Date × String × Configuration) :=
  request.businessDate.bind fun date =>
    request.currency.bind fun currency =>
      if isCurrency currency then
        (books.configuration date currency).map fun config => (date, currency, config)
      else none

section

variable {books : Books} {request : CloseRequest} {date : Date} {currency : String}
  {config : Configuration}

theorem Books.target_eq_some :
    books.target request = some (date, currency, config) ↔
      request.businessDate = some date ∧ request.currency = some currency ∧
        isCurrency currency ∧ books.configuration date currency = some config := by
  simp only [Books.target, Option.bind_eq_some_iff]
  constructor
  · intro hfound
    obtain ⟨d, hd, c, hc, htarget⟩ := hfound
    split at htarget
    · obtain ⟨found, hfound, hsame⟩ := Option.map_eq_some_iff.mp htarget
      cases hsame
      exact ⟨hd, hc, by assumption, hfound⟩
    · cases htarget
  · intro hfacts
    obtain ⟨hd, hc, hiso, hconfig⟩ := hfacts
    exact ⟨date, hd, currency, hc, by rw [if_pos hiso, hconfig, Option.map_some]⟩

/-- A call that is about no day writes nothing. -/
theorem closeEod_of_none (htarget : books.target request = none) :
    ∃ code, code.success = false ∧ closeEod books request = (books, refused code) := by
  unfold closeEod
  cases hdate : request.businessDate with
  | none => exact ⟨.invalidRequest, rfl, rfl⟩
  | some date =>
    cases hcurrency : request.currency with
    | none => exact ⟨.accountingConfigurationNotFound, rfl, rfl⟩
    | some currency =>
      by_cases hiso : isCurrency currency
      · cases hconfig : books.configuration date currency with
        | none =>
          refine ⟨.accountingConfigurationNotFound, rfl, ?_⟩
          simp only [hiso, if_true, hconfig]
        | some config =>
          have hsome := Books.target_eq_some.mpr ⟨hdate, hcurrency, hiso, hconfig⟩
          rw [htarget] at hsome
          cases hsome
      · exact ⟨.invalidRequest, rfl, if_neg hiso⟩

/-- A real close of a day that was closed before returns the run that closed it. -/
theorem closeEod_of_completed {existing : Run}
    (htarget : books.target request = some (date, currency, config))
    (hreal : request.dryRun = false) (hrun : books.completedRun date currency = some existing) :
    closeEod books request = (books, alreadyClosed existing) := by
  obtain ⟨hdate, hcurrency, hiso, hconfig⟩ := Books.target_eq_some.mp htarget
  simp [closeEod, hdate, hcurrency, hiso, hconfig, hreal, hrun]

/-- Any other call about a day works through it. -/
theorem closeEod_of_open (htarget : books.target request = some (date, currency, config))
    (hopen : request.dryRun = true ∨ books.completedRun date currency = none) :
    closeEod books request = books.closeDay date currency request config := by
  obtain ⟨hdate, hcurrency, hiso, hconfig⟩ := Books.target_eq_some.mp htarget
  cases hopen with
  | inl hdry => simp [closeEod, hdate, hcurrency, hiso, hconfig, hdry]
  | inr hnone => simp [closeEod, hdate, hcurrency, hiso, hconfig, hnone]

end

/-! ## The three reports -/

theorem blockingCount_validation (count : ℕ) (code : String) {severity : Severity}
    (message : String) (hblocks : severity.blocks) :
    blockingCount (validation count code severity message) = 0 ↔ count = 0 := by
  unfold validation
  split
  case isTrue hcount => simp [blockingCount, hblocks, hcount.ne']
  case isFalse hcount => simp [blockingCount, Nat.eq_zero_of_not_pos hcount]

/-- A surplus, and a deficit where safeguarding is not strict, block nothing. -/
theorem blockingCount_safeguarding (strict : Bool) (master : Option ℤ)
    (liability variance : ℤ) :
    blockingCount (safeguardingException strict master liability variance) = 0 ↔
      (strict → 0 ≤ variance) := by
  unfold safeguardingException
  split
  case isTrue hzero => simp [blockingCount, hzero]
  case isFalse hne =>
    by_cases hdeficit : variance < 0 ∧ strict
    · simp [blockingCount, hdeficit, Severity.blocks]
    · simp only [blockingCount, if_neg hdeficit, List.countP_cons, List.countP_nil,
        Severity.blocks, Bool.false_eq_true, if_false, true_iff]
      intro hstrict
      exact not_lt.mp fun hlt => hdeficit ⟨hlt, hstrict⟩

namespace Books

variable (books : Books) (date : Date) (currency : String)

/-- No journal of the day stands in the way of closing it. -/
structure Ready : Prop where
  processing : books.processing date currency = 0
  unbalanced : books.unbalanced date currency = 0
  unmapped : books.unmapped date currency = 0
  currencyMismatch : books.currencyMismatch date currency = 0

/-- The validation passes exactly when all four counts are zero. -/
theorem blockingCount_journalValidation :
    blockingCount (books.journalValidation date currency) = 0 ↔ books.Ready date currency := by
  have hcounts : blockingCount (books.journalValidation date currency) = 0 ↔
      ((books.processing date currency = 0 ∧ books.unbalanced date currency = 0) ∧
        books.unmapped date currency = 0) ∧ books.currencyMismatch date currency = 0 := by
    rw [journalValidation, blockingCount, List.countP_append, List.countP_append,
      List.countP_append, Nat.add_eq_zero_iff, Nat.add_eq_zero_iff, Nat.add_eq_zero_iff]
    exact and_congr (and_congr (and_congr (blockingCount_validation _ _ _ rfl)
      (blockingCount_validation _ _ _ rfl)) (blockingCount_validation _ _ _ rfl))
      (blockingCount_validation _ _ _ rfl)
  rw [hcounts]
  exact ⟨fun h => ⟨h.1.1.1, h.1.1.2, h.1.2, h.2⟩, fun h => ⟨⟨⟨h.1, h.2⟩, h.3⟩, h.4⟩⟩

/-- The stored balances of the day are those just taken. -/
theorem dayBalances_snapshot :
    (books.snapshot date currency).dayBalances date currency =
      books.walletSnapshots date currency :=
  Table.filter_replace books.walletBalances (fun key => key.1 = date ∧ key.2.1 = currency) _
    (books.nodup_walletSnapshots date currency) (books.ofDay_walletSnapshots date currency)

theorem dayGlBalances_snapshot :
    (books.snapshot date currency).dayGlBalances date currency =
      (books.snapshotWallets date currency).glSnapshots date currency :=
  Table.filter_replace books.glBalances (fun key => key.1 = date ∧ key.2.1 = currency) _
    ((books.snapshotWallets date currency).nodup_glSnapshots date currency)
    ((books.snapshotWallets date currency).ofDay_glSnapshots date currency)

variable {books date currency} {request : CloseRequest} {config : Configuration}

theorem closeDay_of_not_ready (hready : ¬ books.Ready date currency) :
    books.closeDay date currency request config =
      (books.record date currency request (.notReady (books.journalValidation date currency)),
        books.answer date currency (.notReady (books.journalValidation date currency))) := by
  rw [closeDay, if_pos]
  apply Nat.pos_of_ne_zero
  exact fun hzero => hready ((books.blockingCount_journalValidation date currency).mp hzero)

/-- A rehearsal of a ready day records its report and nothing else of the day. -/
theorem closeDay_of_dryRun (hready : books.Ready date currency) (hdry : request.dryRun = true) :
    books.closeDay date currency request config =
      (books.record date currency request (books.rehearsal date currency config),
        books.answer date currency (books.rehearsal date currency config)) := by
  have hzero := (books.blockingCount_journalValidation date currency).mpr hready
  simp only [closeDay, hzero, lt_irrefl, if_false, hdry, if_true]

/-- A close of a ready day takes its balances and records the comparison. -/
theorem closeDay_of_real (hready : books.Ready date currency) (hreal : request.dryRun = false) :
    books.closeDay date currency request config =
      ((books.snapshot date currency).record date currency request
          ((books.snapshot date currency).settlement date currency config),
        (books.snapshot date currency).answer date currency
          ((books.snapshot date currency).settlement date currency config)) := by
  have hzero := (books.blockingCount_journalValidation date currency).mpr hready
  simp only [closeDay, hzero, lt_irrefl, if_false, hreal, Bool.false_eq_true]

end Books

/-! ## The period and the runs afterwards -/

namespace Books

variable {books : Books} {date day : Date} {currency other : String} {request : CloseRequest}
  {report : Report}

theorem find?_openPeriods (key : Date × String) :
    (books.openPeriods date currency).find? key =
      if key = (date, currency) then
        some ((books.periods.find? key).getD { businessDate := date, currency := currency })
      else books.periods.find? key := by
  rw [openPeriods, Table.find?_upsert]
  show (if key = (date, currency) then _ else _) = _
  cases books.periods.find? key <;> rfl

/-- Only the period of the day is written. -/
theorem periodStatus_record_of_ne (hne : (day, other) ≠ (date, currency)) :
    (books.record date currency request report).periodStatus day other =
      books.periodStatus day other := by
  show Option.map Period.status ((books.endPeriods date currency request report).find? _) = _
  unfold endPeriods
  split
  · rw [find?_openPeriods, if_neg hne]
    rfl
  · rw [Table.find?_modify_of_ne _ hne, Table.find?_modify_of_ne _ hne, find?_openPeriods,
      if_neg hne]
    rfl

/-- A real close leaves the period of its day closed when the run is completed, and failed
otherwise. -/
theorem periodStatus_record_real (hreal : request.dryRun = false) :
    (books.record date currency request report).periodStatus date currency =
      some (if report.status = .completed then .closed else .failed) := by
  show Option.map Period.status ((books.endPeriods date currency request report).find? _) = _
  rw [endPeriods, if_neg (by simp [hreal]), Table.find?_modify_self, Table.find?_modify_self,
    find?_openPeriods, if_pos rfl, Option.map_some, Option.map_some, Option.map_some,
    Period.finishClosing]
  split <;> rfl

theorem periodStatus_record_dryRun (hdry : request.dryRun = true) :
    (books.record date currency request report).periodStatus day other =
      if (day, other) = (date, currency) then
        some ((books.periodStatus day other).getD .opened)
      else books.periodStatus day other := by
  by_cases hday : (day, other) = (date, currency)
  · rw [if_pos hday]
    show Option.map Period.status ((books.endPeriods date currency request report).find? _) = _
    rw [endPeriods, if_pos hdry, find?_openPeriods, if_pos hday, periodStatus, period]
    cases books.periods.find? (day, other) <;> rfl
  · rw [if_neg hday, periodStatus_record_of_ne hday]

/-- The run of a call is added to the others. -/
theorem runs_record :
    (books.record date currency request report).runs.rows =
      books.runs.rows ++ [books.newRun date currency request report] := rfl

theorem completedRun_eq_none :
    books.completedRun date currency = none ↔
      ∀ run ∈ books.runs.rows, ¬ (run.businessDate = date ∧ run.currency = currency ∧
        run.status = .completed ∧ run.dryRun = false) := by
  rw [completedRun, latest_eq_none, List.filter_eq_nil_iff]
  simp only [decide_eq_true_eq]

theorem of_completedRun {existing : Run}
    (hrun : books.completedRun date currency = some existing) :
    existing ∈ books.runs.rows ∧ existing.businessDate = date ∧ existing.currency = currency ∧
      existing.status = .completed ∧ existing.dryRun = false := by
  have hmem := List.mem_filter.mp (latest_mem hrun)
  exact ⟨hmem.1, of_decide_eq_true hmem.2⟩

end Books

end Finify.Eod
