/-
# Rehearsing a close

A dry run is meant to leave nothing but its report and to foretell the close.  The
module says what it does leave behind, where the two branches of the procedure get
their figures from, and when they agree.
-/

import Finify.Eod.Close

namespace Finify.Eod

open Finify.Foundations

/-! ## The claim about a rehearsal -/

/-- A dry run. -/
def rehearse (books : Books) (request : CloseRequest) : Books × CloseResult :=
  closeEod books { request with dryRun := true }

/-- All that differs between two states is that reports of dry runs were added. -/
structure OnlyReports (before after : Books) : Prop where
  unchanged : after = { before with runs := after.runs }
  added : ∃ reports : List Run, (∀ report ∈ reports, report.dryRun) ∧
    after.runs.rows = before.runs.rows ++ reports

/-- A dry run leaves nothing but its report, and a day it finds valid is closed next with
the same figures and without an exception. -/
structure Faithful (books : Books) (request : CloseRequest) : Prop where
  onlyReports : OnlyReports books (rehearse books request).1
  foretold : (rehearse books request).2.runStatus = .validated →
    ∀ next : CloseRequest, next.businessDate = request.businessDate →
      next.currency = request.currency → next.dryRun = false →
      (closeEod (rehearse books request).1 next).2.runStatus = .completed ∧
        (closeEod (rehearse books request).1 next).2.totals = (rehearse books request).2.totals ∧
        (closeEod (rehearse books request).1 next).2.exceptionCount = 0

/-! ## When it holds -/

namespace Books

variable (books : Books) (date : Date) (currency : String) (config : Configuration)

/-- A dry run of the day passes: no journal is in the way, and where safeguarding is
strict the live balances are covered. -/
structure Passes : Prop where
  ready : books.Ready date currency
  covered : config.strictSafeguarding →
    books.liveLiability currency ≤ (books.balance config.masterWallet).getD 0

/-- The wallet counts towards the safeguarded liability. -/
def safeguarded (wallet : Wallet) : Bool :=
  (books.activeMapping wallet.walletCode).any fun mapping =>
    mapping.isSafeguarded && books.isLiability mapping.glAccountCode

/-- The balance that a close of the day takes for a wallet. -/
def closingBalance (wallet : Wallet) : ℤ :=
  (closingOf (books.walletActivity date currency wallet.walletMsisdn)).getD
    (books.carried date currency wallet)

/-- The safeguarded liability by the balances that a close of the day takes. -/
def closingLiability : ℤ :=
  (((books.walletsOf currency).filter books.safeguarded).map
    (books.closingBalance date currency)).sum

/-- The figures of the day with the safeguarding by the live balances. -/
def liveTotals : Totals :=
  { books.activity date currency with
    walletCount := (books.walletsOf currency).length
    masterBalance := books.balance config.masterWallet
    safeguardedLiability := some (books.liveLiability currency)
    safeguardingVariance :=
      some ((books.balance config.masterWallet).getD 0 - books.liveLiability currency) }

/-- The period of the day exists and its batch reads as the dry run would write it. -/
structure Settled (request : CloseRequest) : Prop where
  period : books.period date currency ≠ none
  batch : ∃ batch, books.batches.find? date = some batch ∧
    (batch.status = .completed ∧ books.Passes date currency config ∨
      batch.status = .failed ∧ ¬ books.Passes date currency config) ∧
    batch.requestedBy = request.requestedBy ∧
    (request.correlationId = none ∨ batch.correlationId = request.correlationId) ∧
    batch.completedAt = some request.now

/-- The stored figures and the live balances agree: those of the run that closed the day
or, where none did, those that a close would take. -/
def FiguresAgree : Prop :=
  match books.completedRun date currency with
  | some existing => existing.totals = books.liveTotals date currency config ∧
      existing.exceptions = []
  | none => (∀ wallet ∈ books.walletsOf currency, books.activeMapping wallet.walletCode ≠ none) ∧
      books.closingLiability date currency = books.liveLiability currency

/-! ## The two sources of the figures -/

/-- The liability of the stored balances is that of the balances taken. -/
theorem snapshotLiability_snapshot :
    (books.snapshot date currency).snapshotLiability date currency =
      books.closingLiability date currency := by
  rw [snapshotLiability, dayBalances_snapshot, walletSnapshots, closingLiability]
  show (((books.walletsOf currency).filterMap _).filter (fun balance =>
    (books.mappings.find? balance.walletCode).any Mapping.isSafeguarded &&
      books.isLiability balance.glAccountCode) |>.map WalletBalance.closingBalance).sum = _
  induction books.walletsOf currency with
  | nil => rfl
  | cons wallet wallets ih =>
    cases hmapping : books.activeMapping wallet.walletCode with
    | none =>
      have hskipped : books.safeguarded wallet = false := by simp [safeguarded, hmapping]
      simp only [List.filterMap_cons, hmapping, Option.map_none, List.filter_cons, hskipped,
        Bool.false_eq_true, if_false]
      exact ih
    | some mapping =>
      have hfound : books.mappings.find? wallet.walletCode = some mapping :=
        (Option.filter_eq_some_iff.mp hmapping).1
      simp only [List.filterMap_cons, hmapping, Option.map_some, List.filter_cons]
      have hsame : ((books.mappings.find?
            (books.walletSnapshot date currency wallet mapping).walletCode).any
              Mapping.isSafeguarded &&
            books.isLiability
              (books.walletSnapshot date currency wallet mapping).glAccountCode) =
          books.safeguarded wallet := by
        simp [walletSnapshot, safeguarded, hmapping, hfound]
      rw [hsame]
      split
      · rw [List.map_cons, List.sum_cons, List.map_cons, List.sum_cons, ih]
        rfl
      · exact ih

/-- A close takes one balance for each wallet that has an active mapping. -/
theorem length_walletSnapshots_eq :
    (books.walletSnapshots date currency).length =
      ((books.walletsOf currency).filterMap fun wallet =>
        books.activeMapping wallet.walletCode).length := by
  rw [walletSnapshots, List.length_filterMap_eq_countP, List.length_filterMap_eq_countP]
  simp only [Option.isSome_map]

/-- A close counts the wallets it takes a balance of, a rehearsal all of them. -/
theorem length_walletSnapshots :
    (books.walletSnapshots date currency).length = (books.walletsOf currency).length ↔
      ∀ wallet ∈ books.walletsOf currency, books.activeMapping wallet.walletCode ≠ none := by
  rw [walletSnapshots, List.filterMap_length_eq_length]
  simp [Option.isSome_iff_ne_none]

end Books

/-! ## What the comparison reports -/

section

variable (dryRun strict : Bool) (activity : Totals) (walletCount : ℕ) (master : Option ℤ)
  (liability : ℤ)

theorem Report.compared_blocking :
    blockingCount (Report.compared dryRun strict activity walletCount master liability).exceptions =
      0 ↔ (strict → liability ≤ master.getD 0) := by
  show blockingCount (safeguardingException strict master liability _) = 0 ↔ _
  rw [blockingCount_safeguarding]
  exact forall_congr' fun _ => sub_nonneg

theorem Report.compared_status :
    (Report.compared dryRun strict activity walletCount master liability).status =
      if strict → liability ≤ master.getD 0 then (if dryRun then .validated else .completed)
      else .blocked := by
  have hpassed := Report.compared_blocking dryRun strict activity walletCount master liability
  by_cases hcovered : strict → liability ≤ master.getD 0
  · rw [if_pos hcovered]
    have hzero := hpassed.mpr hcovered
    simp only [Report.compared] at hzero ⊢
    simp [hzero]
  · rw [if_neg hcovered]
    have hblocked := mt hpassed.mp hcovered
    simp only [Report.compared] at hblocked ⊢
    simp [hblocked]

end

namespace Books

variable {books : Books} {date : Date} {currency : String} {config : Configuration}
  {request : CloseRequest}

/-- What a rehearsal records and answers. -/
theorem rehearse_eq (htarget : books.target request = some (date, currency, config)) :
    ∃ report : Report,
      rehearse books request =
        (books.record date currency { request with dryRun := true } report,
          books.answer date currency report) ∧
      (books.Passes date currency config →
        report.status = .validated ∧ report.returned = books.liveTotals date currency config) ∧
      (¬ books.Passes date currency config → report.status = .blocked) := by
  have hclose : rehearse books request =
      books.closeDay date currency { request with dryRun := true } config :=
    closeEod_of_open (by exact htarget) (.inl rfl)
  by_cases hready : books.Ready date currency
  · refine ⟨books.rehearsal date currency config, ?_, ?_, ?_⟩
    · rw [hclose, closeDay_of_dryRun hready rfl]
    · intro hpasses
      exact ⟨(Report.compared_status ..).trans (if_pos hpasses.covered), rfl⟩
    · intro hfails
      exact (Report.compared_status ..).trans (if_neg fun hcovered => hfails ⟨hready, hcovered⟩)
  · refine ⟨.notReady (books.journalValidation date currency), ?_, ?_, ?_⟩
    · rw [hclose, closeDay_of_not_ready hready]
    · intro hpasses
      exact absurd hpasses.ready hready
    · intro _
      rfl

/-- The report of a rehearsal is all that is left exactly when the period is there and the
batch reads as the rehearsal writes it. -/
theorem onlyReports_record (report : Report) :
    OnlyReports books (books.record date currency { request with dryRun := true } report) ↔
      books.period date currency ≠ none ∧
        ∃ batch, books.batches.find? date = some batch ∧
          rewriteBatch { request with dryRun := true } report batch = batch := by
  have hperiods : (books.record date currency { request with dryRun := true } report).periods =
      books.periods ↔ books.period date currency ≠ none := by
    show books.openPeriods date currency = books.periods ↔ _
    rw [openPeriods, Table.upsert_eq_self, Option.ne_none_iff_exists']
    exact exists_congr fun old => and_iff_left rfl
  have hbatches : (books.record date currency { request with dryRun := true } report).batches =
      books.batches ↔ ∃ batch, books.batches.find? date = some batch ∧
        rewriteBatch { request with dryRun := true } report batch = batch :=
    Table.upsert_eq_self
  rw [← hperiods, ← hbatches]
  constructor
  · intro honly
    exact ⟨by rw [honly.unchanged], by rw [honly.unchanged]⟩
  · intro hboth
    obtain ⟨hsamePeriods, hsameBatches⟩ := hboth
    refine ⟨?_, [books.newRun date currency { request with dryRun := true } report], ?_, rfl⟩
    · generalize hafter : books.record date currency { request with dryRun := true } report = after
      rw [hafter] at hsamePeriods hsameBatches
      rw [← hsamePeriods, ← hsameBatches, ← hafter]
      rfl
    · intro run hrun
      rw [List.mem_singleton.mp hrun]
      rfl

/-- A batch reads as the rehearsal writes it when status, requester, correlation and time
are those of the rehearsal. -/
theorem rewriteBatch_eq_self {report : Report} {batch : Batch} :
    rewriteBatch { request with dryRun := true } report batch = batch ↔
      batch.status = report.status.batchStatus ∧ batch.requestedBy = request.requestedBy ∧
        (request.correlationId = none ∨ batch.correlationId = request.correlationId) ∧
        batch.completedAt = some request.now := by
  cases batch
  simp only [rewriteBatch, Batch.mk.injEq, true_and]
  cases request.correlationId <;> simp [eq_comm]

/-- What a rehearsal leaves behind is its report exactly when the day is settled. -/
theorem onlyReports_rehearse (htarget : books.target request = some (date, currency, config)) :
    OnlyReports books (rehearse books request).1 ↔
      books.Settled date currency config request := by
  obtain ⟨report, hrehearse, hpassed, hfailed⟩ := rehearse_eq htarget
  have hstatus : ∀ status : BatchStatus, status = report.status.batchStatus ↔
      status = .completed ∧ books.Passes date currency config ∨
        status = .failed ∧ ¬ books.Passes date currency config := by
    intro status
    by_cases hpasses : books.Passes date currency config
    · simp [(hpassed hpasses).1, RunStatus.batchStatus, hpasses]
    · simp [hfailed hpasses, RunStatus.batchStatus, hpasses]
  rw [hrehearse, onlyReports_record]
  simp only [rewriteBatch_eq_self, hstatus]
  exact ⟨fun h => ⟨h.1, h.2⟩, fun h => ⟨h.period, h.batch⟩⟩

/-- The real close that follows a rehearsal finds the run that closed the day, or works
from the same journals, wallets and balances as before. -/
theorem completedRun_record (report : Report) :
    (books.record date currency { request with dryRun := true } report).completedRun date
        currency = books.completedRun date currency := by
  show latest _ ((books.runs.rows ++
      [books.newRun date currency { request with dryRun := true } report]).filter _) = _
  rw [List.filter_append, List.filter_cons_of_neg, List.filter_nil, List.append_nil]
  · rfl
  · simp [newRun]

/-- The report of a real close of a ready day. -/
def takenReport (books : Books) (date : Date) (currency : String) (config : Configuration) :
    Report :=
  (books.snapshot date currency).settlement date currency config

theorem takenReport_eq :
    books.takenReport date currency config =
      .compared false config.strictSafeguarding (books.activity date currency)
        (books.walletSnapshots date currency).length (books.balance config.masterWallet)
        (books.closingLiability date currency) := by
  rw [takenReport, settlement, dayBalances_snapshot, snapshotLiability_snapshot]
  rfl

/-- The answer of a close that follows a rehearsal of a ready day that was never closed. -/
theorem closeEod_after_rehearsal {next : CloseRequest} (report : Report)
    (hready : books.Ready date currency) (hreal : next.dryRun = false)
    (hopen : books.completedRun date currency = none)
    (htarget : books.target next = some (date, currency, config)) :
    ∃ version, (closeEod (books.record date currency { request with dryRun := true } report)
        next).2 =
      { statusCode := (books.takenReport date currency config).statusCode
        runVersion := version
        runStatus := (books.takenReport date currency config).status
        totals := (books.takenReport date currency config).returned
        exceptionCount := blockingCount (books.takenReport date currency config).exceptions } := by
  have hstill : (books.record date currency { request with dryRun := true } report).Ready date
      currency := ⟨hready.1, hready.2, hready.3, hready.4⟩
  -- the rehearsal has taken a version, and the rows of the close carry the next one
  have htaken : (books.record date currency { request with dryRun := true } report).takenReport
      date currency config = books.takenReport date currency config := by
    have hcount : ((books.record date currency { request with dryRun := true } report).walletSnapshots
        date currency).length = (books.walletSnapshots date currency).length := by
      rw [length_walletSnapshots_eq, length_walletSnapshots_eq]
      rfl
    rw [takenReport_eq, takenReport_eq, hcount]
    rfl
  rw [closeEod_of_open (by exact htarget) (.inr ((completedRun_record report).trans hopen)),
    closeDay_of_real hstill hreal]
  rw [← htaken]
  exact ⟨_, rfl⟩

/-- The close after a passed rehearsal confirms it exactly when the figures agree. -/
theorem foretold_iff (report : Report) (hpasses : books.Passes date currency config)
    (htarget : books.target request = some (date, currency, config)) :
    (∀ next : CloseRequest, next.businessDate = request.businessDate →
        next.currency = request.currency → next.dryRun = false →
        let result := (closeEod (books.record date currency { request with dryRun := true } report)
          next).2
        result.runStatus = .completed ∧ result.totals = books.liveTotals date currency config ∧
          result.exceptionCount = 0) ↔
      books.FiguresAgree date currency config := by
  have hnext : ∀ next : CloseRequest, next.businessDate = request.businessDate →
      next.currency = request.currency → books.target next = some (date, currency, config) := by
    intro next hdate hcurrency
    rw [← htarget, target, target, hdate, hcurrency]
  unfold FiguresAgree
  cases hrun : books.completedRun date currency with
  | some existing =>
    have hanswer : ∀ next : CloseRequest, next.businessDate = request.businessDate →
        next.currency = request.currency → next.dryRun = false →
        (closeEod (books.record date currency { request with dryRun := true } report) next).2 =
          alreadyClosed existing := by
      intro next hdate hcurrency hreal
      rw [closeEod_of_completed (by exact hnext next hdate hcurrency) hreal
        ((completedRun_record report).trans hrun)]
    constructor
    · intro hall
      have hresult := hall { request with dryRun := false } rfl rfl rfl
      rw [hanswer { request with dryRun := false } rfl rfl rfl] at hresult
      exact ⟨hresult.2.1, List.length_eq_zero_iff.mp hresult.2.2⟩
    · intro hstored next hdate hcurrency hreal
      rw [hanswer next hdate hcurrency hreal]
      exact ⟨(of_completedRun hrun).2.2.2.1, hstored.1, List.length_eq_zero_iff.mpr hstored.2⟩
  | none =>
    have hready := hpasses.ready
    constructor
    · intro hall
      obtain ⟨version, hanswer⟩ := closeEod_after_rehearsal report
        hready (show CloseRequest.dryRun { request with dryRun := false } = false from rfl) hrun
        (hnext _ rfl rfl)
      have hresult := (hall { request with dryRun := false } rfl rfl rfl).2.1
      rw [hanswer, takenReport_eq] at hresult
      have hcount := congrArg Totals.walletCount hresult
      have hliability := congrArg Totals.safeguardedLiability hresult
      exact ⟨(books.length_walletSnapshots date currency).mp hcount, Option.some.inj hliability⟩
    · intro hboth next hdate hcurrency hreal
      obtain ⟨hmapped, hliability⟩ := hboth
      obtain ⟨version, hanswer⟩ := closeEod_after_rehearsal report hready hreal
        hrun (hnext next hdate hcurrency)
      have hcount := (books.length_walletSnapshots date currency).mpr hmapped
      rw [hanswer, takenReport_eq, hliability, hcount]
      refine ⟨?_, rfl, ?_⟩
      · exact (Report.compared_status false _ (books.activity date currency)
          (books.walletsOf currency).length _ _).trans (if_pos hpasses.covered)
      · exact (Report.compared_blocking false _ (books.activity date currency)
          (books.walletsOf currency).length _ _).mpr hpasses.covered

end Books

/-! ## The exact condition -/

/-- A rehearsal is faithful exactly when it is refused, or when the period of its day is
there, the batch reads as it would be rewritten, and, if the rehearsal passes, the
figures agree. -/
theorem rehearsal_faithful_iff (books : Books) (request : CloseRequest) :
    Faithful books request ↔
      ∀ date currency config, books.target request = some (date, currency, config) →
        books.Settled date currency config request ∧
          (books.Passes date currency config → books.FiguresAgree date currency config) := by
  cases htarget : books.target request with
  | none =>
    have hcall : ∃ code, code.success = false ∧ closeEod books { request with dryRun := true } =
        (books, refused code) := closeEod_of_none htarget
    obtain ⟨code, _, hrefused⟩ := hcall
    simp only [reduceCtorEq, false_implies, implies_true, iff_true]
    have hsame : rehearse books request = (books, refused code) := hrefused
    constructor
    · rw [hsame]
      exact ⟨rfl, [], by simp, by simp⟩
    · rw [hsame]
      intro hvalidated
      cases hvalidated
  | some about =>
    obtain ⟨date, currency, config⟩ := about
    have honly := Books.onlyReports_rehearse htarget
    obtain ⟨report, hrehearse, hpassed, hfailed⟩ := Books.rehearse_eq htarget
    constructor
    · intro hfaithful date' currency' config' hsame
      cases hsame
      refine ⟨honly.mp hfaithful.onlyReports, fun hpasses => ?_⟩
      have hforetold := hfaithful.foretold
      rw [hrehearse] at hforetold
      apply (Books.foretold_iff report hpasses htarget).mp
      rw [← (hpassed hpasses).2]
      exact hforetold (hpassed hpasses).1
    · intro hcondition
      obtain ⟨hsettled, hagree⟩ := hcondition date currency config rfl
      refine ⟨honly.mpr hsettled, fun hvalidated => ?_⟩
      rw [hrehearse] at hvalidated ⊢
      have hpasses : books.Passes date currency config := by
        by_contra hfails
        rw [show (books.answer date currency report).runStatus = .blocked from hfailed hfails]
          at hvalidated
        cases hvalidated
      have hforetold := (Books.foretold_iff report hpasses htarget).mpr
        (hagree hpasses)
      rw [← (hpassed hpasses).2] at hforetold
      exact hforetold

/-! ## Two rehearsals that are not -/

/-- Day 4 is closed.  On day 5 the wallet 7 received 100, which it gave back on day 6;
`held` is what it holds now. -/
def tradingDays (held : ℤ) : Books where
  wallets := ⟨[{ walletMsisdn := 110, walletCode := 110, amount := 0, currency := "GBP" },
    { walletMsisdn := 113, walletCode := 113, amount := 100, currency := "GBP" },
    { walletMsisdn := 7, walletCode := 1, amount := held, currency := "GBP" }], by simp⟩
  mappings := ⟨[{ walletCode := 110, glAccountCode := "1000-SAFEGUARDING" },
    { walletCode := 113, glAccountCode := "4000-TRANSACTION-REVENUE" },
    { walletCode := 1, glAccountCode := "2000-CUSTOMER-WALLET", isSafeguarded := true }],
    by simp⟩
  accounts := ⟨[
    { accountCode := "1000-SAFEGUARDING", accountType := .asset, normalBalance := .debit },
    { accountCode := "4000-TRANSACTION-REVENUE", accountType := .income,
      normalBalance := .credit },
    { accountCode := "2000-CUSTOMER-WALLET", accountType := .liability,
      normalBalance := .credit }], by simp⟩
  configurations := [{ currency := "GBP", masterWallet := 110, effectiveFrom := 1 }]
  journals := ⟨[{ id := 1, businessDate := 5, currency := "GBP", status := .completed },
    { id := 2, businessDate := 6, currency := "GBP", status := .completed }], 3, by simp, by simp⟩
  entries := ⟨[
    { id := 1, journalId := 1, businessDate := 5, currency := "GBP", debit := 100, credit := 0,
      entryDate := 50, accountNumber := 113, balanceBefore := some 100, balanceAfter := some 0 },
    { id := 2, journalId := 1, businessDate := 5, currency := "GBP", debit := 0, credit := 100,
      entryDate := 50, accountNumber := 7, balanceBefore := some 0, balanceAfter := some 100 },
    { id := 3, journalId := 2, businessDate := 6, currency := "GBP", debit := 100, credit := 0,
      entryDate := 60, accountNumber := 7, balanceBefore := some 100, balanceAfter := some 0 },
    { id := 4, journalId := 2, businessDate := 6, currency := "GBP", debit := 0, credit := 100,
      entryDate := 60, accountNumber := 113, balanceBefore := some 0, balanceAfter := some 100 }],
    5, by simp, by simp⟩
  periods := ⟨[{ businessDate := 4, currency := "GBP", status := .closed, closeVersion := 1 }],
    by simp⟩
  batches := ⟨[
    { businessDate := 4, status := .completed, requestedBy := "SYSTEM", completedAt := some 48 }],
    by simp⟩
  runs := .empty
  walletBalances := .empty
  glBalances := .empty

/-- A request for a day in pounds. -/
def requestOf (date : Date) : CloseRequest :=
  { businessDate := some date, currency := some "GBP", now := 70 }

/-- The rehearsal of the closed day 4 turns its batch from completed to failed.  The
rehearsal of day 5 passes on the live balances, and the close that follows is blocked by
the balances of the day. -/
theorem rehearsal_not_faithful :
    (((tradingDays 100).batches.find? 4).map Batch.status = some .completed ∧
      (tradingDays 100).periodStatus 4 "GBP" = some .closed ∧
      ((rehearse (tradingDays 100) (requestOf 4)).1.batches.find? 4).map Batch.status =
        some .failed ∧
      ¬ Faithful (tradingDays 100) (requestOf 4)) ∧
    (rehearse (tradingDays 0) (requestOf 5)).2.runStatus = .validated ∧
      (closeEod (rehearse (tradingDays 0) (requestOf 5)).1 (requestOf 5)).2.runStatus = .blocked ∧
      ¬ Faithful (tradingDays 0) (requestOf 5) := by
  have hbefore : ((tradingDays 100).batches.find? 4).map Batch.status = some .completed := by
    decide
  have hafter : ((rehearse (tradingDays 100) (requestOf 4)).1.batches.find? 4).map Batch.status =
      some .failed := by
    decide +kernel
  have hpassed : (rehearse (tradingDays 0) (requestOf 5)).2.runStatus = .validated := by
    decide +kernel
  have hblocked : (closeEod (rehearse (tradingDays 0) (requestOf 5)).1
      (requestOf 5)).2.runStatus = .blocked := by
    decide +kernel
  refine ⟨⟨hbefore, by decide, hafter, fun hfaithful => ?_⟩, hpassed, hblocked,
    fun hfaithful => ?_⟩
  · have hsame := hfaithful.onlyReports.unchanged
    rw [hsame] at hafter
    rw [show ((tradingDays 100).batches.find? 4).map Batch.status = some .failed from hafter]
      at hbefore
    cases hbefore
  · have hcompleted := (hfaithful.foretold hpassed (requestOf 5) rfl rfl rfl).1
    rw [hblocked] at hcompleted
    cases hcompleted

end Finify.Eod
