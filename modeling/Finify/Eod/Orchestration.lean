/-
# Closing one currency

`EodReadinessService.check` and `EodOrchestrationService.runOne` and `runAll`.  The counts
that the readiness check takes outside the books are an input.  A call can fail before it
reaches the procedure and after the procedure has committed.  The last part says what a call
does to the register of closed dates.
-/

import Finify.Eod.Rehearsal
import Finify.Foundations.Gapless

namespace Finify.Eod

open Finify.Foundations

/-! ## Readiness -/

/-- `status` of a readiness check. -/
inductive CheckStatus
  | pass
  | fail
  | warning
  deriving DecidableEq, Repr

/-- One of the `checks`. -/
structure Check where
  code : String
  status : CheckStatus
  count : ℕ
  message : String
  deriving DecidableEq

/-- The rows outside the books that the check counts. -/
structure PendingWork where
  pendingTransactions : ℕ := 0
  uncategorizedTransactions : ℕ := 0
  pendingMerchants : ℕ := 0
  deriving DecidableEq

def Check.ofCount (code : String) (otherwise : CheckStatus) (count : ℕ) (message : String) :
    Check :=
  { code := code, status := if count = 0 then .pass else otherwise, count := count,
    message := message }

/-- `EodReadinessService.check`. -/
def Books.readiness (books : Books) (date : Date) (currency : String) (work : PendingWork) :
    List Check :=
  [.ofCount "PROCESSING_JOURNALS" .fail (books.processing date currency)
      "Accounting journals must leave PROCESSING before close",
    .ofCount "PENDING_TRANSACTIONS" .fail work.pendingTransactions
      "Producer transactions accepted before cutoff must be consumed or failed",
    .ofCount "UNCATEGORIZED_PENDING_TRANSACTIONS" .fail work.uncategorizedTransactions
      "Legacy pending transactions without a currency require operational resolution",
    .ofCount "PENDING_MERCHANT_CONFIRMATIONS" .warning work.pendingMerchants
      "Pending two-leg merchant transactions remain in temporary reserve"]

/-- `ready`. -/
def isReady (checks : List Check) : Bool :=
  checks.all fun check => check.status ≠ .fail

/-! ## One currency -/

/-- The argument of `runOne`, with the time of the call and the identifier that is drawn where
none is given. -/
structure CloseInput where
  businessDate : Date
  currency : String
  requestedBy : String := "SYSTEM"
  dryRun : Bool := false
  correlationId : Option String := none
  now : ℤ := 0
  deriving DecidableEq

/-- What `EodCloseService.execute` passes to the procedure. -/
def CloseInput.request (input : CloseInput) : CloseRequest :=
  { businessDate := some input.businessDate
    currency := some input.currency.toUpper
    requestedBy := input.requestedBy
    dryRun := input.dryRun
    correlationId := input.correlationId
    now := input.now }

/-- The exception that is stored for a check that did not pass. -/
def Check.exception (check : Check) : EodException :=
  { exceptionCode := check.code
    severity := if check.status = .fail then .error else .warning
    message := check.message
    context := .count check.count }

/-- What `persistReadiness` changes in a run. -/
def Run.addReadiness (checks : List Check) (run : Run) : Run :=
  { run with
    exceptions := run.exceptions ++
      (checks.filter fun check => check.status ≠ .pass).map Check.exception
    status := if isReady checks then run.status else .blocked
    errorCode := if isReady checks then run.errorCode else some "EXTERNAL_READINESS_FAILED"
    errorMessage :=
      if isReady checks then run.errorMessage else some "Operational readiness checks failed" }

/-- `persistReadiness` of the run of a version. -/
def Books.persistReadiness (books : Books) (date : Date) (currency : String)
    (version : Option ℕ) (checks : List Check) : Books :=
  match version with
  | none => books
  | some version =>
    { books with
      runs := books.runs.modify (date, currency, version) (Run.addReadiness checks) fun _ => rfl
      batches :=
        if isReady checks then books.batches
        else books.batches.modify date (fun batch => { batch with status := .failed })
          fun _ => rfl }

/-- Where a call is cut short: before the procedure commits, or after. -/
inductive Fault
  | beforeClose
  | afterClose
  deriving DecidableEq, Repr

/-- How `runOne` ends: with an exception or with a `status`. -/
inductive Outcome
  | thrown
  | blocked
  | ready
  | closed
  deriving DecidableEq, Repr

/-- `EodOrchestrationService.runOne`. -/
def runOne (books : Books) (input : CloseInput) (work : PendingWork) (fault : Option Fault) :
    Books × Outcome :=
  let checks := books.readiness input.businessDate input.currency.toUpper work
  if fault = some .beforeClose ∨ (input.dryRun = false ∧ isReady checks = false) then
    (books, .thrown)
  else
    let result := closeEod books input.request
    if fault = some .afterClose then (result.1, .thrown)
    else
      (result.1.persistReadiness input.businessDate input.currency.toUpper result.2.runVersion
          checks,
        if isReady checks && result.2.statusCode.success then
          (if input.dryRun then .ready else .closed)
        else .blocked)

/-! ## Every currency -/

/-- `status` of a currency in the answer of `runAll`. -/
inductive ItemStatus
  | ready
  | closed
  | blocked
  | failed
  deriving DecidableEq, Repr

def Outcome.item : Outcome → ItemStatus
  | .thrown => .failed
  | .blocked => .blocked
  | .ready => .ready
  | .closed => .closed

def CloseInput.forCurrency (input : CloseInput) (currency : String) : CloseInput :=
  { input with
    currency := currency
    correlationId := input.correlationId.map fun id => id ++ ":" ++ currency }

/-- The loop of `runAll` over `currencyUniverse`, which tells whether a currency is
configured. -/
def runEach (input : CloseInput) (conditions : String → PendingWork × Option Fault) :
    Books → List (String × Bool) → Books × List ItemStatus
  | books, [] => (books, [])
  | books, (currency, configured) :: rest =>
    if configured then
      let result := runOne books (input.forCurrency currency) (conditions currency).1
        (conditions currency).2
      let others := runEach input conditions result.1 rest
      (others.1, result.2.item :: others.2)
    else
      let others := runEach input conditions books rest
      (others.1, .blocked :: others.2)

/-- `status` of the batch. -/
def batchStatus (dryRun : Bool) (results : List ItemStatus) : BatchStatus :=
  let successful := results.count (if dryRun then .ready else .closed)
  if successful = results.length ∧ 0 < results.length then .completed
  else if 0 < successful then .partially
  else .failed

/-- `EodOrchestrationService.runAll`. -/
def runAll (books : Books) (input : CloseInput) (currencies : List (String × Bool))
    (conditions : String → PendingWork × Option Fault) : Books × List ItemStatus :=
  let result := runEach input conditions books currencies
  ({ result.1 with
      batches := result.1.batches.modify input.businessDate
        (fun batch => { batch with
          status := batchStatus input.dryRun result.2
          completedAt := some input.now }) fun _ => rfl }, result.2)

/-! ## The register of a currency -/

namespace Books

/-- The dates of a currency that have a period, and those that are closed. -/
def register (books : Books) (currency : String) : Register Date where
  rows := { date | books.periodStatus date currency ≠ none }
  closed := { date | books.periodStatus date currency = some .closed }
  subset := by
    intro date hclosed hnone
    exact Option.some_ne_none _ (Eq.trans (Eq.symm hclosed) hnone)

variable {books : Books} {date : Date} {currency other : String}

theorem mem_rows_register :
    date ∈ (books.register currency).rows ↔ books.periodStatus date currency ≠ none := Iff.rfl

theorem mem_closed_register :
    date ∈ (books.register currency).closed ↔
      books.periodStatus date currency = some .closed := Iff.rfl

/-- A date is closed exactly when a run has completed it. -/
def Agrees (books : Books) : Prop :=
  ∀ date currency, books.periodStatus date currency = some .closed ↔
    books.completedRun date currency ≠ none

end Books

/-- What a call about a date may do to the registers: nothing, or give the date a row, or,
unless it rehearses, close it. -/
def Registers (before after : Books) (date : Date) (currency : String) (dryRun : Bool) : Prop :=
  (∀ other, after.register other = before.register other) ∨
    ((∀ other, other ≠ currency → after.register other = before.register other) ∧
      (after.register currency = (before.register currency).enter date ∨
        dryRun = false ∧ after.register currency = (before.register currency).close date))

namespace Books

section

variable {before after books : Books} {date day : Date} {currency other : String}
  {request : CloseRequest} {report : Report}

theorem register_congr (hperiods : after.periods = before.periods) (currency : String) :
    after.register currency = before.register currency := by
  have hstatus : ∀ date, after.periodStatus date currency = before.periodStatus date currency := by
    intro date
    rw [periodStatus, period, hperiods]
    rfl
  ext date
  · rw [mem_rows_register, mem_rows_register, hstatus]
  · rw [mem_closed_register, mem_closed_register, hstatus]

theorem completedRun_congr (hruns : after.runs = before.runs) (date : Date) (currency : String) :
    after.completedRun date currency = before.completedRun date currency := by
  rw [completedRun, hruns, completedRun]

theorem register_record_of_ne (hne : other ≠ currency) :
    (books.record date currency request report).register other = books.register other := by
  have hstatus : ∀ day, (books.record date currency request report).periodStatus day other =
      books.periodStatus day other :=
    fun day => periodStatus_record_of_ne fun hday => hne (congrArg Prod.snd hday)
  ext day
  · rw [mem_rows_register, mem_rows_register, hstatus]
  · rw [mem_closed_register, mem_closed_register, hstatus]

theorem register_record_dryRun (hdry : request.dryRun = true) :
    (books.record date currency request report).register currency =
      (books.register currency).enter date := by
  ext day
  · rw [mem_rows_register, Register.mem_rows_enter, mem_rows_register,
      periodStatus_record_dryRun hdry]
    by_cases hday : day = date
    · simp [hday]
    · simp [hday]
  · rw [mem_closed_register, Register.mem_closed_enter, mem_closed_register,
      periodStatus_record_dryRun hdry]
    split
    · cases books.periodStatus day currency <;> simp
    · rfl

/-- A real close that is completed closes its date. -/
theorem register_record_completed (hreal : request.dryRun = false)
    (hcompleted : report.status = .completed) :
    (books.record date currency request report).register currency =
      (books.register currency).close date := by
  ext day
  all_goals
    by_cases hday : day = date
    · rw [hday]
      simp [mem_rows_register, mem_closed_register, periodStatus_record_real hreal, hcompleted]
    · simp [mem_rows_register, mem_closed_register, hday,
        periodStatus_record_of_ne fun hsame => hday (congrArg Prod.fst hsame)]

/-- A real close that is not completed gives a date that is not closed a row. -/
theorem register_record_failed (hreal : request.dryRun = false)
    (hfailed : report.status ≠ .completed)
    (hopen : books.periodStatus date currency ≠ some .closed) :
    (books.record date currency request report).register currency =
      (books.register currency).enter date := by
  ext day
  all_goals
    by_cases hday : day = date
    · rw [hday]
      simp [mem_rows_register, mem_closed_register, periodStatus_record_real hreal, hfailed, hopen]
    · simp [mem_rows_register, mem_closed_register, hday,
        periodStatus_record_of_ne fun hsame => hday (congrArg Prod.fst hsame)]

theorem completedRun_record_eq_none :
    (books.record date currency request report).completedRun day other = none ↔
      books.completedRun day other = none ∧
        ¬ (date = day ∧ currency = other ∧ report.status = .completed ∧
          request.dryRun = false) := by
  rw [completedRun_eq_none, completedRun_eq_none, runs_record, List.forall_mem_append,
    List.forall_mem_singleton]
  rfl

theorem register_persistReadiness (version : Option ℕ) (checks : List Check) :
    (books.persistReadiness date currency version checks).register other =
      books.register other := by
  have hperiods : (books.persistReadiness date currency version checks).periods =
      books.periods := by
    cases version <;> rfl
  exact register_congr hperiods other

/-- The exceptions that readiness adds leave the completed runs as they are; only a dry run is
marked as blocked. -/
theorem completedRun_persistReadiness {version : Option ℕ} {checks : List Check}
    (hblocked : ∀ run, version.bind (fun version => books.runs.find? (date, currency, version)) =
      some run → isReady checks ∨ run.dryRun) :
    (books.persistReadiness date currency version checks).completedRun day other = none ↔
      books.completedRun day other = none := by
  cases version with
  | none => exact Iff.rfl
  | some version =>
    rw [completedRun_eq_none, completedRun_eq_none]
    show (∀ run ∈ books.runs.rows.map _, _) ↔ _
    rw [List.forall_mem_map]
    apply forall₂_congr
    intro run hrun
    by_cases hkey : run.key = (date, currency, version)
    · rw [if_pos hkey]
      cases hblocked run (Table.find?_eq_some.mpr ⟨hrun, hkey⟩) with
      | inl hready => simp [Run.addReadiness, hready]
      | inr hdry => simp [Run.addReadiness, hdry]
    · rw [if_neg hkey]

end

end Books

/-! ## What a call does -/

section

variable {books : Books} {date : Date} {currency : String} {request : CloseRequest}
  {config : Configuration}

/-- What a call that works through a day records and answers. -/
theorem closeDay_eq_record (books : Books) (date : Date) (currency : String)
    (request : CloseRequest) (config : Configuration) :
    ∃ (base : Books) (report : Report), books.closeDay date currency request config =
        (base.record date currency request report, base.answer date currency report) ∧
      base.runs = books.runs ∧ base.periods = books.periods ∧
      (request.dryRun = false → (report.statusCode.success ↔ report.status = .completed)) := by
  have hcompared : ∀ dryRun strict activity walletCount master liability,
      dryRun = false →
      ((Report.compared dryRun strict activity walletCount master liability).statusCode.success ↔
        (Report.compared dryRun strict activity walletCount master liability).status =
          .completed) := by
    intro dryRun strict activity walletCount master liability hreal
    simp only [Report.compared, hreal]
    split <;> simp [StatusCode.success]
  by_cases hready : books.Ready date currency
  · cases hdry : request.dryRun with
    | false =>
      rw [Books.closeDay_of_real hready hdry]
      exact ⟨_, _, rfl, rfl, rfl, fun _ => hcompared _ _ _ _ _ _ rfl⟩
    | true =>
      rw [Books.closeDay_of_dryRun hready hdry]
      exact ⟨_, _, rfl, rfl, rfl, fun hreal => by cases hreal⟩
  · rw [Books.closeDay_of_not_ready hready]
    refine ⟨_, _, rfl, rfl, rfl, fun _ => ?_⟩
    simp [Report.notReady, StatusCode.success]

/-- What a call about a date has done when it returns. -/
structure Closing (before after : Books) (date : Date) (currency : String) (dryRun : Bool) :
    Prop where
  agrees : after.Agrees
  registers : Registers before after date currency dryRun

/-- A call that works through a day enters or closes it. -/
theorem Closing.record {base : Books} (report : Report) (hagrees : books.Agrees)
    (hruns : base.runs = books.runs) (hperiods : base.periods = books.periods)
    (hopen : request.dryRun = true ∨ books.completedRun date currency = none) :
    Closing books (base.record date currency request report) date currency request.dryRun ∧
      date ∈ ((base.record date currency request report).register currency).rows ∧
      (request.dryRun = false → report.status = .completed →
        date ∈ ((base.record date currency request report).register currency).closed) := by
  have hsame : ∀ other, base.register other = books.register other := Books.register_congr hperiods
  have hothers : ∀ other, other ≠ currency →
      (base.record date currency request report).register other = books.register other :=
    fun other hne => (Books.register_record_of_ne hne).trans (hsame other)
  have hstatus : ∀ day other, base.periodStatus day other = some .closed ↔
      base.completedRun day other ≠ none := by
    intro day other
    rw [Books.completedRun_congr hruns, ← hagrees day other, ← Books.mem_closed_register, hsame,
      Books.mem_closed_register]
  have hcompletedRun : ∀ day other,
      (base.record date currency request report).completedRun day other ≠ none ↔
        day ∈ (books.register other).closed ∨ date = day ∧ currency = other ∧
          report.status = .completed ∧ request.dryRun = false := by
    intro day other
    rw [Ne, Books.completedRun_record_eq_none, not_and_or, not_not, ← Ne, ← hstatus,
      ← Books.mem_closed_register, hsame]
  -- the register of the currency decides the rest
  have hassemble : ∀ register : Register Date,
      (base.record date currency request report).register currency = register →
      (∀ day, day ∈ register.closed ↔ day ∈ (books.register currency).closed ∨ date = day ∧
        report.status = .completed ∧ request.dryRun = false) →
      (base.record date currency request report).Agrees := by
    intro register hregister hclosed day other
    rw [hcompletedRun, ← Books.mem_closed_register]
    by_cases hother : other = currency
    · rw [hother, hregister, hclosed]
      simp
    · rw [hothers other hother]
      simp [Ne.symm hother]
  cases hdry : request.dryRun with
  | true =>
    have hregister : (base.record date currency request report).register currency =
        (base.register currency).enter date := Books.register_record_dryRun hdry
    rw [hsame] at hregister
    refine ⟨⟨hassemble _ hregister fun day => ?_, .inr ⟨hothers, .inl hregister⟩⟩, ?_, ?_⟩
    · simp [hdry]
    · rw [hregister]
      exact .inl rfl
    · intro hreal
      cases hreal
  | false =>
    have hnone : books.completedRun date currency = none := by
      cases hopen with
      | inl hrehearsal =>
        rw [hdry] at hrehearsal
        cases hrehearsal
      | inr hnone => exact hnone
    by_cases hcompleted : report.status = .completed
    · have hregister : (base.record date currency request report).register currency =
          (base.register currency).close date :=
        Books.register_record_completed hdry hcompleted
      rw [hsame] at hregister
      refine ⟨⟨hassemble _ hregister fun day => ?_, .inr ⟨hothers, .inr ⟨rfl, hregister⟩⟩⟩,
        ?_, fun _ _ => ?_⟩
      · simp [hdry, hcompleted, or_comm, eq_comm]
      · rw [hregister]
        exact .inl rfl
      · rw [hregister]
        exact .inl rfl
    · have hopen' : base.periodStatus date currency ≠ some .closed := by
        intro hclosed
        exact (hstatus _ _).mp hclosed ((Books.completedRun_congr hruns _ _).trans hnone)
      have hregister : (base.record date currency request report).register currency =
          (base.register currency).enter date :=
        Books.register_record_failed hdry hcompleted hopen'
      rw [hsame] at hregister
      refine ⟨⟨hassemble _ hregister fun day => ?_, .inr ⟨hothers, .inl hregister⟩⟩, ?_, ?_⟩
      · simp [hcompleted]
      · rw [hregister]
        exact .inl rfl
      · exact fun _ hdone => absurd hdone hcompleted

end

section

variable {books : Books} {input : CloseInput}

/-- The day of a call is the one of its input. -/
theorem target_request {date : Date} {currency : String} {config : Configuration}
    (htarget : books.target input.request = some (date, currency, config)) :
    date = input.businessDate ∧ currency = input.currency.toUpper := by
  obtain ⟨hdate, hcurrency, _, _⟩ := Books.target_eq_some.mp htarget
  exact ⟨(Option.some.inj hdate).symm, (Option.some.inj hcurrency).symm⟩

/-- What the procedure does when it is called for one currency. -/
theorem closeEod_closing (hagrees : books.Agrees) (input : CloseInput) :
    Closing books (closeEod books input.request).1 input.businessDate input.currency.toUpper
        input.dryRun ∧
      (books.target input.request ≠ none → input.businessDate ∈
        ((closeEod books input.request).1.register input.currency.toUpper).rows) ∧
      (input.dryRun = false → (closeEod books input.request).2.statusCode.success →
        input.businessDate ∈
          ((closeEod books input.request).1.register input.currency.toUpper).closed) ∧
      (input.dryRun = true → ∀ run, (closeEod books input.request).2.runVersion.bind (fun version =>
        (closeEod books input.request).1.runs.find?
          (input.businessDate, input.currency.toUpper, version)) = some run → run.dryRun) := by
  cases htarget : books.target input.request with
  | none =>
    obtain ⟨code, hfails, hrefused⟩ := closeEod_of_none htarget
    rw [hrefused]
    refine ⟨⟨hagrees, .inl fun _ => rfl⟩, fun h => absurd rfl h, fun _ hsuccess => ?_,
      fun _ run hrun => ?_⟩
    · rw [show (books, refused code).2.statusCode = code from rfl, hfails] at hsuccess
      cases hsuccess
    · cases hrun
  | some about =>
    obtain ⟨date, currency, config⟩ := about
    obtain ⟨rfl, rfl⟩ := target_request htarget
    by_cases hdone : input.dryRun = false ∧
        books.completedRun input.businessDate input.currency.toUpper ≠ none
    · obtain ⟨hreal, hrun⟩ := hdone
      obtain ⟨existing, hexisting⟩ := Option.ne_none_iff_exists'.mp hrun
      rw [closeEod_of_completed htarget hreal hexisting]
      have hclosed : input.businessDate ∈ (books.register input.currency.toUpper).closed :=
        (hagrees _ _).mpr hrun
      refine ⟨⟨hagrees, .inl fun _ => rfl⟩, fun _ => Register.subset _ hclosed,
        fun _ _ => hclosed, fun hdry => ?_⟩
      rw [hreal] at hdry
      cases hdry
    · have hopen : input.request.dryRun = true ∨
          books.completedRun input.businessDate input.currency.toUpper = none := by
        rw [not_and_or, not_not] at hdone
        exact hdone.imp_left (Bool.not_eq_false _).mp
      rw [closeEod_of_open htarget hopen]
      obtain ⟨base, report, hrecord, hruns, hperiods, hsuccess⟩ :=
        closeDay_eq_record books input.businessDate input.currency.toUpper input.request config
      rw [hrecord]
      obtain ⟨hclosing, hrow, hcloses⟩ : Closing books (base.record _ _ _ report) _ _ _ ∧ _ ∧ _ :=
        Closing.record _ hagrees hruns hperiods hopen
      refine ⟨hclosing, fun _ => hrow, fun hreal hanswer => hcloses hreal ((hsuccess hreal).mp
        hanswer), fun hdry run hrun => ?_⟩
      -- the version that is answered is the one of the recorded run
      have hnew : base.newRun input.businessDate input.currency.toUpper input.request report ∈
          (base.record input.businessDate input.currency.toUpper input.request report).runs.rows := by
        rw [Books.runs_record]
        exact List.mem_append_right _ (List.mem_singleton_self _)
      rw [Table.eq_of_key_eq _ (Table.find?_eq_some.mp hrun).1 hnew (Table.find?_eq_some.mp hrun).2]
      exact hdry

/-- Storing the readiness of a call changes no register. -/
theorem Closing.persistReadiness {before after : Books} {date : Date} {currency : String}
    {dryRun : Bool} (hclosing : Closing before after date currency dryRun) {version : Option ℕ}
    {checks : List Check}
    (hblocked : ∀ run, version.bind (fun version => after.runs.find? (date, currency, version)) =
      some run → isReady checks ∨ run.dryRun) :
    Closing before (after.persistReadiness date currency version checks) date currency dryRun := by
  constructor
  · intro day other
    rw [Ne, Books.completedRun_persistReadiness hblocked, ← Ne, ← hclosing.agrees day other,
      ← Books.mem_closed_register, Books.register_persistReadiness, Books.mem_closed_register]
  · simpa only [Registers, Books.register_persistReadiness] using hclosing.registers

/-- What `runOne` has done when it returns or fails. -/
theorem runOne_closing (hagrees : books.Agrees) (input : CloseInput) (work : PendingWork)
    (fault : Option Fault) :
    Closing books (runOne books input work fault).1 input.businessDate input.currency.toUpper
        input.dryRun ∧
      (fault ≠ some .beforeClose →
        isReady (books.readiness input.businessDate input.currency.toUpper work) →
        books.target input.request ≠ none → input.businessDate ∈
          ((runOne books input work fault).1.register input.currency.toUpper).rows) ∧
      ((runOne books input work fault).2 = .closed → input.businessDate ∈
        ((runOne books input work fault).1.register input.currency.toUpper).closed) := by
  obtain ⟨hclosing, hrow, hcloses, hdryRuns⟩ := closeEod_closing hagrees input
  unfold runOne
  dsimp only
  split
  case isTrue hearly =>
    refine ⟨⟨hagrees, .inl fun _ => rfl⟩, fun hfault hready _ => ?_, fun hclosed => ?_⟩
    · rw [hready] at hearly
      simp [hfault] at hearly
    · cases hclosed
  case isFalse hlate =>
    split
    case isTrue => exact ⟨hclosing, fun _ _ => hrow, fun hclosed => by cases hclosed⟩
    case isFalse =>
      have hblocked : ∀ run, (closeEod books input.request).2.runVersion.bind (fun version =>
          (closeEod books input.request).1.runs.find?
            (input.businessDate, input.currency.toUpper, version)) = some run →
          isReady (books.readiness input.businessDate input.currency.toUpper work) ∨
            run.dryRun := by
        intro run hrun
        cases hdry : input.dryRun with
        | true => exact .inr (hdryRuns hdry run hrun)
        | false =>
          left
          by_contra hready
          exact hlate (.inr ⟨hdry, (Bool.not_eq_true _).mp hready⟩)
      refine ⟨hclosing.persistReadiness hblocked, fun _ _ htarget => ?_, fun hclosed => ?_⟩
      · rw [Books.register_persistReadiness]
        exact hrow htarget
      · rw [Books.register_persistReadiness]
        simp only [ite_eq_iff, Bool.and_eq_true, reduceCtorEq, and_false, or_false, and_true,
          false_or, Bool.not_eq_true] at hclosed
        exact hcloses hclosed.2 hclosed.1.2

end

/-! ## What a batch does -/

theorem Registers.closed {before after : Books} {date : Date} {currency : String} {dryRun : Bool}
    (hregisters : Registers before after date currency dryRun) (other : String) :
    (before.register other).closed ⊆ (after.register other).closed ∧
      (dryRun = true → (after.register other).closed = (before.register other).closed) := by
  rcases hregisters with hsame | ⟨hothers, hown⟩
  · simp [hsame]
  · by_cases hother : other = currency
    · subst hother
      rcases hown with henter | ⟨hreal, hclose⟩
      · rw [henter]
        exact ⟨subset_rfl, fun _ => rfl⟩
      · rw [hclose]
        exact ⟨fun _ hday => .inr hday, fun hdry => absurd (hreal.symm.trans hdry) (by decide)⟩
    · simp [hothers other hother]

/-- What is left of the registers by a batch with its answers: what is reported as closed is
closed, whatever was closed stays so, and a rehearsal closes nothing. -/
structure Answers (before after : Books) (input : CloseInput) (currencies : List (String × Bool))
    (results : List ItemStatus) : Prop where
  agrees : after.Agrees
  kept : ∀ other, (before.register other).closed ⊆ (after.register other).closed
  rehearsed : input.dryRun = true →
    ∀ other, (after.register other).closed = (before.register other).closed
  reported : List.Forall₂ (fun item status => status = .closed →
    input.businessDate ∈ (after.register item.1.toUpper).closed) currencies results

theorem runEach_answers (input : CloseInput) (conditions : String → PendingWork × Option Fault)
    {books : Books} (hagrees : books.Agrees) (currencies : List (String × Bool)) :
    Answers books (runEach input conditions books currencies).1 input currencies
      (runEach input conditions books currencies).2 := by
  induction currencies generalizing books with
  | nil => exact ⟨hagrees, fun _ => subset_rfl, fun _ _ => rfl, .nil⟩
  | cons item rest ih =>
    obtain ⟨currency, configured⟩ := item
    cases configured with
    | false =>
      obtain ⟨hafter, hkept, hrehearsed, hreported⟩ := ih hagrees
      exact ⟨hafter, hkept, hrehearsed, .cons (fun hclosed => by cases hclosed) hreported⟩
    | true =>
      obtain ⟨hclosing, _, hcloses⟩ := runOne_closing hagrees (input.forCurrency currency)
        (conditions currency).1 (conditions currency).2
      obtain ⟨hafter, hkept, hrehearsed, hreported⟩ := ih hclosing.agrees
      have hfirst := hclosing.registers.closed
      refine ⟨hafter, fun other => (hfirst other).1.trans (hkept other),
        fun hdry other => (hrehearsed hdry other).trans ((hfirst other).2 hdry),
        .cons (fun hclosed => hkept _ (hcloses ?_)) hreported⟩
      revert hclosed
      cases (runOne _ _ _ _).2 <;> simp [Outcome.item]

/-- A batch that runs undisturbed does what it answers. -/
theorem runAll_answers {books : Books} (hagrees : books.Agrees) (input : CloseInput)
    (currencies : List (String × Bool)) (conditions : String → PendingWork × Option Fault) :
    Answers books (runAll books input currencies conditions).1 input currencies
      (runAll books input currencies conditions).2 := by
  have heach := runEach_answers input conditions hagrees currencies
  exact ⟨heach.agrees, heach.kept, heach.rehearsed, heach.reported⟩

end Finify.Eod
