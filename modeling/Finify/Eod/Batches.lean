/-
# The batch of a date

`runOne` and `runAll` as they interleave.  A date has one batch row.  Every call of the
procedure, every failed readiness and every summary of `runAll` writes its status over what
was there.  The state keeps the calls under way between the transactions they commit; a call
of the procedure is one step, as the row of the batch lets one call of a date in at a time.
-/

import Finify.Eod.Orchestration
import Finify.Foundations.Transition
import Mathlib.Data.List.Dedup

namespace Finify.Eod.Batches

open Finify.Foundations

/-! ## The currencies of a date -/

def InForce (today : Date) (config : Configuration) : Prop :=
  config.isActive ∧ config.effectiveFrom ≤ today ∧ ∀ last ∈ config.effectiveTo, today ≤ last

instance (today : Date) (config : Configuration) : Decidable (InForce today config) :=
  inferInstanceAs (Decidable (_ ∧ _))

/-- `upper(currency)::varchar(3)`, which cuts off what is longer. -/
def currencyCode (currency : String) : String :=
  String.ofList (currency.toUpper.toList.take 3)

/-- `AccountingConfigService.currencyUniverse` on a day, with a flag for the configured ones;
`elsewhere` are the currencies of other entities' journals. -/
def currencyUniverse (books : Books) (today : Date) (elsewhere : List String) :
    List (String × Bool) :=
  let currencies := (books.wallets.rows.map Wallet.currency ++
    books.journals.rows.map Journal.currency ++ elsewhere ++
    books.configurations.map Configuration.currency).map currencyCode
  ((currencies.dedup.filter isCurrency).mergeSort (· ≤ ·)).flatMap fun currency =>
    match books.configurations.filter fun config =>
        config.currency = currency ∧ InForce today config with
    | [] => [(currency, false)]
    | configs => configs.map fun _ => (currency, true)

/-- The configured currencies of a day. -/
def configuredOn (books : Books) (today : Date) : List String :=
  (books.configurations.filter fun config =>
    isCurrency config.currency ∧ InForce today config).map Configuration.currency

def batchOf (books : Books) (date : Date) : Option BatchStatus :=
  (books.batches.find? date).map Batch.status

/-! ## Calls under way -/

/-- One of the `results` of `runAll`. -/
structure Item where
  currency : String
  configured : Bool
  status : ItemStatus
  deriving DecidableEq

/-- How far a call has come with the currency it is at: nothing yet, the readiness read, or
the procedure returned. -/
inductive Progress
  | idle
  | checked (currency : String) (checks : List Check)
  | closed (currency : String) (checks : List Check) (result : CloseResult)
  deriving DecidableEq

/-- A call of `runAll`, or of `runOne` where `whole` is false. -/
structure Job where
  input : CloseInput
  whole : Bool
  rest : List (String × Bool)
  items : List Item := []
  progress : Progress := .idle
  deriving DecidableEq

namespace Job

/-- The input of `runOne` for a currency; called by itself it is at the currency of its own
input. -/
def inputFor (job : Job) (currency : String) : CloseInput :=
  if job.whole then job.input.forCurrency currency else { job.input with currency := currency }

/-- The call goes on with the next currency, or returns. -/
def next (job : Job) (item : Item) : Option Job :=
  if job.whole then some { job with items := job.items ++ [item], progress := .idle } else none

end Job

/-- The database, the day it is and the calls under way. -/
structure State where
  books : Books
  today : Date
  jobs : List Job := []

/-- What happens: work of other transactions, midnight, a call of the procedure, calls of
`runOne` and `runAll`, and the next transaction, an exception or the loss of a call. -/
inductive Event
  | work (wallets : Table Wallet.walletMsisdn) (mappings : Table Mapping.walletCode)
      (accounts : Table GlAccount.accountCode) (journals : Log Journal.id) (entries : Log Entry.id)
  | midnight
  | direct (request : CloseRequest)
  | runOne (input : CloseInput)
  | runAll (input : CloseInput) (elsewhere : List String)
  | check (job : Job) (work : PendingWork)
  | close (job : Job)
  | persist (job : Job)
  | fail (job : Job)
  | finish (job : Job) (now : ℤ)
  | crash (job : Job)

namespace State

variable (state : State)

/-- A call under way, further on or returned. -/
def put (job : Job) (next : Option Job) : State :=
  { state with jobs := next.toList ++ state.jobs.erase job }

/-- The readiness of the next currency. -/
def check (job : Job) (work : PendingWork) : Option State :=
  match job.progress, job.rest with
  | .idle, (currency, false) :: rest =>
    some (state.put job
      (some { job with rest := rest, items := job.items ++ [⟨currency, false, .blocked⟩] }))
  | .idle, (currency, true) :: rest =>
    let checks := state.books.readiness job.input.businessDate currency.toUpper work
    if job.input.dryRun = false ∧ isReady checks = false then
      some (state.put job (({ job with rest := rest } : Job).next ⟨currency, true, .failed⟩))
    else
      some (state.put job
        (some { job with rest := rest, progress := .checked currency checks }))
  | _, _ => none

/-- The procedure is called and commits. -/
def close (job : Job) : Option State :=
  match job.progress with
  | .checked currency checks =>
    let result := closeEod state.books (job.inputFor currency).request
    some (({ state with books := result.1 } : State).put job
      (some { job with progress := .closed currency checks result.2 }))
  | _ => none

/-- `persistReadiness`, and `runOne` returns. -/
def persist (job : Job) : Option State :=
  match job.progress with
  | .closed currency checks result =>
    some (({ state with
        books := state.books.persistReadiness job.input.businessDate currency.toUpper
          result.runVersion checks } : State).put job
      (job.next ⟨currency, true,
        if isReady checks && result.statusCode.success then
          (if job.input.dryRun then .ready else .closed)
        else .blocked⟩))
  | _ => none

/-- An exception, which `runAll` notes for the currency. -/
def fail (job : Job) : Option State :=
  match job.progress with
  | .idle => none
  | .checked currency _ => some (state.put job (job.next ⟨currency, true, .failed⟩))
  | .closed currency _ _ => some (state.put job (job.next ⟨currency, true, .failed⟩))

/-- The summary of `runAll`. -/
def finish (job : Job) (now : ℤ) : Option State :=
  if job.whole = true ∧ job.progress = .idle ∧ job.rest = [] then
    some (({ state with
        books := { state.books with
          batches := state.books.batches.modify job.input.businessDate
            (fun batch => { batch with
              status := batchStatus job.input.dryRun (job.items.map Item.status)
              completedAt := some now }) fun _ => rfl } } : State).put job none)
  else none

end State

def step (state : State) : Event → Option State
  | .work wallets mappings accounts journals entries =>
    some { state with
      books :=
        { state.books with
          wallets := wallets
          mappings := mappings
          accounts := accounts
          journals := journals
          entries := entries } }
  | .midnight => some { state with today := state.today + 1 }
  | .direct request => some { state with books := (closeEod state.books request).1 }
  | .runOne input =>
    some { state with
      jobs := { input := input, whole := false, rest := [(input.currency, true)] } :: state.jobs }
  | .runAll input elsewhere =>
    some { state with
      jobs :=
        { input := input
          whole := true
          rest := currencyUniverse state.books state.today elsewhere } :: state.jobs }
  | .check job work => if job ∈ state.jobs then state.check job work else none
  | .close job => if job ∈ state.jobs then state.close job else none
  | .persist job => if job ∈ state.jobs then state.persist job else none
  | .fail job => if job ∈ state.jobs then state.fail job else none
  | .finish job now => if job ∈ state.jobs then state.finish job now else none
  | .crash job => some { state with jobs := state.jobs.erase job }

def Event.isDryRun : Event → Bool
  | .direct request => request.dryRun
  | .close job | .persist job | .finish job _ => job.input.dryRun
  | _ => false

/-- Nothing was closed yet and nothing is under way. -/
structure Opening (state : State) : Prop where
  jobs : state.jobs = []
  periods : state.books.periods.rows = []
  batches : state.books.batches.rows = []
  runs : state.books.runs.rows = []

/-! ## The claim about batches -/

/-- Every configured currency of a completed batch has a closed period. -/
def CompletedMeansClosed (state : State) : Prop :=
  ∀ date, batchOf state.books date = some .completed → ∀ currency elsewhere,
    (currency, true) ∈ currencyUniverse state.books state.today elsewhere →
      state.books.periodStatus date currency = some .closed

/-- Every batch there is keeps its status. -/
def KeepsBatches (before after : Books) : Prop :=
  ∀ date status, batchOf before date = some status → batchOf after date = some status

/-- The controls of the procedure pass: no journal is in the way, and where safeguarding is
strict the balances that the call compares are covered. -/
structure Clears (books : Books) (date : Date) (currency : String) (config : Configuration)
    (dryRun : Bool) : Prop where
  ready : books.Ready date currency
  covered : config.strictSafeguarding →
    (if dryRun then books.liveLiability currency else books.closingLiability date currency) ≤
      (books.balance config.masterWallet).getD 0

def OthersClosed (state : State) (date : Date) (exempt : Option String) : Prop :=
  ∀ currency ∈ configuredOn state.books state.today, some currency ≠ exempt →
    state.books.periodStatus date currency = some .closed

/-- A real call whose controls pass comes last of the configured currencies.  A dry run finds
a batch with the status it is going to write, or, where there is none and its controls pass,
all configured currencies closed. -/
def MayCall (state : State) (request : CloseRequest) : Prop :=
  ∀ about ∈ state.books.target request,
    if request.dryRun then
      match batchOf state.books about.1 with
      | some status => status = .completed ∧ Clears state.books about.1 about.2.1 about.2.2 true ∨
          status = .failed ∧ ¬ Clears state.books about.1 about.2.1 about.2.2 true
      | none => Clears state.books about.1 about.2.1 about.2.2 true →
          OthersClosed state about.1 none
    else
      state.books.completedRun about.1 about.2.1 = none →
        Clears state.books about.1 about.2.1 about.2.2 false →
          OthersClosed state about.1 (some about.2.1)

def Careful (state : State) : Event → Prop
  | .midnight => ∀ batch ∈ state.books.batches.rows, batch.status = .completed →
      ∀ currency ∈ configuredOn state.books (state.today + 1),
        state.books.periodStatus batch.businessDate currency = some .closed
  | .direct request => MayCall state request
  | .close job =>
    match job.progress with
    | .checked currency _ => MayCall state (job.inputFor currency).request
    | _ => True
  | .persist job =>
    match job.progress with
    | .closed _ checks result => result.runVersion = none ∨ isReady checks = true ∨
        ∀ status ∈ batchOf state.books job.input.businessDate, status = .failed
    | _ => True
  | .finish job _ =>
    if job.input.dryRun then
      ∀ status ∈ batchOf state.books job.input.businessDate,
        status = batchStatus true (job.items.map Item.status)
    else
      batchStatus false (job.items.map Item.status) = .completed →
        ∀ currency ∈ configuredOn state.books state.today,
          currency ∉ job.items.map Item.currency →
            state.books.periodStatus job.input.businessDate currency = some .closed
  | _ => True

/-! ## What calls leave behind -/

section

variable {before after books : Books}

theorem currencyCode_of_isCurrency {currency : String} (hiso : isCurrency currency) :
    currencyCode currency = currency := by
  have hlength : currency.toList.length = 3 := by
    have hthree := of_decide_eq_true (Bool.and_eq_true_iff.mp hiso).1
    rw [String.length_toList]
    exact hthree
  rw [currencyCode, toUpper_of_isCurrency hiso, List.take_of_length_le hlength.le,
    String.ofList_toList]

/-- The configured currencies of the universe are those with a configuration in force. -/
theorem mem_currencyUniverse {today : Date} {elsewhere : List String} {currency : String} :
    (currency, true) ∈ currencyUniverse books today elsewhere ↔
      currency ∈ configuredOn books today := by
  constructor
  · intro hmem
    obtain ⟨code, hcode, hrow⟩ := List.mem_flatMap.mp hmem
    have hiso : isCurrency code = true :=
      (List.mem_filter.mp ((List.mergeSort_perm _ _).subset hcode)).2
    cases hconfigs : books.configurations.filter fun config =>
        config.currency = code ∧ InForce today config with
    | nil =>
      rw [hconfigs] at hrow
      cases List.mem_singleton.mp hrow
    | cons config configs =>
      have hfound : config ∈ books.configurations.filter fun config =>
          config.currency = code ∧ InForce today config := by
        rw [hconfigs]
        exact List.mem_cons_self
      obtain ⟨hconfig, hfits⟩ := List.mem_filter.mp hfound
      obtain ⟨hcurrency, hforce⟩ := of_decide_eq_true hfits
      have hsame : currency = code := by
        rw [hconfigs] at hrow
        obtain ⟨_, _, heq⟩ := List.mem_map.mp hrow
        exact (congrArg Prod.fst heq).symm
      rw [hsame, ← hcurrency]
      apply List.mem_map_of_mem
      exact List.mem_filter.mpr ⟨hconfig, decide_eq_true ⟨by rw [hcurrency]; exact hiso, hforce⟩⟩
  · intro hmem
    obtain ⟨config, hconfig, rfl⟩ := List.mem_map.mp hmem
    obtain ⟨hrow, hfits⟩ := List.mem_filter.mp hconfig
    obtain ⟨hiso, hforce⟩ := of_decide_eq_true hfits
    apply List.mem_flatMap.mpr
    refine ⟨config.currency, ?_, ?_⟩
    · apply (List.mergeSort_perm _ _).symm.subset
      refine List.mem_filter.mpr ⟨List.mem_dedup.mpr (List.mem_map.mpr ⟨config.currency, ?_,
        currencyCode_of_isCurrency hiso⟩), hiso⟩
      exact List.mem_append_right _ (List.mem_map_of_mem hrow)
    · have hfound : config ∈ books.configurations.filter fun other =>
          other.currency = config.currency ∧ InForce today other :=
        List.mem_filter.mpr ⟨hrow, decide_eq_true ⟨rfl, hforce⟩⟩
      cases hconfigs : books.configurations.filter fun other =>
          other.currency = config.currency ∧ InForce today other with
      | nil =>
        rw [hconfigs] at hfound
        cases hfound
      | cons first others => exact List.mem_cons_self

theorem isCurrency_of_configuredOn {today : Date} {currency : String}
    (hmem : currency ∈ configuredOn books today) : isCurrency currency := by
  obtain ⟨config, hconfig, rfl⟩ := List.mem_map.mp hmem
  exact (of_decide_eq_true (List.mem_filter.mp hconfig).2).1

/-- Closed dates stay closed, runs stay the dry or real runs they are, and configurations
stay. -/
structure Grows (before after : Books) : Prop where
  closed : ∀ date currency, before.periodStatus date currency = some .closed →
    after.periodStatus date currency = some .closed
  runs : ∀ run ∈ before.runs.rows, ∃ kept ∈ after.runs.rows,
    kept.key = run.key ∧ kept.dryRun = run.dryRun
  configurations : after.configurations = before.configurations

theorem Grows.refl (books : Books) : Grows books books :=
  ⟨fun _ _ hclosed => hclosed, fun run hrun => ⟨run, hrun, rfl, rfl⟩, rfl⟩

theorem Grows.configuredOn (hgrows : Grows before after) (today : Date) :
    configuredOn after today = configuredOn before today := by
  rw [Batches.configuredOn, hgrows.configurations, Batches.configuredOn]

/-- What a call does to the registers keeps what is closed. -/
theorem closed_of_registers {date : Date} {currency : String} {dryRun : Bool}
    (hregisters : Registers before after date currency dryRun) (day : Date) (other : String)
    (hclosed : before.periodStatus day other = some .closed) :
    after.periodStatus day other = some .closed := by
  rw [← Books.mem_closed_register] at hclosed ⊢
  rcases hregisters with hsame | ⟨hothers, hown⟩
  · rw [hsame]
    exact hclosed
  · by_cases hother : other = currency
    · rw [hother] at hclosed ⊢
      rcases hown with henter | ⟨_, hclose⟩
      · rw [henter]
        exact hclosed
      · rw [hclose]
        exact .inr hclosed
    · rw [hothers other hother]
      exact hclosed

/-- The report of a call that works through a day. -/
def closeReport (books : Books) (date : Date) (currency : String) (request : CloseRequest)
    (config : Configuration) : Report :=
  if 0 < blockingCount (books.journalValidation date currency) then
    .notReady (books.journalValidation date currency)
  else if request.dryRun then books.rehearsal date currency config
  else (books.snapshot date currency).settlement date currency config

/-- A call that works through a day records its report and answers with it. -/
theorem closeDay_eq (books : Books) (date : Date) (currency : String) (request : CloseRequest)
    (config : Configuration) :
    ∃ base : Books, books.closeDay date currency request config =
        (base.record date currency request (closeReport books date currency request config),
          base.answer date currency (closeReport books date currency request config)) ∧
      base.runs = books.runs ∧ base.periods = books.periods ∧ base.batches = books.batches ∧
      base.configurations = books.configurations := by
  unfold Books.closeDay closeReport
  dsimp only
  split
  · exact ⟨books, rfl, rfl, rfl, rfl, rfl⟩
  · split
    · exact ⟨books, rfl, rfl, rfl, rfl, rfl⟩
    · exact ⟨_, rfl, rfl, rfl, rfl, rfl⟩

variable {date : Date} {currency : String} {request : CloseRequest} {config : Configuration}

/-- The report passes exactly when the controls do. -/
theorem closeReport_status (books : Books) (date : Date) (currency : String)
    (request : CloseRequest) (config : Configuration) :
    (Clears books date currency config request.dryRun →
      (closeReport books date currency request config).status =
        if request.dryRun then .validated else .completed) ∧
    (¬ Clears books date currency config request.dryRun →
      (closeReport books date currency request config).status = .blocked) := by
  by_cases hready : books.Ready date currency
  · have hzero := (books.blockingCount_journalValidation date currency).mpr hready
    have hstatus : (closeReport books date currency request config).status =
        if config.strictSafeguarding →
            (if request.dryRun then books.liveLiability currency
              else books.closingLiability date currency) ≤
              (books.balance config.masterWallet).getD 0 then
          (if request.dryRun then .validated else .completed)
        else .blocked := by
      rw [closeReport, if_neg (by omega)]
      cases hdry : request.dryRun with
      | true => exact Report.compared_status ..
      | false =>
        rw [← Books.snapshotLiability_snapshot]
        exact Report.compared_status ..
    rw [hstatus]
    constructor
    · intro hclears
      exact if_pos hclears.covered
    · intro hfails
      exact if_neg fun hcovered => hfails ⟨hready, hcovered⟩
  · have hpos : 0 < blockingCount (books.journalValidation date currency) := by
      apply Nat.pos_of_ne_zero
      exact fun hzero => hready ((books.blockingCount_journalValidation date currency).mp hzero)
    constructor
    · intro hclears
      exact absurd hclears.ready hready
    · intro _
      rw [closeReport, if_pos hpos]
      rfl

/-- A real call that succeeds has completed its run. -/
theorem closeReport_success (hreal : request.dryRun = false)
    (hsuccess : (closeReport books date currency request config).statusCode.success) :
    (closeReport books date currency request config).status = .completed := by
  by_cases hclears : Clears books date currency config request.dryRun
  · rw [(closeReport_status _ _ _ _ _).1 hclears, hreal]
    rfl
  · have hblocked := (closeReport_status _ _ _ _ _).2 hclears
    revert hblocked hsuccess
    simp only [closeReport, hreal, Bool.false_eq_true, if_false]
    split
    · simp [Report.notReady, StatusCode.success]
    · simp only [Books.settlement, Report.compared, Bool.false_eq_true, if_false]
      split <;> simp [StatusCode.success]

theorem batchOf_record (books : Books) (report : Report) (day : Date) :
    batchOf (books.record date currency request report) day =
      if day = date then some report.status.batchStatus else batchOf books day := by
  have hfind := Table.find?_upsert books.batches (Books.newBatch date request report)
    (Books.rewriteBatch request report) (fun _ => rfl) day
  rw [batchOf, show (books.record date currency request report).batches.find? day = _ from hfind]
  by_cases hday : day = date
  · rw [if_pos hday, if_pos (by exact hday)]
    cases books.batches.find? day <;> rfl
  · rw [if_neg hday, if_neg (by exact hday), batchOf]

/-- What a call of the procedure has done when it returns. -/
structure CallEffect (before : Books) (request : CloseRequest) (after : Books)
    (result : CloseResult) : Prop where
  agrees : after.Agrees
  grows : Grows before after
  succeeds : request.dryRun = false → result.statusCode.success → ∀ date currency,
    request.businessDate = some date → request.currency = some currency →
      after.periodStatus date currency = some .closed
  recorded : request.dryRun = true → ∀ version ∈ result.runVersion, ∀ date currency,
    request.businessDate = some date → request.currency = some currency →
      ∃ run ∈ after.runs.rows, run.key = (date, currency, version) ∧ run.dryRun = true
  batches : (∀ day, batchOf after day = batchOf before day) ∨
    ∃ about ∈ before.target request,
      (request.dryRun = true ∨ before.completedRun about.1 about.2.1 = none) ∧
      (∀ day, day ≠ about.1 → batchOf after day = batchOf before day) ∧
      (Clears before about.1 about.2.1 about.2.2 request.dryRun →
        batchOf after about.1 = some .completed ∧
          (request.dryRun = false → after.periodStatus about.1 about.2.1 = some .closed)) ∧
      (¬ Clears before about.1 about.2.1 about.2.2 request.dryRun →
        batchOf after about.1 = some .failed)

/-- What a call of the procedure does. -/
theorem closeEod_effect (hagrees : books.Agrees) (request : CloseRequest) :
    CallEffect books request (closeEod books request).1 (closeEod books request).2 := by
  cases htarget : books.target request with
  | none =>
    obtain ⟨code, hfails, hrefused⟩ := closeEod_of_none htarget
    rw [hrefused]
    constructor
    · exact hagrees
    · exact .refl books
    · intro _ hsuccess
      exact absurd (hfails.symm.trans hsuccess) Bool.false_ne_true
    · intro _ version hversion
      cases hversion
    · exact .inl fun _ => rfl
  | some about =>
    obtain ⟨hdate, hcurrency, _, _⟩ := Books.target_eq_some.mp
      (show books.target request = some (about.1, about.2.1, about.2.2) from htarget)
    by_cases hdone : request.dryRun = false ∧ books.completedRun about.1 about.2.1 ≠ none
    · obtain ⟨hreal, hrun⟩ := hdone
      obtain ⟨existing, hexisting⟩ := Option.ne_none_iff_exists'.mp hrun
      rw [closeEod_of_completed htarget hreal hexisting]
      constructor
      · exact hagrees
      · exact .refl books
      · intro _ _ date currency hdate' hcurrency'
        rw [hdate] at hdate'
        rw [hcurrency] at hcurrency'
        cases hdate'
        cases hcurrency'
        exact (hagrees _ _).mpr hrun
      · intro hdry
        rw [hreal] at hdry
        cases hdry
      · exact .inl fun _ => rfl
    · have hopen : request.dryRun = true ∨ books.completedRun about.1 about.2.1 = none := by
        rw [not_and_or, not_not] at hdone
        exact hdone.imp_left (Bool.not_eq_false _).mp
      obtain ⟨base, hcall, hruns, hperiods, hbatches, hconfigurations⟩ :=
        closeDay_eq books about.1 about.2.1 request about.2.2
      rw [closeEod_of_open htarget hopen, hcall]
      obtain ⟨hclears, hfails⟩ := closeReport_status books about.1 about.2.1 request about.2.2
      have hsucceeds : request.dryRun = false →
          (closeReport books about.1 about.2.1 request about.2.2).statusCode.success →
            (closeReport books about.1 about.2.1 request about.2.2).status = .completed :=
        closeReport_success
      generalize closeReport books about.1 about.2.1 request about.2.2 = report at *
      obtain ⟨hclosing, _, hcloses⟩ := Closing.record report hagrees hruns hperiods hopen
      have hcompleted : request.dryRun = false → report.status = .completed →
          (base.record about.1 about.2.1 request report).periodStatus about.1 about.2.1 =
            some .closed := hcloses
      constructor
      · exact hclosing.agrees
      · constructor
        · exact closed_of_registers hclosing.registers
        · intro run hrun
          refine ⟨run, ?_, rfl, rfl⟩
          rw [Books.runs_record, hruns]
          exact List.mem_append_left _ hrun
        · exact hconfigurations
      · intro hreal hsuccess date currency hdate' hcurrency'
        rw [hdate] at hdate'
        rw [hcurrency] at hcurrency'
        cases hdate'
        cases hcurrency'
        exact hcompleted hreal (hsucceeds hreal hsuccess)
      · intro hdry version hversion date currency hdate' hcurrency'
        rw [hdate] at hdate'
        rw [hcurrency] at hcurrency'
        cases hdate'
        cases hcurrency'
        cases hversion
        refine ⟨base.newRun about.1 about.2.1 request report, ?_, rfl, hdry⟩
        rw [Books.runs_record]
        exact List.mem_append_right _ (List.mem_singleton_self _)
      · right
        refine ⟨about, htarget, hopen, ?_, ?_, ?_⟩
        · intro day hday
          rw [batchOf_record, if_neg hday, batchOf, hbatches, batchOf]
        · intro hpasses
          have hstatus := hclears hpasses
          constructor
          · rw [batchOf_record, if_pos rfl, hstatus]
            cases request.dryRun <;> rfl
          · intro hreal
            apply hcompleted hreal
            rw [hstatus, hreal]
            rfl
        · intro hblocked
          rw [batchOf_record, if_pos rfl, hfails hblocked]
          rfl

end

end Finify.Eod.Batches
