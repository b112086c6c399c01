/-
# Closed days

Transactions that write journals run beside closes.  Each takes its business date when it
starts and shows its rows when it commits; a close reads the journals of its day some time
before it commits.  Nothing in the database keeps the two apart.  The module proves what
does: a day stays as it was closed in every run in which no writer of the day is under way
together with its close or starts after it.
-/

import Finify.Eod.Rehearsal
import Finify.Eod.Writers
import Finify.Foundations.Transition

namespace Finify.Eod

open Finify.Foundations
open Finify.Posting (JournalStatus)

/-! ## A close in two steps -/

/-- A real close between its reading of the journals and its commit. -/
structure PendingClose where
  request : CloseRequest
  date : Date
  currency : String
  config : Configuration
  exceptions : List EodException
  activity : Totals
  isReal : request.dryRun = false

def PendingClose.day (pending : PendingClose) : Date × String := (pending.date, pending.currency)

def Writer.day (writer : Writer) : Date × String := (writer.businessDate, writer.currency)

namespace Books

/-- The procedure up to the reading of the figures of the day. -/
def beginClose (books : Books) (request : CloseRequest) : Option PendingClose :=
  match books.target request with
  | none => none
  | some about =>
    if hreal : request.dryRun = false then
      if books.completedRun about.1 about.2.1 = none then
        some
          { request := request
            date := about.1
            currency := about.2.1
            config := about.2.2
            exceptions := books.journalValidation about.1 about.2.1
            activity := books.activity about.1 about.2.1
            isReal := hreal }
      else none
    else none

/-- The rest of the procedure. -/
def finishClose (books : Books) (pending : PendingClose) : Books :=
  if 0 < blockingCount pending.exceptions then
    books.record pending.date pending.currency pending.request (.notReady pending.exceptions)
  else
    let taken := books.snapshot pending.date pending.currency
    taken.record pending.date pending.currency pending.request
      (.compared false pending.config.strictSafeguarding pending.activity
        (taken.dayBalances pending.date pending.currency).length
        (taken.balance pending.config.masterWallet)
        (taken.snapshotLiability pending.date pending.currency))

variable {books : Books} {request : CloseRequest} {pending : PendingClose}

theorem beginClose_eq_some (hbegin : books.beginClose request = some pending) :
    books.target request = some (pending.date, pending.currency, pending.config) ∧
      books.completedRun pending.date pending.currency = none ∧
      pending.request = request ∧
      pending.exceptions = books.journalValidation pending.date pending.currency ∧
      pending.activity = books.activity pending.date pending.currency := by
  unfold beginClose at hbegin
  cases htarget : books.target request with
  | none =>
    rw [htarget] at hbegin
    cases hbegin
  | some about =>
    rw [htarget] at hbegin
    simp only at hbegin
    split at hbegin
    · split at hbegin
      case isTrue hnone =>
        cases hbegin
        exact ⟨rfl, hnone, rfl, rfl, rfl⟩
      case isFalse => cases hbegin
    · cases hbegin

end Books

/-! ## Runs -/

/-- The database with the transactions under way. -/
structure Accounting where
  books : Books
  writing : List Writer := []
  closing : List PendingClose := []

/-- What happens to the database. -/
inductive Event
  | start (writer : Writer)
  | commit (writer : Writer) (status : JournalStatus) (lines : List Line)
  | rollBack (writer : Writer)
  | mark (journalId : ℕ) (status : JournalStatus)
  | maintain (wallets : Table Wallet.walletMsisdn) (mappings : Table Mapping.walletCode)
      (accounts : Table GlAccount.accountCode) (configurations : List Configuration)
  | rehearse (request : CloseRequest)
  | beginClose (request : CloseRequest)
  | finishClose (date : Date) (currency : String)
  | abandonClose (date : Date) (currency : String)

/-- One event.  The advisory lock lets one close of a day in at a time; `maintain` is any
change of wallets, mappings, accounts and configurations. -/
def step (state : Accounting) : Event → Option Accounting
  | .start writer => some { state with writing := writer :: state.writing }
  | .commit writer status lines =>
    if writer ∈ state.writing then
      some { state with
        books := state.books.write writer status lines
        writing := state.writing.erase writer }
    else none
  | .rollBack writer => some { state with writing := state.writing.erase writer }
  | .mark journalId status =>
    some { state with books := state.books.markJournal journalId status }
  | .maintain wallets mappings accounts configurations =>
    some { state with
      books :=
        { state.books with
          wallets := wallets
          mappings := mappings
          accounts := accounts
          configurations := configurations } }
  | .rehearse request => some { state with books := (rehearse state.books request).1 }
  | .beginClose request =>
    match state.books.beginClose request with
    | none => none
    | some pending =>
      if ∀ other ∈ state.closing, other.day ≠ pending.day then
        some { state with closing := pending :: state.closing }
      else none
  | .finishClose date currency =>
    match state.closing.find? fun pending => pending.day = (date, currency) with
    | none => none
    | some pending =>
      some { state with
        books := state.books.finishClose pending
        closing := state.closing.filter fun other => other.day ≠ (date, currency) }
  | .abandonClose date currency =>
    some { state with
      closing := state.closing.filter fun other => other.day ≠ (date, currency) }

theorem step_beginClose {state after : Accounting} {request : CloseRequest}
    (hstep : step state (.beginClose request) = some after) :
    ∃ pending, state.books.beginClose request = some pending ∧
      (∀ other ∈ state.closing, other.day ≠ pending.day) ∧
      after = { state with closing := pending :: state.closing } := by
  simp only [step] at hstep
  cases hbegin : state.books.beginClose request with
  | none =>
    rw [hbegin] at hstep
    cases hstep
  | some pending =>
    simp only [hbegin, Option.ite_none_right_eq_some, Option.some.injEq] at hstep
    exact ⟨pending, rfl, hstep.1, hstep.2.symm⟩

/-- A close is finished for the day that it was begun for. -/
theorem step_finishClose {state after : Accounting} {date : Date} {currency : String}
    (hstep : step state (.finishClose date currency) = some after) :
    ∃ pending ∈ state.closing, date = pending.date ∧ currency = pending.currency ∧
      after = { state with
        books := state.books.finishClose pending
        closing := state.closing.filter fun other => other.day ≠ pending.day } := by
  simp only [step] at hstep
  cases hfind : state.closing.find? fun pending => pending.day = (date, currency) with
  | none =>
    rw [hfind] at hstep
    cases hstep
  | some pending =>
    have hday : pending.day = (date, currency) := by
      simpa using List.find?_some hfind
    simp only [hfind, Option.some.injEq] at hstep
    exact ⟨pending, List.mem_of_find?_eq_some hfind, congrArg Prod.fst hday.symm,
      congrArg Prod.snd hday.symm, hday ▸ hstep.symm⟩

/-- Nothing is under way and nothing was closed yet. -/
structure Opening (state : Accounting) : Prop where
  writing : state.writing = []
  closing : state.closing = []
  runs : state.books.runs.rows = []
  periods : state.books.periods.rows = []

/-! ## The claim about closed days -/

def Run.Closes (run : Run) : Prop := run.status = .completed ∧ run.dryRun = false

/-- The figures of the entries agree. -/
structure Totals.SameActivity (totals activity : Totals) : Prop where
  totalDebit : totals.totalDebit = activity.totalDebit
  totalCredit : totals.totalCredit = activity.totalCredit
  journalCount : totals.journalCount = activity.journalCount
  entryCount : totals.entryCount = activity.entryCount

/-- No journal or entry can be added to a closed day, and the totals of completed closes are
those of the entries of their dates. -/
structure Immutable (state : Accounting) : Prop where
  journals : ∀ event after, step state event = some after →
    ∀ journal ∈ after.books.journals.rows,
      (∀ old ∈ state.books.journals.rows, old.id ≠ journal.id) →
        state.books.periodStatus journal.businessDate journal.currency ≠ some .closed
  entries : ∀ event after, step state event = some after →
    ∀ entry ∈ after.books.entries.rows, entry ∉ state.books.entries.rows →
      state.books.periodStatus entry.businessDate entry.currency ≠ some .closed
  totals : ∀ run ∈ state.books.runs.rows, run.Closes →
    run.totals.SameActivity (state.books.activity run.businessDate run.currency)

/-- No writer starts on a day that is closed or being closed, and no close of a day begins
while a writer of the day is under way. -/
def Guarded (state : Accounting) : Event → Prop
  | .start writer =>
    state.books.periodStatus writer.businessDate writer.currency ≠ some .closed ∧
      ∀ pending ∈ state.closing, pending.day ≠ writer.day
  | .beginClose request =>
    ∀ writer ∈ state.writing,
      (request.businessDate, request.currency) ≠
        (some writer.businessDate, some writer.currency)
  | _ => True

instance (state : Accounting) : (event : Event) → Decidable (Guarded state event)
  | .start _ => inferInstanceAs (Decidable (_ ∧ _))
  | .commit _ _ _ => .isTrue trivial
  | .rollBack _ => .isTrue trivial
  | .mark _ _ => .isTrue trivial
  | .maintain _ _ _ _ => .isTrue trivial
  | .rehearse _ => .isTrue trivial
  | .beginClose request => inferInstanceAs (Decidable (∀ writer ∈ state.writing,
      (request.businessDate, request.currency) ≠
        (some writer.businessDate, some writer.currency)))
  | .finishClose _ _ => .isTrue trivial
  | .abandonClose _ _ => .isTrue trivial

/-! ## What keeps the days apart -/

/-- Writers under way are on open days, closes under way have read all of their days, and
what was closed is as it was. -/
structure Sealed (state : Accounting) : Prop where
  writers : ∀ writer ∈ state.writing,
    state.books.periodStatus writer.businessDate writer.currency ≠ some .closed ∧
      ∀ pending ∈ state.closing, pending.day ≠ writer.day
  apart : state.closing.Pairwise fun first second => first.day ≠ second.day
  read : ∀ pending ∈ state.closing,
    pending.activity = state.books.activity pending.date pending.currency ∧
      state.books.completedRun pending.date pending.currency = none
  closed : ∀ run ∈ state.books.runs.rows, run.Closes →
    run.totals.SameActivity (state.books.activity run.businessDate run.currency) ∧
      state.books.periodStatus run.businessDate run.currency = some .closed

namespace Books

variable {before after : Books}

/-- The figures of a day are read off the entries. -/
theorem activity_congr {date : Date} {currency : String}
    (hentries : after.dayEntries date currency = before.dayEntries date currency) :
    after.activity date currency = before.activity date currency := by
  rw [activity, hentries, activity]

/-- Writing on one day leaves the entries of the others alone. -/
theorem dayEntries_write (books : Books) {writer : Writer} (status : JournalStatus)
    (lines : List Line) {date : Date} {currency : String}
    (hother : writer.day ≠ (date, currency)) :
    (books.write writer status lines).dayEntries date currency =
      books.dayEntries date currency := by
  obtain ⟨added, hrows, hadded⟩ := books.write_entries writer status lines
  have hnone : (added.filter fun entry =>
      entry.businessDate = date ∧ entry.currency = currency) = [] := by
    apply List.filter_eq_nil_iff.mpr
    intro entry hentry hday
    obtain ⟨hdate, hcurrency⟩ := hadded entry hentry
    apply hother
    rw [← (of_decide_eq_true hday).1, ← (of_decide_eq_true hday).2, hdate, hcurrency]
    rfl
  rw [dayEntries, hrows, List.filter_append, hnone, List.append_nil, dayEntries]

/-- What the rest of a close writes. -/
theorem finishClose_eq_record (books : Books) (pending : PendingClose) :
    ∃ (base : Books) (report : Report), books.finishClose pending =
        base.record pending.date pending.currency pending.request report ∧
      base.runs = books.runs ∧ base.periods = books.periods ∧ base.journals = books.journals ∧
      base.entries = books.entries ∧
      (report.status = .completed → report.stored.SameActivity pending.activity) := by
  unfold finishClose
  split
  · refine ⟨books, _, rfl, rfl, rfl, rfl, rfl, fun hcompleted => ?_⟩
    cases hcompleted
  · exact ⟨_, _, rfl, rfl, rfl, rfl, rfl, fun _ => ⟨rfl, rfl, rfl, rfl⟩⟩

/-- A rehearsal writes a report of a dry run, or nothing. -/
theorem rehearse_eq_record (books : Books) (request : CloseRequest) :
    (rehearse books request).1 = books ∨
      ∃ (date : Date) (currency : String) (report : Report), (rehearse books request).1 =
        books.record date currency { request with dryRun := true } report := by
  cases htarget : books.target request with
  | none =>
    have hcall : ∃ code, code.success = false ∧ closeEod books { request with dryRun := true } =
        (books, refused code) := closeEod_of_none htarget
    obtain ⟨code, _, hrefused⟩ := hcall
    exact .inl (congrArg Prod.fst hrefused)
  | some about =>
    obtain ⟨report, hrehearse, _, _⟩ := rehearse_eq (show books.target request =
      some (about.1, about.2.1, about.2.2) from htarget)
    exact .inr ⟨_, _, report, congrArg Prod.fst hrehearse⟩

end Books

/-! ## Steps -/

section

variable {state after : Accounting}

/-- What does not touch entries, periods and runs, and starts nothing, keeps the days
apart. -/
theorem Sealed.of_same (hsealed : Sealed state) (hruns : after.books.runs = state.books.runs)
    (hperiods : after.books.periods = state.books.periods)
    (hentries : after.books.entries = state.books.entries)
    (hwriting : ∀ writer ∈ after.writing, writer ∈ state.writing)
    (hclosing : after.closing.Sublist state.closing) : Sealed after := by
  have hstatus : ∀ date currency, after.books.periodStatus date currency =
      state.books.periodStatus date currency := by
    intro date currency
    rw [Books.periodStatus, Books.period, hperiods]
    rfl
  have hactivity : ∀ date currency, after.books.activity date currency =
      state.books.activity date currency := by
    intro date currency
    apply Books.activity_congr
    rw [Books.dayEntries, hentries]
    rfl
  refine ⟨fun writer hwriter => ?_, hsealed.apart.sublist hclosing, fun pending hpending => ?_,
    fun run hrun hcloses => ?_⟩
  · obtain ⟨hopen, hfree⟩ := hsealed.writers writer (hwriting writer hwriter)
    rw [hstatus]
    exact ⟨hopen, fun pending hpending => hfree pending (hclosing.subset hpending)⟩
  · rw [hactivity, Books.completedRun, hruns]
    exact hsealed.read pending (hclosing.subset hpending)
  · rw [hruns] at hrun
    rw [hactivity, hstatus]
    exact hsealed.closed run hrun hcloses

/-- A writer may start on a day that is neither closed nor being closed. -/
theorem Sealed.start (hsealed : Sealed state) (writer : Writer)
    (hguard : Guarded state (.start writer)) :
    Sealed { state with writing := writer :: state.writing } := by
  refine ⟨fun other hother => ?_, hsealed.apart, hsealed.read, hsealed.closed⟩
  cases List.mem_cons.mp hother with
  | inl hnew =>
    rw [hnew]
    exact hguard
  | inr hold => exact hsealed.writers other hold

/-- A writer that commits adds to a day that no close has read. -/
theorem Sealed.commit (hsealed : Sealed state) {writer : Writer} (status : JournalStatus)
    (lines : List Line) (hwriter : writer ∈ state.writing) :
    Sealed { state with
      books := state.books.write writer status lines
      writing := state.writing.erase writer } := by
  have hsame := state.books.write_sameCloses writer status lines
  have hstatus : ∀ date currency, (state.books.write writer status lines).periodStatus date
      currency = state.books.periodStatus date currency := by
    intro date currency
    rw [Books.periodStatus, Books.period, hsame.periods]
    rfl
  obtain ⟨hopen, hfree⟩ := hsealed.writers writer hwriter
  refine ⟨fun other hother => ?_, hsealed.apart, fun pending hpending => ?_,
    fun run hrun hcloses => ?_⟩
  · show (state.books.write writer status lines).periodStatus _ _ ≠ _ ∧ _
    rw [hstatus]
    exact hsealed.writers other (List.mem_of_mem_erase hother)
  · obtain ⟨hread, hnone⟩ := hsealed.read pending hpending
    show pending.activity = (state.books.write writer status lines).activity _ _ ∧
      (state.books.write writer status lines).completedRun _ _ = none
    rw [Books.activity_congr (state.books.dayEntries_write status lines
      (fun hday => hfree pending hpending hday.symm)), Books.completedRun, hsame.runs]
    exact ⟨hread, hnone⟩
  · have hrun' : run ∈ state.books.runs.rows := by
      rw [← hsame.runs]
      exact hrun
    obtain ⟨htotals, hclosed⟩ := hsealed.closed run hrun' hcloses
    show run.totals.SameActivity ((state.books.write writer status lines).activity _ _) ∧
      (state.books.write writer status lines).periodStatus _ _ = _
    rw [hstatus, Books.activity_congr (state.books.dayEntries_write status lines ?_)]
    · exact ⟨htotals, hclosed⟩
    · intro hday
      rw [show writer.businessDate = run.businessDate from congrArg Prod.fst hday,
        show writer.currency = run.currency from congrArg Prod.snd hday] at hopen
      exact hopen hclosed

/-- A rehearsal adds the report of a dry run and opens a period at most. -/
theorem Sealed.rehearse (hsealed : Sealed state) (request : CloseRequest) :
    Sealed { state with books := (rehearse state.books request).1 } := by
  rcases state.books.rehearse_eq_record request with hsame | ⟨date, currency, report, hrecord⟩
  · rw [hsame]
    exact hsealed
  · rw [hrecord]
    have hstatus : ∀ day other, (state.books.record date currency
        { request with dryRun := true } report).periodStatus day other = some .closed ↔
          state.books.periodStatus day other = some .closed := by
      intro day other
      rw [Books.periodStatus_record_dryRun rfl]
      split
      · cases state.books.periodStatus day other <;> simp
      · rfl
    refine ⟨fun writer hwriter => ?_, hsealed.apart, fun pending hpending => ?_,
      fun run hrun hcloses => ?_⟩
    · obtain ⟨hopen, hfree⟩ := hsealed.writers writer hwriter
      exact ⟨fun hclosed => hopen ((hstatus _ _).mp hclosed), hfree⟩
    · obtain ⟨hread, hnone⟩ := hsealed.read pending hpending
      refine ⟨hread, Books.completedRun_eq_none.mpr fun run hrun hcompleted => ?_⟩
      rw [Books.runs_record] at hrun
      rcases List.mem_append.mp hrun with hold | hnew
      · exact Books.completedRun_eq_none.mp hnone run hold hcompleted
      · rw [List.mem_singleton.mp hnew] at hcompleted
        cases hcompleted.2.2.2
    · rcases List.mem_append.mp hrun with hold | hnew
      · obtain ⟨htotals, hclosed⟩ := hsealed.closed run hold hcloses
        exact ⟨htotals, (hstatus _ _).mpr hclosed⟩
      · rw [List.mem_singleton.mp hnew] at hcloses
        cases hcloses.2

/-- A close that begins reads a day that no writer is under way for. -/
theorem Sealed.beginClose (hsealed : Sealed state) {request : CloseRequest}
    {pending : PendingClose} (hguard : Guarded state (.beginClose request))
    (hbegin : state.books.beginClose request = some pending)
    (hfree : ∀ other ∈ state.closing, other.day ≠ pending.day) :
    Sealed { state with closing := pending :: state.closing } := by
  obtain ⟨htarget, hnone, _, _, hactivity⟩ := Books.beginClose_eq_some hbegin
  obtain ⟨hdate, hcurrency, _, _⟩ := Books.target_eq_some.mp htarget
  refine ⟨fun writer hwriter => ?_, List.pairwise_cons.mpr ⟨fun other hother hday =>
    hfree other hother hday.symm, hsealed.apart⟩, fun other hother => ?_, hsealed.closed⟩
  · obtain ⟨hopen, hothers⟩ := hsealed.writers writer hwriter
    refine ⟨hopen, fun other hother hday => ?_⟩
    cases List.mem_cons.mp hother with
    | inl hnew =>
      rw [hnew] at hday
      apply hguard writer hwriter
      rw [hdate, hcurrency]
      exact congrArg (fun day : Date × String => (some day.1, some day.2)) hday
    | inr hold => exact hothers other hold hday
  · cases List.mem_cons.mp hother with
    | inl hnew =>
      rw [hnew]
      exact ⟨hactivity, hnone⟩
    | inr hold => exact hsealed.read other hold

/-- A close that ends closes the day it has read, as it still is. -/
theorem Sealed.finishClose (hsealed : Sealed state) {pending : PendingClose}
    (hpending : pending ∈ state.closing) :
    Sealed { state with
      books := state.books.finishClose pending
      closing := state.closing.filter fun other => other.day ≠ pending.day } := by
  obtain ⟨base, report, hfinish, hruns, hperiods, _, hentries, hreport⟩ :=
    state.books.finishClose_eq_record pending
  obtain ⟨hread, hnone⟩ := hsealed.read pending hpending
  have hactivity : ∀ date currency, (state.books.finishClose pending).activity date currency =
      state.books.activity date currency := by
    intro date currency
    apply Books.activity_congr
    rw [hfinish]
    show base.entries.rows.filter _ = state.books.entries.rows.filter _
    rw [hentries]
  have hstatus : ∀ day other, (day, other) ≠ pending.day →
      (state.books.finishClose pending).periodStatus day other =
        state.books.periodStatus day other := by
    intro day other hne
    rw [hfinish, Books.periodStatus_record_of_ne hne, Books.periodStatus, Books.period, hperiods]
    rfl
  have hrows : ∀ run ∈ (state.books.finishClose pending).runs.rows,
      run ∈ state.books.runs.rows ∨
        run = base.newRun pending.date pending.currency pending.request report := by
    intro run hrun
    rw [hfinish, Books.runs_record, hruns] at hrun
    exact (List.mem_append.mp hrun).imp id List.mem_singleton.mp
  have hmem : ∀ other ∈ state.closing.filter fun other => other.day ≠ pending.day,
      other ∈ state.closing ∧ other.day ≠ pending.day := by
    intro other hother
    exact ⟨List.mem_of_mem_filter hother, by simpa using (List.mem_filter.mp hother).2⟩
  refine ⟨fun writer hwriter => ?_, hsealed.apart.sublist List.filter_sublist,
    fun other hother => ?_, fun run hrun hcloses => ?_⟩
  · obtain ⟨hopen, hfree⟩ := hsealed.writers writer hwriter
    have hne : writer.day ≠ pending.day := fun hday => hfree pending hpending hday.symm
    refine ⟨?_, fun other hother => hfree other (hmem other hother).1⟩
    show (state.books.finishClose pending).periodStatus _ _ ≠ _
    rw [hstatus _ _ hne]
    exact hopen
  · obtain ⟨hold, hne⟩ := hmem other hother
    obtain ⟨hotherRead, hotherNone⟩ := hsealed.read other hold
    refine ⟨hotherRead.trans (hactivity _ _).symm, ?_⟩
    refine Books.completedRun_eq_none.mpr fun run hrun hcompleted => ?_
    rcases hrows run hrun with hbefore | hnew
    · exact Books.completedRun_eq_none.mp hotherNone run hbefore hcompleted
    · rw [hnew] at hcompleted
      exact hne (Prod.ext hcompleted.1.symm hcompleted.2.1.symm)
  · show run.totals.SameActivity ((state.books.finishClose pending).activity _ _) ∧
      (state.books.finishClose pending).periodStatus _ _ = _
    rw [hactivity]
    rcases hrows run hrun with hbefore | hnew
    · obtain ⟨htotals, hclosed⟩ := hsealed.closed run hbefore hcloses
      refine ⟨htotals, (hstatus _ _ fun hday => ?_).trans hclosed⟩
      -- a day that a run has completed has no close under way
      exact Books.completedRun_eq_none.mp hnone run hbefore
        ⟨congrArg Prod.fst hday, congrArg Prod.snd hday, hcloses⟩
    · rw [hnew] at hcloses ⊢
      refine ⟨?_, ?_⟩
      · have htotals := hreport hcloses.1
        rw [hread] at htotals
        exact htotals
      · rw [hfinish]
        show (base.record _ _ _ _).periodStatus pending.date pending.currency = _
        rw [Books.periodStatus_record_real pending.isReal,
          if_pos (show report.status = .completed from hcloses.1)]

/-- Every admitted event keeps the days apart. -/
theorem Sealed.step {event : Event} (hsealed : Sealed state) (hguard : Guarded state event)
    (hstep : step state event = some after) : Sealed after := by
  cases event with
  | start writer =>
    cases hstep
    exact hsealed.start writer hguard
  | commit writer status lines =>
    simp only [Eod.step, Option.ite_none_right_eq_some, Option.some.injEq] at hstep
    obtain ⟨hwriter, rfl⟩ := hstep
    exact hsealed.commit status lines hwriter
  | rollBack writer =>
    cases hstep
    exact hsealed.of_same rfl rfl rfl (fun _ => List.mem_of_mem_erase) (.refl _)
  | mark journalId status | maintain wallets mappings accounts configurations =>
    cases hstep
    exact hsealed.of_same rfl rfl rfl (fun _ hwriter => hwriter) (.refl _)
  | rehearse request =>
    cases hstep
    exact hsealed.rehearse request
  | beginClose request =>
    obtain ⟨pending, hbegin, hfree, rfl⟩ := step_beginClose hstep
    exact hsealed.beginClose hguard hbegin hfree
  | finishClose date currency =>
    obtain ⟨pending, hpending, rfl, rfl, rfl⟩ := step_finishClose hstep
    exact hsealed.finishClose hpending
  | abandonClose date currency =>
    cases hstep
    exact hsealed.of_same rfl rfl rfl (fun _ hwriter => hwriter) List.filter_sublist

theorem Opening.sealed (hopening : Opening state) : Sealed state := by
  refine ⟨?_, ?_, ?_, ?_⟩
  · simp [hopening.writing]
  · simp [hopening.closing]
  · simp [hopening.closing]
  · simp [hopening.runs]

/-- Only a writer that was under way adds a journal or an entry. -/
theorem added_by_writer {event : Event} (hstep : step state event = some after) :
    (∀ journal ∈ after.books.journals.rows,
      (∀ old ∈ state.books.journals.rows, old.id ≠ journal.id) →
        ∃ writer ∈ state.writing, writer.day = (journal.businessDate, journal.currency)) ∧
    ∀ entry ∈ after.books.entries.rows, entry ∉ state.books.entries.rows →
      ∃ writer ∈ state.writing, writer.day = (entry.businessDate, entry.currency) := by
  have hunchanged : after.books.journals = state.books.journals →
      after.books.entries = state.books.entries →
      (∀ journal ∈ after.books.journals.rows,
        (∀ old ∈ state.books.journals.rows, old.id ≠ journal.id) →
          ∃ writer ∈ state.writing, writer.day = (journal.businessDate, journal.currency)) ∧
      ∀ entry ∈ after.books.entries.rows, entry ∉ state.books.entries.rows →
        ∃ writer ∈ state.writing, writer.day = (entry.businessDate, entry.currency) := by
    intro hjournals hentries
    rw [hjournals, hentries]
    exact ⟨fun journal hjournal hnew => absurd rfl (hnew journal hjournal),
      fun entry hentry hnew => absurd hentry hnew⟩
  cases event with
  | start writer | rollBack writer | maintain wallets mappings accounts configurations
  | abandonClose date currency =>
    cases hstep
    exact hunchanged rfl rfl
  | commit writer status lines =>
    simp only [Eod.step, Option.ite_none_right_eq_some, Option.some.injEq] at hstep
    obtain ⟨hwriter, rfl⟩ := hstep
    constructor
    · intro journal hjournal hnew
      rw [show (state.books.write writer status lines).journals.rows = _ from
        state.books.write_journals writer status lines] at hjournal
      rcases List.mem_append.mp hjournal with hold | hadded
      · exact absurd rfl (hnew journal hold)
      · rw [List.mem_singleton.mp hadded]
        exact ⟨writer, hwriter, rfl⟩
    · intro entry hentry hnew
      obtain ⟨added, hrows, hadded⟩ := state.books.write_entries writer status lines
      rw [show (state.books.write writer status lines).entries.rows = _ from hrows] at hentry
      rcases List.mem_append.mp hentry with hold | hmem
      · exact absurd hold hnew
      · obtain ⟨hdate, hcurrency⟩ := hadded entry hmem
        exact ⟨writer, hwriter, Prod.ext hdate.symm hcurrency.symm⟩
  | mark journalId status =>
    cases hstep
    constructor
    · intro journal hjournal hnew
      obtain ⟨old, hold, hid⟩ := Books.id_of_mem_markJournal hjournal
      exact absurd hid (hnew old hold)
    · intro entry hentry hnew
      exact absurd hentry hnew
  | rehearse request =>
    cases hstep
    rcases state.books.rehearse_eq_record request with hsame | ⟨date, currency, report, hrecord⟩
    · exact hunchanged (congrArg Books.journals hsame) (congrArg Books.entries hsame)
    · have hjournals := congrArg Books.journals hrecord
      have hentries := congrArg Books.entries hrecord
      exact hunchanged hjournals hentries
  | beginClose request =>
    obtain ⟨_, _, _, rfl⟩ := step_beginClose hstep
    exact hunchanged rfl rfl
  | finishClose date currency =>
    obtain ⟨pending, _, rfl, rfl, rfl⟩ := step_finishClose hstep
    obtain ⟨base, report, hfinish, _, _, hjournals, hentries, _⟩ :=
      state.books.finishClose_eq_record pending
    apply hunchanged
    · exact (congrArg Books.journals hfinish).trans hjournals
    · exact (congrArg Books.entries hfinish).trans hentries

/-- Where the days are kept apart, closed days are immutable. -/
theorem Sealed.immutable (hsealed : Sealed state) : Immutable state := by
  refine ⟨fun event after hstep journal hjournal hnew => ?_,
    fun event after hstep entry hentry hnew => ?_,
    fun run hrun hcloses => (hsealed.closed run hrun hcloses).1⟩
  · obtain ⟨writer, hwriter, hday⟩ := (added_by_writer hstep).1 journal hjournal hnew
    rw [show journal.businessDate = writer.businessDate from (congrArg Prod.fst hday).symm,
      show journal.currency = writer.currency from (congrArg Prod.snd hday).symm]
    exact (hsealed.writers writer hwriter).1
  · obtain ⟨writer, hwriter, hday⟩ := (added_by_writer hstep).2 entry hentry hnew
    rw [show entry.businessDate = writer.businessDate from (congrArg Prod.fst hday).symm,
      show entry.currency = writer.currency from (congrArg Prod.snd hday).symm]
    exact (hsealed.writers writer hwriter).1

end

/-! ## Runs -/

/-- In every run in which no writer starts on a day that is closed or being closed, and no
close begins while a writer of its day is under way, closed days stay as they are. -/
theorem closed_days_immutable {start state : Accounting} (hopening : Opening start)
    (hrun : ReachesUnder step Guarded start state) : Immutable state := by
  apply Sealed.immutable
  apply ReachesUnder.preserves Sealed _ hrun hopening.sealed
  intro before event after hsealed hguard hstep
  exact hsealed.step hguard hstep

/-- A safeguarding wallet and its funding source, both empty. -/
def founding : Accounting where
  books :=
    { wallets := ⟨[{ walletMsisdn := 110, walletCode := 110, amount := 0, currency := "GBP" },
        { walletMsisdn := 115, walletCode := 115, amount := 0, currency := "GBP" }], by decide⟩
      mappings := ⟨[{ walletCode := 110, glAccountCode := "1000-SAFEGUARDING" },
        { walletCode := 115, glAccountCode := "2910-TREASURY-FUNDING" }], by decide⟩
      accounts := ⟨[
        { accountCode := "1000-SAFEGUARDING", accountType := .asset, normalBalance := .debit },
        { accountCode := "2910-TREASURY-FUNDING", accountType := .liability,
          normalBalance := .credit }], by decide⟩
      configurations := [{ currency := "GBP", masterWallet := 110, effectiveFrom := 1 }]
      journals := .empty
      entries := .empty
      periods := .empty
      batches := .empty
      runs := .empty
      walletBalances := .empty
      glBalances := .empty }

theorem founding_opening : Opening founding := ⟨rfl, rfl, rfl, rfl⟩

/-- Close day 5, then approve a safeguarding request of the given value date on day 6. -/
def fundAfterClose (valueDate : Date) : List Event :=
  [.beginClose { businessDate := some 5, currency := some "GBP" }, .finishClose 5 "GBP",
    .start (.treasury 100 6 "GBP" valueDate),
    .commit (.treasury 100 6 "GBP" valueDate) .completed (Line.funded 110 115 .credit 50)]

/-- A request of the value date 6 leaves the closed day 5 alone. -/
theorem closed_days_immutable_funding :
    ∃ state, ReachesUnder step Guarded founding state ∧
      state.books.periodStatus 5 "GBP" = some .closed ∧ state.books.entries.rows.length = 2 ∧
      Immutable state := by
  have hany : (runInputs (guardedStep step Guarded) founding (fundAfterClose 6)).any (fun state =>
      state.books.periodStatus 5 "GBP" = some .closed ∧ state.books.entries.rows.length = 2) := by
    decide +kernel
  obtain ⟨state, hrun, hfacts⟩ := (Option.any_eq_true _ _).mp hany
  have hreach := (Reaches.of_runInputs hrun).under
  obtain ⟨hclosed, hentries⟩ := of_decide_eq_true hfacts
  exact ⟨state, hreach, hclosed, hentries, closed_days_immutable founding_opening hreach⟩

/-- A request of the value date 5 adds a journal to the closed day 5, whose totals stay those
of an empty day. -/
theorem closed_day_rewritten :
    Opening founding ∧ ∃ state, Reaches step founding state ∧
      state.books.periodStatus 5 "GBP" = some .closed ∧ ¬ Immutable state := by
  refine ⟨founding_opening, ?_⟩
  have hany : (runInputs step founding (fundAfterClose 5)).any (fun state =>
      state.books.periodStatus 5 "GBP" = some .closed ∧
        ∃ run ∈ state.books.runs.rows, (run.status = .completed ∧ run.dryRun = false) ∧
          run.totals.totalDebit ≠
            (state.books.activity run.businessDate run.currency).totalDebit) := by
    decide +kernel
  obtain ⟨state, hrun, hfacts⟩ := (Option.any_eq_true _ _).mp hany
  obtain ⟨hclosed, run, hmem, hcloses, hdiffers⟩ := of_decide_eq_true hfacts
  exact ⟨state, Reaches.of_runInputs hrun, hclosed, fun himmutable =>
    hdiffers (himmutable.totals run hmem hcloses).totalDebit⟩

end Finify.Eod
