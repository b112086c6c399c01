/-
# The diary of a currency

Postings, approved treasury requests, new wallets and closes of consecutive dates, in any
order and one after the other, for one currency.  The module says what a close does to the
tables, and proves what writing keeps: entries belong to journals of their day and to known
wallets, and amounts and entry balances are sums of what was moved before.
-/

import Finify.Eod.Snapshots
import Finify.Foundations.Accounts

namespace Finify.Eod

open Finify.Foundations
open Finify.Posting (JournalStatus)

/-! ## Movements -/

/-- What a transaction moves: the lines of a posting or a reversal, the entries that a refund
turns around, or the two sides of a treasury request. -/
inductive Movement
  | posting (lines : List (ℤ × Side × ℤ))
  | refund (originals : List Entry)
  | treasury (wallet source : ℤ) (side : Side) (amount : ℤ)
  deriving DecidableEq

def Movement.lines : Movement → List Line
  | .posting lines => lines.map fun line => .posted line.1 line.2.1 line.2.2
  | .refund originals => originals.map Line.refunded
  | .treasury wallet source side amount => Line.funded wallet source side amount

/-! ## Accounts of wallets -/

namespace Books

variable (books : Books)

def glCode (msisdn : ℤ) : Option String :=
  (books.wallets.find? msisdn).bind fun wallet =>
    (books.activeMapping wallet.walletCode).map Mapping.glAccountCode

def glAccount (msisdn : ℤ) : Option GlAccount :=
  (books.glCode msisdn).bind books.accounts.find?

/-- The wallets of a currency that are mapped to a GL account. -/
def members (currency : String) (accountCode : String) : List ℤ :=
  ((books.walletsOf currency).filter fun wallet =>
    (books.activeMapping wallet.walletCode).map Mapping.glAccountCode = some accountCode).map
      Wallet.walletMsisdn

def moved (wallet : ℤ) (selected : Entry → Bool) : ℤ :=
  (((books.history wallet).filter selected).map Entry.change).sum

/-- Every wallet code with an active mapping is mapped to an active GL account. -/
def AccountsActive : Prop :=
  ∀ mapping ∈ books.mappings.rows, mapping.isActive →
    ∃ account ∈ books.accounts.rows, account.accountCode = mapping.glAccountCode ∧
      account.isActive

instance : Decidable books.AccountsActive :=
  inferInstanceAs (Decidable (∀ mapping ∈ books.mappings.rows, mapping.isActive →
    ∃ account ∈ books.accounts.rows, account.accountCode = mapping.glAccountCode ∧
      account.isActive))

def activeCodes : List String :=
  (books.accounts.rows.filter GlAccount.isActive).map GlAccount.accountCode

end Books

/-! ## Runs -/

/-- Where the closes of the currency stand. -/
inductive Standing
  | untried
  | tried (next : Date)
  | closed (last : Date)
  deriving DecidableEq, Repr

namespace Standing

/-- A close of this date is the next one: any date to begin with, the same again after a
failed attempt, and then one day after the other. -/
def Admits : Standing → Date → Prop
  | untried, _ => True
  | tried next, date => date = next
  | closed last, date => date = last + 1

instance : (standing : Standing) → (date : Date) → Decidable (standing.Admits date)
  | untried, _ => .isTrue trivial
  | tried _, _ => inferInstanceAs (Decidable (_ = _))
  | closed _, _ => inferInstanceAs (Decidable (_ = _))

def afterClose (standing : Standing) (date : Date) (completed : Bool) : Standing :=
  if completed then .closed date
  else
    match standing with
    | closed last => .closed last
    | _ => .tried date

theorem afterClose_completed (standing : Standing) (date : Date) :
    standing.afterClose date true = closed date := rfl

theorem afterClose_closed (last date : Date) :
    (closed last).afterClose date false = closed last := rfl

/-- The last closed date is the one that was just closed, or an earlier one. -/
theorem closed_of_afterClose {standing : Standing} {date last : Date} {completed : Bool}
    (hadmits : standing.Admits date) (hlast : standing.afterClose date completed = closed last) :
    completed = true ∧ last = date ∨ standing = closed last ∧ last < date := by
  cases completed with
  | true =>
    cases hlast
    exact .inl ⟨rfl, rfl⟩
  | false =>
    cases standing with
    | untried | tried _ => cases hlast
    | closed earlier =>
      cases hlast
      rw [show date = last + 1 from hadmits]
      exact .inr ⟨rfl, Int.lt_succ last⟩

def Precedes : Standing → Date → Prop
  | closed last, date => last < date
  | _, _ => True

instance : (standing : Standing) → (date : Date) → Decidable (standing.Precedes date)
  | untried, _ => .isTrue trivial
  | tried _, _ => .isTrue trivial
  | closed _, _ => inferInstanceAs (Decidable (_ < _))

/-- Some date has been closed. -/
def begun : Standing → Bool
  | closed _ => true
  | _ => false

end Standing

/-- The database and where its closes stand. -/
structure Diary where
  books : Books
  standing : Standing := .untried

namespace Diary

/-- What happens to the database. -/
inductive Event
  | write (writer : Writer) (status : JournalStatus) (movement : Movement)
  | fund (msisdn change : ℤ)
  | mark (journalId : ℕ) (status : JournalStatus)
  | openWallet (msisdn code : ℤ) (currency : String)
  | close (request : CloseRequest)

/-- One event.  A movement is between wallets that exist; `fund` is an approved request for
commission funding or charge revenue, which writes no journal; a wallet is opened empty, and a
close is a real one of the next date. -/
def step (currency : String) (diary : Diary) : Event → Option Diary
  | .write writer status movement =>
    if writer.currency = currency ∧
        ∀ line ∈ movement.lines, diary.books.balance line.accountNumber ≠ none then
      some { diary with books := diary.books.write writer status movement.lines }
    else none
  | .fund msisdn change =>
    if diary.books.balance msisdn ≠ none then
      some { diary with books := diary.books.changeAmount msisdn change }
    else none
  | .mark journalId status =>
    some { diary with books := diary.books.markJournal journalId status }
  | .openWallet msisdn code walletCurrency =>
    (diary.books.wallets.insert?
      { walletMsisdn := msisdn, walletCode := code, amount := 0,
        currency := walletCurrency }).map fun wallets =>
      { diary with books := { diary.books with wallets := wallets } }
  | .close request =>
    match request.businessDate with
    | none => none
    | some date =>
      if request.currency = some currency ∧ request.dryRun = false ∧
          diary.standing.Admits date then
        let result := closeEod diary.books request
        some
          { books := result.1
            standing := diary.standing.afterClose date (result.2.statusCode = .closed) }
      else none

/-- All wallets hold zero, and nothing was written or closed. -/
structure Founded (diary : Diary) : Prop where
  standing : diary.standing = .untried
  wallets : ∀ wallet ∈ diary.books.wallets.rows, wallet.amount = 0
  entries : diary.books.entries.rows = []
  runs : diary.books.runs.rows = []
  walletBalances : diary.books.walletBalances.rows = []
  glBalances : diary.books.glBalances.rows = []

end Diary

/-! ## What a close does to the tables -/

/-- Two states with the same wallets, accounts, journals and entries. -/
structure SameLedger (before after : Books) : Prop where
  wallets : after.wallets = before.wallets
  mappings : after.mappings = before.mappings
  accounts : after.accounts = before.accounts
  journals : after.journals = before.journals
  entries : after.entries = before.entries

/-- The daily balances of one state are those of another. -/
structure SameBalances (before after : Books) : Prop where
  wallets : after.walletBalances = before.walletBalances
  gl : after.glBalances = before.glBalances

/-- A run that is recorded for a date and currency; one that completes it says that the date
was ready and gives the figures of its entries. -/
structure RunOf (books : Books) (date : Date) (currency : String) (completed : Prop) (run : Run) :
    Prop where
  ofDate : run.businessDate = date
  ofCurrency : run.currency = currency
  figures : run.Closes → completed ∧ run.totals.SameActivity (books.activity date currency)

/-- What a real call of the procedure leaves: the ledger as it was, the balances as they were
or those just taken, and its run if it recorded one. -/
structure Attempted (before after : Books) (date : Date) (currency : String) (completed : Prop) :
    Prop where
  ledger : SameLedger before after
  balances : SameBalances before after ∧ ¬ completed ∨
    SameBalances (before.snapshot date currency) after
  ready : completed → before.Ready date currency
  iso : completed → isCurrency currency
  runs : ∃ added, after.runs.rows = before.runs.rows ++ added ∧
    ∀ run ∈ added, RunOf before date currency completed run

namespace Attempted

variable {books : Books} {date : Date} {currency : String} {request : CloseRequest}

/-- A call that records nothing. -/
theorem unchanged : Attempted books books date currency False where
  ledger := ⟨rfl, rfl, rfl, rfl, rfl⟩
  balances := .inl ⟨⟨rfl, rfl⟩, id⟩
  ready := False.elim
  iso := False.elim
  runs := ⟨[], by simp, by simp⟩

theorem notReady (exceptions : List EodException) :
    Attempted books (books.record date currency request (.notReady exceptions)) date currency
      False where
  ledger := ⟨rfl, rfl, rfl, rfl, rfl⟩
  balances := .inl ⟨⟨rfl, rfl⟩, id⟩
  ready := False.elim
  iso := False.elim
  runs := by
    refine ⟨_, Books.runs_record, fun run hrun => ?_⟩
    rw [List.mem_singleton.mp hrun]
    exact ⟨rfl, rfl, fun hcloses => by cases hcloses.1⟩

/-- A day whose balances are taken. -/
theorem settled {config : Configuration} (hready : books.Ready date currency)
    (hiso : isCurrency currency) :
    Attempted books
      ((books.snapshot date currency).record date currency request
        ((books.snapshot date currency).settlement date currency config)) date currency
      (((books.snapshot date currency).settlement date currency config).status =
        .completed) where
  ledger := ⟨rfl, rfl, rfl, rfl, rfl⟩
  balances := .inr ⟨rfl, rfl⟩
  ready := fun _ => hready
  iso := fun _ => hiso
  runs := by
    refine ⟨_, Books.runs_record, fun run hrun => ?_⟩
    rw [List.mem_singleton.mp hrun]
    exact ⟨rfl, rfl, fun hcloses => ⟨hcloses.1, rfl, rfl, rfl, rfl⟩⟩

end Attempted

/-- A settled day is closed exactly when its run is completed. -/
theorem settlement_closed_iff (books : Books) (date : Date) (currency : String)
    (config : Configuration) :
    (books.settlement date currency config).statusCode = .closed ↔
      (books.settlement date currency config).status = .completed := by
  simp only [Books.settlement, Report.compared]
  split <;> simp

/-- A real call for a date that no run has completed. -/
theorem closeEod_attempted {books : Books} {request : CloseRequest} {date : Date}
    {currency : String} (hdate : request.businessDate = some date)
    (hcurrency : request.currency = some currency) (hreal : request.dryRun = false)
    (hopen : books.completedRun date currency = none) :
    Attempted books (closeEod books request).1 date currency
      ((closeEod books request).2.statusCode = .closed) := by
  cases htarget : books.target request with
  | none =>
    obtain ⟨code, hcode, hrefused⟩ := closeEod_of_none htarget
    have hnot : ¬ (refused code).statusCode = .closed := by
      intro hclosed
      rw [show code = .closed from hclosed] at hcode
      cases hcode
    rw [hrefused, show ((refused code).statusCode = .closed) = False from eq_false hnot]
    exact .unchanged
  | some about =>
    obtain ⟨day, other, config⟩ := about
    obtain ⟨hday, hother, hiso, _⟩ := Books.target_eq_some.mp htarget
    rw [hdate] at hday
    rw [hcurrency] at hother
    cases hday
    cases hother
    rw [closeEod_of_open htarget (.inr hopen)]
    by_cases hready : books.Ready date currency
    · rw [Books.closeDay_of_real hready hreal]
      show Attempted _ _ _ _ (Report.statusCode _ = .closed)
      rw [settlement_closed_iff]
      exact .settled hready hiso
    · rw [Books.closeDay_of_not_ready hready]
      have hnot : ¬ (books.answer date currency
          (.notReady (books.journalValidation date currency))).statusCode = .closed :=
        StatusCode.noConfusion
      rw [show (_ = StatusCode.closed) = False from eq_false hnot]
      exact .notReady _

/-! ## Writing -/

namespace Books

/-- A change of its amount leaves every wallet its account. -/
theorem glCode_changeAmount (books : Books) (account change msisdn : ℤ) :
    (books.changeAmount account change).glCode msisdn = books.glCode msisdn := by
  show ((books.wallets.modify _ (Wallet.moved change)
    (Wallet.walletMsisdn_moved change)).find? msisdn).bind _ = _
  rw [Table.find?_modify, glCode]
  split
  · rw [Option.bind_map]
    rfl
  · rfl

theorem members_changeAmount (books : Books) (account change : ℤ) (currency code : String) :
    (books.changeAmount account change).members currency code = books.members currency code := by
  show (((books.wallets.rows.map _).filter _).filter _).map _ = _
  rw [List.filter_map, List.filter_map, List.map_map, members, walletsOf]
  apply congr
  · apply congrArg
    ext wallet
    simp only [Function.comp_apply]
    split <;> rfl
  · apply congr
    · apply congrArg
      ext wallet
      simp only [Function.comp_apply]
      split <;> rfl
    · apply List.filter_congr
      intro wallet _
      simp only [Function.comp_apply]
      split <;> rfl

theorem balance_changeAmount_ne_none (books : Books) {wallet account change : ℤ} :
    (books.changeAmount account change).balance wallet ≠ none ↔ books.balance wallet ≠ none := by
  by_cases hchanged : wallet = account
  · rw [hchanged, balance_changeAmount_self, ne_eq, Option.map_eq_none_iff]
  · rw [balance_changeAmount_of_ne _ _ hchanged]

end Books

section

variable {books : Books} {writer : Writer} {journalId : ℕ} {line : Line}

theorem moved_writeLine_self (selected : Entry → Bool) :
    (books.writeLine writer journalId line).moved line.accountNumber selected =
      books.moved line.accountNumber selected +
        if selected (books.entryOf writer journalId line books.entries.next) then
          (books.entryOf writer journalId line books.entries.next).change
        else 0 := by
  rw [Books.moved, history_writeLine_self, List.filter_append, List.map_append, List.sum_append,
    Books.moved, List.filter_cons, List.filter_nil]
  split <;> simp

theorem moved_writeLine_of_ne {wallet : ℤ} (hne : wallet ≠ line.accountNumber)
    (selected : Entry → Bool) :
    (books.writeLine writer journalId line).moved wallet selected =
      books.moved wallet selected := by
  rw [Books.moved, history_writeLine_of_ne hne, Books.moved]

/-- The entry of a line changes its wallet as the line says. -/
theorem change_entryOf (hknown : books.balance line.accountNumber ≠ none) (id : ℕ) :
    (books.entryOf writer journalId line id).change = line.change := by
  cases hbalance : books.balance line.accountNumber with
  | none => exact absurd hbalance hknown
  | some amount => simp [Entry.change, Books.entryOf, hbalance]

end

/-- Writing leaves every wallet its account. -/
theorem write_accounts (books : Books) (writer : Writer) (status : JournalStatus)
    (lines : List Line) :
    (∀ msisdn, (books.write writer status lines).glCode msisdn = books.glCode msisdn) ∧
      (∀ currency code, (books.write writer status lines).members currency code =
        books.members currency code) ∧
      ∀ msisdn, (books.write writer status lines).balance msisdn ≠ none ↔
        books.balance msisdn ≠ none := by
  have hlines : ∀ (journalId : ℕ) (books : Books),
      (∀ msisdn, (lines.foldl (Books.writeLine writer journalId) books).glCode msisdn =
          books.glCode msisdn) ∧
        (∀ currency code,
          (lines.foldl (Books.writeLine writer journalId) books).members currency code =
            books.members currency code) ∧
        ∀ msisdn, (lines.foldl (Books.writeLine writer journalId) books).balance msisdn ≠ none ↔
          books.balance msisdn ≠ none := by
    intro journalId
    induction lines with
    | nil => exact fun books => ⟨fun _ => rfl, fun _ _ => rfl, fun _ => Iff.rfl⟩
    | cons line lines ih =>
      intro books
      obtain ⟨hcode, hmembers, hbalance⟩ := ih (books.writeLine writer journalId line)
      refine ⟨fun msisdn => (hcode msisdn).trans ?_, fun currency code =>
        (hmembers currency code).trans ?_, fun msisdn => (hbalance msisdn).trans ?_⟩
      · exact books.glCode_changeAmount line.accountNumber line.change msisdn
      · exact books.members_changeAmount line.accountNumber line.change currency code
      · exact books.balance_changeAmount_ne_none
  exact hlines books.journals.next (books.openJournal writer status)

/-- The entries that a transaction adds carry its date, and each does what one of its lines
says. -/
theorem write_lines (books : Books) (writer : Writer) (status : JournalStatus)
    {lines : List Line} (hknown : ∀ line ∈ lines, books.balance line.accountNumber ≠ none) :
    ∃ added : List Entry, (books.write writer status lines).entries.rows =
        books.entries.rows ++ added ∧
      ∀ entry ∈ added, entry.businessDate = writer.businessDate ∧
        ∃ line ∈ lines, entry.accountNumber = line.accountNumber ∧ entry.debit = line.debit ∧
          entry.credit = line.credit ∧ entry.change = line.change := by
  have hlines : ∀ (journalId : ℕ) (lines : List Line) (books : Books),
      (∀ line ∈ lines, books.balance line.accountNumber ≠ none) →
        ∃ added : List Entry,
          (lines.foldl (Books.writeLine writer journalId) books).entries.rows =
            books.entries.rows ++ added ∧
          ∀ entry ∈ added, entry.businessDate = writer.businessDate ∧
            ∃ line ∈ lines, entry.accountNumber = line.accountNumber ∧
              entry.debit = line.debit ∧ entry.credit = line.credit ∧
              entry.change = line.change := by
    intro journalId lines
    induction lines with
    | nil => exact fun books _ => ⟨[], by simp, by simp⟩
    | cons line lines ih =>
      intro books hknown
      obtain ⟨added, hrows, hadded⟩ := ih (books.writeLine writer journalId line)
        fun other hother =>
          (Books.balance_changeAmount_ne_none _).mpr (hknown other (by simp [hother]))
      refine ⟨books.entryOf writer journalId line books.entries.next :: added, ?_, ?_⟩
      · rw [List.foldl_cons, hrows]
        show (books.entries.rows ++ [_]) ++ added = _
        rw [List.append_assoc, List.singleton_append]
      · intro entry hentry
        cases List.mem_cons.mp hentry with
        | inl hfirst =>
          rw [hfirst]
          exact ⟨rfl, line, by simp, rfl, rfl, rfl,
            change_entryOf (hknown line (by simp)) _⟩
        | inr hrest =>
          obtain ⟨hdate, other, hother, hfacts⟩ := hadded entry hrest
          exact ⟨hdate, other, List.mem_cons_of_mem _ hother, hfacts⟩
  exact hlines books.journals.next lines (books.openJournal writer status) hknown

/-- What is not selected of the date of a transaction stays as it was. -/
theorem moved_write (books : Books) (writer : Writer) (status : JournalStatus)
    (lines : List Line) (wallet : ℤ) {selected : Entry → Bool}
    (hselected : ∀ entry : Entry, entry.businessDate = writer.businessDate →
      selected entry = false) :
    (books.write writer status lines).moved wallet selected = books.moved wallet selected := by
  obtain ⟨added, hrows, hadded⟩ := books.write_entries writer status lines
  have hnone : ((added.filter fun entry => entry.accountNumber = wallet).filter selected) =
      [] := by
    apply List.filter_eq_nil_iff.mpr
    intro entry hentry hchosen
    rw [hselected entry (hadded entry (List.mem_of_mem_filter hentry)).1] at hchosen
    cases hchosen
  rw [Books.moved, Books.history, hrows, List.filter_append, List.filter_append, hnone,
    List.append_nil, Books.moved, Books.history]

/-! ## What every run keeps -/

/-- Entries are of the currency, between known wallets and in journals of their date. -/
structure Sound (currency : String) (books : Books) : Prop where
  known : ∀ entry ∈ books.entries.rows, books.balance entry.accountNumber ≠ none
  ofCurrency : ∀ entry ∈ books.entries.rows, entry.currency = currency
  journaled : ∀ entry ∈ books.entries.rows, ∃ journal ∈ books.journals.rows,
    journal.id = entry.journalId ∧ journal.businessDate = entry.businessDate ∧
      journal.currency = entry.currency

namespace Sound

variable {currency : String} {books before after : Books}

/-- What leaves entries alone, wallets known and journals their dates keeps the books sound. -/
theorem of_same (hsound : Sound currency before)
    (hknown : ∀ wallet, before.balance wallet ≠ none → after.balance wallet ≠ none)
    (hentries : after.entries = before.entries)
    (hjournals : ∀ journal ∈ before.journals.rows, ∃ same ∈ after.journals.rows,
      same.id = journal.id ∧ same.businessDate = journal.businessDate ∧
        same.currency = journal.currency) : Sound currency after := by
  constructor
  · intro entry hentry
    rw [hentries] at hentry
    exact hknown entry.accountNumber (hsound.known entry hentry)
  · rw [hentries]
    exact hsound.ofCurrency
  · intro entry hentry
    rw [hentries] at hentry
    obtain ⟨journal, hjournal, hid, hdate, hcurrency⟩ := hsound.journaled entry hentry
    obtain ⟨same, hsame, hsameId, hsameDate, hsameCurrency⟩ := hjournals journal hjournal
    exact ⟨same, hsame, hsameId.trans hid, hsameDate.trans hdate, hsameCurrency.trans hcurrency⟩

/-- A line between known wallets, in a journal of its date, keeps the books sound. -/
theorem writeLine (hsound : Sound currency books) {writer : Writer} {journalId : ℕ} {line : Line}
    (hwriter : writer.currency = currency) (hknown : books.balance line.accountNumber ≠ none)
    (hjournal : ∃ journal ∈ books.journals.rows, journal.id = journalId ∧
      journal.businessDate = writer.businessDate ∧ journal.currency = writer.currency) :
    Sound currency (books.writeLine writer journalId line) := by
  have hrows : ∀ entry ∈ (books.writeLine writer journalId line).entries.rows,
      entry ∈ books.entries.rows ∨
        entry = books.entryOf writer journalId line books.entries.next := by
    intro entry hentry
    exact (List.mem_append.mp hentry).imp id List.mem_singleton.mp
  constructor
  · intro entry hentry
    apply (Books.balance_changeAmount_ne_none _).mpr
    rcases hrows entry hentry with hold | hnew
    · exact hsound.known entry hold
    · rw [hnew]
      exact hknown
  · intro entry hentry
    rcases hrows entry hentry with hold | hnew
    · exact hsound.ofCurrency entry hold
    · rw [hnew]
      exact hwriter
  · intro entry hentry
    rcases hrows entry hentry with hold | hnew
    · exact hsound.journaled entry hold
    · rw [hnew]
      exact hjournal

/-- A transaction between known wallets keeps the books sound. -/
theorem write (hsound : Sound currency books) {writer : Writer} (status : JournalStatus)
    {lines : List Line} (hwriter : writer.currency = currency)
    (hknown : ∀ line ∈ lines, books.balance line.accountNumber ≠ none) :
    Sound currency (books.write writer status lines) := by
  have hlines : ∀ (journalId : ℕ) (lines : List Line) (books : Books), Sound currency books →
      (∀ line ∈ lines, books.balance line.accountNumber ≠ none) →
      (∃ journal ∈ books.journals.rows, journal.id = journalId ∧
        journal.businessDate = writer.businessDate ∧ journal.currency = writer.currency) →
        Sound currency (lines.foldl (Books.writeLine writer journalId) books) := by
    intro journalId lines
    induction lines with
    | nil => exact fun _ hbooks _ _ => hbooks
    | cons line lines ih =>
      intro books hbooks hall hjournal
      apply ih
      · exact hbooks.writeLine hwriter (hall line (by simp)) hjournal
      · exact fun other hother =>
          (Books.balance_changeAmount_ne_none _).mpr (hall other (by simp [hother]))
      · exact hjournal
  have hjournals : ∀ journal ∈ books.journals.rows,
      ∃ same ∈ (books.openJournal writer status).journals.rows, same.id = journal.id ∧
        same.businessDate = journal.businessDate ∧ same.currency = journal.currency := by
    intro journal hjournal
    exact ⟨journal, List.mem_append_left _ hjournal, rfl, rfl, rfl⟩
  have hopened : Sound currency (books.openJournal writer status) :=
    hsound.of_same (fun _ => id) rfl hjournals
  apply hlines _ _ _ hopened
  · exact hknown
  · exact ⟨_, List.mem_append_right _ (List.mem_singleton_self _), rfl, rfl, rfl⟩

theorem markJournal (hsound : Sound currency books) (journalId : ℕ) (status : JournalStatus) :
    Sound currency (books.markJournal journalId status) := by
  have hjournals : ∀ journal ∈ books.journals.rows,
      ∃ same ∈ (books.markJournal journalId status).journals.rows,
        same.id = journal.id ∧ same.businessDate = journal.businessDate ∧
          same.currency = journal.currency := by
    intro journal hjournal
    refine ⟨_, List.mem_map_of_mem hjournal, ?_⟩
    split <;> exact ⟨rfl, rfl, rfl⟩
  exact hsound.of_same (fun _ => id) rfl hjournals

theorem changeAmount (hsound : Sound currency books) (msisdn change : ℤ) :
    Sound currency (books.changeAmount msisdn change) :=
  hsound.of_same (fun _ => (Books.balance_changeAmount_ne_none _).mpr) rfl
    fun journal hjournal => ⟨journal, hjournal, rfl, rfl, rfl⟩

/-- A wallet that was not there has no entries. -/
theorem history_of_unknown (hsound : Sound currency books) {msisdn : ℤ}
    (hfresh : books.wallets.find? msisdn = none) : books.history msisdn = [] := by
  apply List.filter_eq_nil_iff.mpr
  intro entry hentry haccount
  apply hsound.known entry hentry
  rw [of_decide_eq_true haccount, Books.balance, hfresh, Option.map_none]

/-- A new wallet keeps the books sound. -/
theorem openWallet (hsound : Sound currency books) {wallet : Wallet}
    {wallets : Table Wallet.walletMsisdn}
    (hinsert : books.wallets.insert? wallet = some wallets) :
    Sound currency { books with wallets := wallets } := by
  have hknown : ∀ msisdn, books.balance msisdn ≠ none →
      ({ books with wallets := wallets } : Books).balance msisdn ≠ none := by
    intro msisdn hold
    rw [Books.balance, Table.find?_of_insert? hinsert]
    split
    · exact Option.some_ne_none _
    · exact hold
  exact hsound.of_same hknown rfl fun journal hjournal => ⟨journal, hjournal, rfl, rfl, rfl⟩

end Sound

/-- The balances of wallets and entries are the sums of what was moved before. -/
structure Accounted (books : Books) : Prop where
  amounts : ∀ wallet amount, books.balance wallet = some amount →
    amount = books.moved wallet fun _ => true
  before : ∀ entry ∈ books.entries.rows, entry.balanceBefore =
    some (books.moved entry.accountNumber fun other => other.id < entry.id)
  after : ∀ entry ∈ books.entries.rows, entry.balanceAfter =
    some (books.moved entry.accountNumber fun other => other.id ≤ entry.id)

namespace Accounted

variable {books before after : Books}

/-- What leaves wallets and entries alone keeps their balances. -/
theorem of_same (haccounted : Accounted before) (hwallets : after.wallets = before.wallets)
    (hentries : after.entries = before.entries) : Accounted after := by
  have hbalance : ∀ wallet, after.balance wallet = before.balance wallet := by
    intro wallet
    rw [Books.balance, hwallets, Books.balance]
  have hmoved : ∀ wallet selected, after.moved wallet selected =
      before.moved wallet selected := by
    intro wallet selected
    rw [Books.moved, Books.history, hentries, Books.moved, Books.history]
  constructor
  · intro wallet amount hamount
    rw [hbalance] at hamount
    rw [hmoved]
    exact haccounted.amounts wallet amount hamount
  · intro entry hentry
    rw [hentries] at hentry
    rw [hmoved]
    exact haccounted.before entry hentry
  · intro entry hentry
    rw [hentries] at hentry
    rw [hmoved]
    exact haccounted.after entry hentry

/-- A line of a known wallet leaves the balances that its change gives. -/
theorem writeLine (haccounted : Accounted books) {writer : Writer} {journalId : ℕ} {line : Line}
    (hknown : books.balance line.accountNumber ≠ none) :
    Accounted (books.writeLine writer journalId line) := by
  obtain ⟨amount, hamount⟩ := Option.ne_none_iff_exists'.mp hknown
  have hsum := haccounted.amounts _ _ hamount
  have hchange : (books.entryOf writer journalId line books.entries.next).change =
      line.change := change_entryOf hknown books.entries.next
  have hrows : ∀ entry ∈ (books.writeLine writer journalId line).entries.rows,
      entry ∈ books.entries.rows ∨
        entry = books.entryOf writer journalId line books.entries.next := by
    intro entry hentry
    exact (List.mem_append.mp hentry).imp id List.mem_singleton.mp
  -- the entries that were there have smaller numbers than the new one
  have hkept : ∀ (wallet : ℤ) (selected : Entry → Bool),
      selected (books.entryOf writer journalId line books.entries.next) = false →
        (books.writeLine writer journalId line).moved wallet selected =
          books.moved wallet selected := by
    intro wallet selected hnot
    by_cases hwritten : wallet = line.accountNumber
    · rw [hwritten, moved_writeLine_self, hnot]
      simp
    · exact moved_writeLine_of_ne hwritten selected
  have hall : ∀ selected : Entry → Bool,
      (∀ entry : Entry, entry.id < books.entries.next → selected entry = true) →
        books.moved line.accountNumber selected =
          books.moved line.accountNumber fun _ => true := by
    intro selected hselected
    rw [Books.moved, Books.moved]
    congr 2
    apply List.filter_congr
    intro entry hentry
    exact hselected entry (books.entries.below entry (List.mem_of_mem_filter hentry))
  constructor
  · intro wallet found hfound
    by_cases hwritten : wallet = line.accountNumber
    · rw [hwritten, balance_writeLine_self, hamount] at hfound
      cases hfound
      rw [hwritten, moved_writeLine_self, if_pos rfl, hchange, ← hsum]
    · rw [balance_writeLine_of_ne hwritten] at hfound
      rw [moved_writeLine_of_ne hwritten]
      exact haccounted.amounts wallet found hfound
  · intro entry hentry
    rcases hrows entry hentry with hold | hnew
    · rw [hkept _ _ (decide_eq_false (not_lt.mpr (books.entries.below entry hold).le))]
      exact haccounted.before entry hold
    · rw [hnew, hkept _ _ (decide_eq_false (lt_irrefl _))]
      show books.balance line.accountNumber = some (books.moved line.accountNumber
        fun other => other.id < books.entries.next)
      rw [hamount, hsum, hall _ fun _ hlt => decide_eq_true hlt]
  · intro entry hentry
    rcases hrows entry hentry with hold | hnew
    · rw [hkept _ _ (decide_eq_false (not_le.mpr (books.entries.below entry hold)))]
      exact haccounted.after entry hold
    · rw [hnew]
      show (books.balance line.accountNumber).map (· + line.change) = some
        ((books.writeLine writer journalId line).moved line.accountNumber
          fun other => other.id ≤ books.entries.next)
      have hself : (books.entryOf writer journalId line books.entries.next).id ≤
          books.entries.next := le_rfl
      rw [hamount, moved_writeLine_self, if_pos (decide_eq_true hself), hchange,
        hall _ fun _ hlt => decide_eq_true hlt.le, ← hsum]
      rfl

/-- A transaction between known wallets leaves the balances that its lines give. -/
theorem write (haccounted : Accounted books) (writer : Writer) (status : JournalStatus)
    {lines : List Line} (hknown : ∀ line ∈ lines, books.balance line.accountNumber ≠ none) :
    Accounted (books.write writer status lines) := by
  have hlines : ∀ (journalId : ℕ) (lines : List Line) (books : Books), Accounted books →
      (∀ line ∈ lines, books.balance line.accountNumber ≠ none) →
        Accounted (lines.foldl (Books.writeLine writer journalId) books) := by
    intro journalId lines
    induction lines with
    | nil => exact fun _ hbooks _ => hbooks
    | cons line lines ih =>
      intro books hbooks hall
      apply ih
      · exact hbooks.writeLine (hall line (by simp))
      · exact fun other hother =>
          (Books.balance_changeAmount_ne_none _).mpr (hall other (by simp [hother]))
  have hopened : Accounted (books.openJournal writer status) := haccounted.of_same rfl rfl
  exact hlines _ _ _ hopened hknown

/-- A new empty wallet holds what was moved to it, nothing. -/
theorem openWallet (haccounted : Accounted books) {currency : String}
    (hsound : Sound currency books) {wallet : Wallet} {wallets : Table Wallet.walletMsisdn}
    (hempty : wallet.amount = 0) (hinsert : books.wallets.insert? wallet = some wallets) :
    Accounted { books with wallets := wallets } := by
  obtain ⟨hfresh, _⟩ := Table.insert?_eq_some hinsert
  constructor
  · intro msisdn amount hamount
    rw [Books.balance, Table.find?_of_insert? hinsert] at hamount
    show amount = books.moved msisdn _
    split at hamount
    case isTrue hnew =>
      cases hamount
      rw [hnew, Books.moved, hsound.history_of_unknown hfresh, hempty]
      rfl
    case isFalse => exact haccounted.amounts msisdn amount hamount
  · exact haccounted.before
  · exact haccounted.after

/-- Empty wallets without entries. -/
theorem of_founded {diary : Diary} (hfounded : Diary.Founded diary) :
    Accounted diary.books := by
  constructor
  · intro wallet amount hamount
    obtain ⟨found, hfound, hsame⟩ := Option.map_eq_some_iff.mp hamount
    rw [← hsame, hfounded.wallets found (Table.find?_eq_some.mp hfound).1, Books.moved,
      Books.history, hfounded.entries]
    rfl
  · simp [hfounded.entries]
  · simp [hfounded.entries]

end Accounted

end Finify.Eod
