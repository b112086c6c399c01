/-
# What writes journals and entries

The transactions that add journals: postings and reversals, merchant refunds and approved
safeguarding requests.  They differ in the lines they bring and in the business date they
ask for; what they write is the same.  An entry carries the date of its journal, and the
time at which its transaction started.
-/

import Finify.Eod.Tables

namespace Finify.Eod

open Finify.Foundations
open Finify.Posting (JournalStatus)

/-! ## Lines -/

/-- One entry to be written and what it does to the amount of its wallet. -/
structure Line where
  accountNumber : ℤ
  debit : ℤ
  credit : ℤ
  change : ℤ
  deriving DecidableEq, Repr

/-- `side` of a posting line. -/
inductive Side
  | debit
  | credit
  deriving DecidableEq, Repr

def Line.posted (accountNumber : ℤ) (side : Side) (amount : ℤ) : Line :=
  match side with
  | .debit =>
    { accountNumber := accountNumber, debit := amount, credit := 0, change := -amount }
  | .credit =>
    { accountNumber := accountNumber, debit := 0, credit := amount, change := amount }

/-- A line of the refund loop: an entry of the refunded transaction turned around. -/
def Line.refunded (original : Entry) : Line :=
  { accountNumber := original.accountNumber
    debit := if 0 < original.credit then original.credit else 0
    credit := if 0 < original.debit then original.debit else 0
    change := if 0 < original.debit then original.debit else -original.credit }

/-- The two lines of a safeguarding movement: the safeguarding wallet is an asset, its
funding source a liability, and both grow with a credit request. -/
def Line.funded (wallet source : ℤ) (side : Side) (amount : ℤ) : List Line :=
  match side with
  | .credit =>
    [{ accountNumber := wallet, debit := amount, credit := 0, change := amount },
      { accountNumber := source, debit := 0, credit := amount, change := amount }]
  | .debit =>
    [{ accountNumber := wallet, debit := 0, credit := amount, change := -amount },
      { accountNumber := source, debit := amount, credit := 0, change := -amount }]

/-! ## Writers -/

/-- A transaction that writes a journal: the time it started, the date of that time in the
time zone of its currency, and the business date that its insert gives. -/
structure Writer where
  startedAt : ℤ
  startedOn : Date
  currency : String
  givenDate : Option Date := none
  deriving DecidableEq, Repr

namespace Writer

/-- `sw_fn_assign_journal_business_context`: only a missing date is filled in. -/
def businessDate (writer : Writer) : Date := writer.givenDate.getD writer.startedOn

/-- `sw_proc_finify_posting` and `sw_proc_full_merchant_refund` leave the date to the
trigger. -/
def posting (startedAt : ℤ) (startedOn : Date) (currency : String) : Writer :=
  { startedAt := startedAt, startedOn := startedOn, currency := currency }

/-- `reviewTreasuryFunding` gives the value date of the request. -/
def treasury (startedAt : ℤ) (startedOn : Date) (currency : String) (valueDate : Date) : Writer :=
  { startedAt := startedAt, startedOn := startedOn, currency := currency,
    givenDate := some valueDate }

end Writer

/-- The wallet with its amount changed. -/
def Wallet.moved (change : ℤ) (wallet : Wallet) : Wallet :=
  { wallet with amount := wallet.amount + change }

theorem Wallet.walletMsisdn_moved (change : ℤ) (wallet : Wallet) :
    (wallet.moved change).walletMsisdn = wallet.walletMsisdn := rfl

namespace Books

def changeAmount (books : Books) (msisdn change : ℤ) : Books :=
  { books with
    wallets := books.wallets.modify msisdn (Wallet.moved change)
      (Wallet.walletMsisdn_moved change) }

theorem balance_changeAmount_self (books : Books) (msisdn change : ℤ) :
    (books.changeAmount msisdn change).balance msisdn =
      (books.balance msisdn).map (· + change) := by
  rw [balance, changeAmount, Table.find?_modify_self, Option.map_map, balance, Option.map_map]
  rfl

theorem balance_changeAmount_of_ne (books : Books) {wallet msisdn : ℤ} (change : ℤ)
    (hne : wallet ≠ msisdn) :
    (books.changeAmount msisdn change).balance wallet = books.balance wallet := by
  rw [balance, changeAmount, Table.find?_modify_of_ne _ hne, balance]

/-- The entry of a line, with the balances of its wallet before and after. -/
def entryOf (books : Books) (writer : Writer) (journalId : ℕ) (line : Line) (id : ℕ) : Entry :=
  { id := id
    journalId := journalId
    businessDate := writer.businessDate
    currency := writer.currency
    debit := line.debit
    credit := line.credit
    entryDate := writer.startedAt
    accountNumber := line.accountNumber
    balanceBefore := books.balance line.accountNumber
    balanceAfter := (books.balance line.accountNumber).map (· + line.change) }

/-- Write one line: the amount of the wallet, then the entry. -/
def writeLine (writer : Writer) (journalId : ℕ) (books : Books) (line : Line) : Books :=
  { books.changeAmount line.accountNumber line.change with
    entries := books.entries.append (books.entryOf writer journalId line) fun _ => rfl }

def journalOf (writer : Writer) (status : JournalStatus) (id : ℕ) : Journal :=
  { id := id, businessDate := writer.businessDate, currency := writer.currency, status := status }

/-- The database with the new journal. -/
def openJournal (books : Books) (writer : Writer) (status : JournalStatus) : Books :=
  { books with journals := books.journals.append (journalOf writer status) fun _ => rfl }

def write (books : Books) (writer : Writer) (status : JournalStatus) (lines : List Line) : Books :=
  lines.foldl (writeLine writer books.journals.next) (books.openJournal writer status)

/-- `UPDATE sw_tbl_accounting_journal SET status`. -/
def markJournal (books : Books) (journalId : ℕ) (status : JournalStatus) : Books :=
  { books with
    journals := books.journals.modify journalId (fun journal => { journal with status := status })
      fun journal => by
        cases journal
        rfl }

theorem id_of_mem_markJournal {books : Books} {journalId : ℕ} {status : JournalStatus}
    {journal : Journal} (hjournal : journal ∈ (books.markJournal journalId status).journals.rows) :
    ∃ old ∈ books.journals.rows, old.id = journal.id := by
  obtain ⟨old, hold, hrow⟩ := List.mem_map.mp hjournal
  refine ⟨old, hold, ?_⟩
  rw [← hrow]
  split <;> rfl

/-! ## What writing leaves alone -/

/-- Two states with the same tables of the close. -/
structure SameCloses (before after : Books) : Prop where
  periods : after.periods = before.periods
  batches : after.batches = before.batches
  runs : after.runs = before.runs
  walletBalances : after.walletBalances = before.walletBalances
  glBalances : after.glBalances = before.glBalances
  mappings : after.mappings = before.mappings
  accounts : after.accounts = before.accounts
  configurations : after.configurations = before.configurations

theorem SameCloses.refl (books : Books) : SameCloses books books :=
  ⟨rfl, rfl, rfl, rfl, rfl, rfl, rfl, rfl⟩

section

variable (books : Books) (writer : Writer) (journalId : ℕ) (status : JournalStatus)

theorem foldl_writeLine_sameCloses (lines : List Line) :
    SameCloses books (lines.foldl (writeLine writer journalId) books) := by
  induction lines generalizing books with
  | nil => exact .refl books
  | cons line lines ih =>
    have hrest := ih (books.writeLine writer journalId line)
    exact ⟨hrest.periods, hrest.batches, hrest.runs, hrest.walletBalances, hrest.glBalances,
      hrest.mappings, hrest.accounts, hrest.configurations⟩

/-- Writing touches no table of the close. -/
theorem write_sameCloses (lines : List Line) :
    SameCloses books (books.write writer status lines) := by
  have hlines := foldl_writeLine_sameCloses (books.openJournal writer status) writer
    books.journals.next lines
  exact ⟨hlines.periods, hlines.batches, hlines.runs, hlines.walletBalances, hlines.glBalances,
    hlines.mappings, hlines.accounts, hlines.configurations⟩

theorem foldl_writeLine_journals (lines : List Line) :
    (lines.foldl (writeLine writer journalId) books).journals = books.journals := by
  induction lines generalizing books with
  | nil => rfl
  | cons line lines ih => exact ih (books.writeLine writer journalId line)

/-- Writing adds one journal, of the date and currency of the writer. -/
theorem write_journals (lines : List Line) :
    (books.write writer status lines).journals.rows =
      books.journals.rows ++ [journalOf writer status books.journals.next] :=
  congrArg Log.rows (foldl_writeLine_journals (books.openJournal writer status) writer
    books.journals.next lines)

theorem foldl_writeLine_entries (lines : List Line) :
    ∃ added : List Entry, (lines.foldl (writeLine writer journalId) books).entries.rows =
        books.entries.rows ++ added ∧
      ∀ entry ∈ added, entry.businessDate = writer.businessDate ∧
        entry.currency = writer.currency := by
  induction lines generalizing books with
  | nil => exact ⟨[], by simp, by simp⟩
  | cons line lines ih =>
    obtain ⟨added, hrows, hadded⟩ := ih (books.writeLine writer journalId line)
    refine ⟨books.entryOf writer journalId line books.entries.next :: added, ?_, ?_⟩
    · rw [List.foldl_cons, hrows]
      show (books.entries.rows ++ [_]) ++ added = _
      rw [List.append_assoc, List.singleton_append]
    · intro entry hentry
      cases List.mem_cons.mp hentry with
      | inl hfirst =>
        rw [hfirst]
        exact ⟨rfl, rfl⟩
      | inr hrest => exact hadded entry hrest

/-- Writing adds entries of the date and currency of the writer. -/
theorem write_entries (lines : List Line) :
    ∃ added : List Entry, (books.write writer status lines).entries.rows =
        books.entries.rows ++ added ∧
      ∀ entry ∈ added, entry.businessDate = writer.businessDate ∧
        entry.currency = writer.currency :=
  foldl_writeLine_entries (books.openJournal writer status) writer books.journals.next lines

end

end Books

end Finify.Eod
