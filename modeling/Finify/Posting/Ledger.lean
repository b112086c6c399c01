/-
# The posting ledger

The tables that the posting procedures read and write: wallets, transaction
requests, accounting journals and their entries, and merchant refunds.  Names
follow the columns.  Left out are the columns and tables that no decision of the
procedures depends on: descriptions, remarks, keywords and references, the
mirror table of entries, the transaction details and the charge and commission
histories.

Money is kept in hundredths.  `Amount` of a wallet is never null: the column
defaults to zero and every statement that writes it gives a value.
-/

import Finify.Foundations.Table
import Finify.Posting.Numeric
import Mathlib.Data.Prod.Lex

namespace Finify.Posting

open Finify.Foundations

/-! ## Rows -/

/-- `journal.mode`. -/
inductive Mode
  | direct
  | twoLeg
  deriving DecidableEq, Repr

/-- `journal.action`. -/
inductive Action
  | post
  | reverse
  deriving DecidableEq, Repr

/-- The combinations of mode, action and leg that the procedure lets through. -/
inductive Operation
  | direct
  | reserve
  | settle
  | reverse (mode : Mode)
  deriving DecidableEq, Repr

namespace Operation

def mode : Operation → Mode
  | direct => .direct
  | reserve => .twoLeg
  | settle => .twoLeg
  | reverse mode => mode

def action : Operation → Action
  | reverse _ => .reverse
  | _ => .post

def leg : Operation → ℤ
  | direct => 1
  | reserve => 1
  | settle => 2
  | reverse _ => 0

end Operation

/-- `journal.status`. -/
inductive JournalStatus
  | processing
  | reserved
  | settled
  | completed
  | reversed
  | failed
  deriving DecidableEq, Repr

/-- `mode` texts after `upper`. -/
inductive ModeText
  | direct
  | twoLeg
  | other
  deriving DecidableEq, Repr

/-- `action` texts after `upper`. -/
inductive ActionText
  | post
  | reverse
  | other
  deriving DecidableEq, Repr

/-- The keys of the message payload.  An absent key, a null and an empty string
are all `none`.  A text that does not cast raises where it is read, and a call
that returns without reading it acts as if it were absent. -/
structure Payload where
  transactionId : Option ℤ := none
  transactionMode : Option ModeText := none
  transactionAction : Option ActionText := none
  transactionLeg : Option ℤ := none
  source : Option ℤ := none
  destination : Option ℤ := none
  amount : Option Numeric := none
  currency : Option String := none
  chargeAmount : Option Numeric := none
  commissionAmount : Option Numeric := none
  sourceDebitAmount : Option Numeric := none
  destinationCreditAmount : Option Numeric := none
  chargeWalletCredit : Option Numeric := none
  commissionWalletDebit : Option Numeric := none
  sourceCommissionCredit : Option Numeric := none
  destinationCommissionCredit : Option Numeric := none
  chargeWallet : Option ℤ := none
  commissionWallet : Option ℤ := none
  deriving DecidableEq

/-- `SW_TBL_WALLET`.  Status `0` is active. -/
structure Wallet where
  walletMsisdn : ℤ
  amount : ℤ
  status : Option ℤ := some 0
  deriving DecidableEq

/-- `SW_TBL_TRANSACTION_REQUEST`.  `Transaction_Status` is `1` or `2` before
posting, `3` failed, `4` reserved, `5` completed and `6` reversed. -/
structure Request where
  transactionId : ℤ
  sourceWalletId : Option ℤ
  destWalletId : Option ℤ
  amount : Option Numeric
  transactionFee : Option ℤ := some 0
  transactionComm : Option ℤ := some 0
  transactionStatus : Option ℤ := some 1
  currency : Option String := none
  deriving DecidableEq

/-- `sw_tbl_accounting_journal`. -/
structure Journal where
  id : ℕ
  transactionId : ℤ
  operation : Operation
  status : JournalStatus
  originalJournalId : Option ℕ
  currency : String
  payload : Payload
  deriving DecidableEq

/-- `sw_tbl_accounting_entry`.  The checks on the table are the last field: an
entry has exactly one positive side. -/
structure Entry where
  id : ℕ
  transactionId : ℤ
  debit : ℤ
  credit : ℤ
  accountType : ℤ
  accountNumber : ℤ
  journalId : ℕ
  lineNumber : ℕ
  currency : String
  balanceBefore : Option ℤ
  balanceAfter : Option ℤ
  reversesEntryId : Option ℕ
  oneSide : (0 < debit ∧ credit = 0) ∨ (debit = 0 ∧ 0 < credit)
  deriving DecidableEq

/-- `sw_tbl_merchant_refund`. -/
structure MerchantRefund where
  originalTransactionId : ℤ
  refundTransactionId : ℤ
  refundReference : String
  journalId : ℕ
  deriving DecidableEq

/-- `sw_tbl_accounting_category`, by name. -/
inductive Category
  | customerWallet
  | temporaryReserve
  | chargeRevenue
  | commissionFunding
  deriving DecidableEq, Repr

/-- The database as the posting procedures see it. -/
structure Db where
  wallets : Table Wallet.walletMsisdn
  requests : Table Request.transactionId
  journals : Log Journal.id
  entries : Log Entry.id
  refunds : List MerchantRefund
  categories : Category → Option ℤ

namespace Entry

/-- What the entry adds to its wallet. -/
def movement (entry : Entry) : ℤ := entry.credit - entry.debit

theorem sum_movement (entries : List Entry) :
    (entries.map movement).sum = (entries.map credit).sum - (entries.map debit).sum := by
  induction entries with
  | nil => rfl
  | cons entry rest ih =>
    simp only [List.map_cons, List.sum_cons, ih, movement]
    omega

theorem debit_nonneg (entry : Entry) : 0 ≤ entry.debit := by
  rcases entry.oneSide with h | h <;> omega

theorem credit_nonneg (entry : Entry) : 0 ≤ entry.credit := by
  rcases entry.oneSide with h | h <;> omega

theorem debit_or_credit_zero (entry : Entry) : entry.debit = 0 ∨ entry.credit = 0 := by
  rcases entry.oneSide with h | h <;> omega

end Entry

/-! ## Reading the tables -/

namespace Db

/-- The `Amount` of a wallet, when it exists. -/
def balance (db : Db) (wallet : ℤ) : Option ℤ :=
  (db.wallets.find? wallet).map Wallet.amount

/-- The entries recorded for a wallet, in insertion order. -/
def walletEntries (db : Db) (wallet : ℤ) : List Entry :=
  db.entries.rows.filter fun entry => entry.accountNumber = wallet

/-- The entries of a journal, in insertion order. -/
def journalEntries (db : Db) (journalId : ℕ) : List Entry :=
  db.entries.rows.filter fun entry => entry.journalId = journalId

def findJournal (db : Db) (transactionId : ℤ) (operation : Operation) : Option Journal :=
  db.journals.rows.find? fun journal =>
    journal.transactionId = transactionId ∧ journal.operation = operation

def joinEntries (db : Db) (select : Journal → Bool) : List (Journal × Entry) :=
  (db.journals.rows.filter select).flatMap fun journal =>
    (db.journalEntries journal.id).map fun entry => (journal, entry)

theorem mem_joinEntries {db : Db} {select : Journal → Bool} {journal : Journal} {entry : Entry} :
    (journal, entry) ∈ db.joinEntries select ↔
      journal ∈ db.journals.rows ∧ select journal ∧
        entry ∈ db.entries.rows ∧ entry.journalId = journal.id := by
  simp only [joinEntries, journalEntries, List.mem_flatMap, List.mem_filter, List.mem_map,
    Prod.mk.injEq, decide_eq_true_eq]
  constructor
  · rintro ⟨_, ⟨hjournal, hselect⟩, _, ⟨hentry, hid⟩, rfl, rfl⟩
    exact ⟨hjournal, hselect, hentry, hid⟩
  · rintro ⟨hjournal, hselect, hentry, hid⟩
    exact ⟨journal, ⟨hjournal, hselect⟩, entry, ⟨hentry, hid⟩, rfl, rfl⟩

theorem findJournal_eq_none {db : Db} {transactionId : ℤ} {operation : Operation} :
    db.findJournal transactionId operation = none ↔
      ∀ journal ∈ db.journals.rows,
        ¬ (journal.transactionId = transactionId ∧ journal.operation = operation) := by
  simp [findJournal]

theorem findJournal_eq_some {db : Db} {transactionId : ℤ} {operation : Operation}
    {journal : Journal} (hfind : db.findJournal transactionId operation = some journal) :
    journal ∈ db.journals.rows ∧ journal.transactionId = transactionId ∧
      journal.operation = operation := by
  have hselected := List.find?_some hfind
  simp only [decide_eq_true_eq] at hselected
  exact ⟨List.mem_of_find?_eq_some hfind, hselected⟩

def setJournalStatus (db : Db) (select : Journal → Bool) (status : JournalStatus) : Db :=
  { db with
    journals := db.journals.map
      (fun journal => if select journal then { journal with status := status } else journal)
      fun journal => by split <;> rfl }

def updateRequest (db : Db) (transactionId : ℤ) (change : Request → Request)
    (hkey : ∀ request, (change request).transactionId = request.transactionId) : Db :=
  { db with requests := db.requests.modify transactionId change hkey }

theorem find?_updateRequest (db : Db) (transactionId : ℤ) (change : Request → Request)
    (hkey : ∀ request, (change request).transactionId = request.transactionId) (other : ℤ) :
    (db.updateRequest transactionId change hkey).requests.find? other =
      if other = transactionId then (db.requests.find? other).map change
      else db.requests.find? other := by
  by_cases hsame : other = transactionId
  · rw [if_pos hsame, hsame]
    exact Table.find?_modify_self db.requests transactionId change hkey
  · rw [if_neg hsame]
    exact Table.find?_modify_of_ne db.requests hsame change hkey

def total (db : Db) : ℤ :=
  (db.wallets.rows.map Wallet.amount).sum

end Db

end Finify.Posting
