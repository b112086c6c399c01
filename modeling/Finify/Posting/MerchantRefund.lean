/-
# `sw_proc_full_merchant_refund`

A full refund gives back every entry of the settled or completed posting
journals of a transaction, in a journal of a new transaction of its own.  It
writes neither the request nor the journals of the transaction it refunds; what
remembers the refund is the row in `sw_tbl_merchant_refund`.
-/

import Finify.Posting.DirectTransaction

namespace Finify.Posting

open Finify.Foundations

/-! ## Calls and results -/

/-- The arguments of a refund.  The reference is trimmed, with `none` for a null
or blank one.  `candidate` is the transaction id with which the procedure leaves
its loop over clock and sequence. -/
structure RefundCall where
  originalTransactionId : Option ℤ
  refundReference : Option String
  candidate : ℤ
  deriving DecidableEq

/-- `status_code`. -/
inductive RefundCode
  | invalidRequest
  | idempotencyConflict
  | alreadyRefunded
  | transactionNotFound
  | refundNotAllowed
  | originalJournalNotFound
  | refundBlocked
  | refunded
  deriving DecidableEq, Repr

/-- The returned row. -/
structure RefundResult where
  success : Bool
  statusCode : RefundCode
  statusMessage : String
  originalTransactionId : Option ℤ
  refundTransactionId : Option ℤ := none
  journalId : Option ℕ := none
  idempotent : Bool := false
  deriving DecidableEq

def refuseRefund {α : Type} (originalTransactionId : Option ℤ) (code : RefundCode)
    (message : String) : Except RefundResult α :=
  .error
    { success := false, statusCode := code, statusMessage := message,
      originalTransactionId := originalTransactionId }

/-! ## Planning -/

/-- The row that already uses the reference, or else refunds the transaction. -/
def Db.existingRefund (db : Db) (originalTransactionId : ℤ) (reference : String) :
    Option MerchantRefund :=
  db.refunds.find? (·.refundReference = reference) <|>
    db.refunds.find? (·.originalTransactionId = originalTransactionId)

/-- The answer for a reference or a transaction that is already on record. -/
def existingRefundResult (originalTransactionId : ℤ) (existing : MerchantRefund) : RefundResult :=
  if existing.originalTransactionId ≠ originalTransactionId then
    { success := false
      statusCode := .idempotencyConflict
      statusMessage := "Refund reference is already assigned to another transaction"
      originalTransactionId := some originalTransactionId
      refundTransactionId := some existing.refundTransactionId
      journalId := some existing.journalId }
  else
    { success := true
      statusCode := .alreadyRefunded
      statusMessage := "The full merchant refund was already completed"
      originalTransactionId := some originalTransactionId
      refundTransactionId := some existing.refundTransactionId
      journalId := some existing.journalId
      idempotent := true }

/-- Statuses of journals whose entries a refund gives back. -/
def JournalStatus.refundable : JournalStatus → Bool
  | .settled => true
  | .completed => true
  | _ => false

/-- A posting journal of the transaction, in any mode, that a refund gives back. -/
def Journal.refundable (transactionId : ℤ) (journal : Journal) : Bool :=
  journal.transactionId = transactionId ∧ journal.operation.action = .post ∧
    journal.status.refundable

/-- The refundable journal with the highest leg, and among these the last. -/
def Db.refundedJournal (db : Db) (transactionId : ℤ) : Option ℕ :=
  ((db.journals.rows.filter (Journal.refundable transactionId)).insertionSort
    fun first second =>
      toLex (-first.operation.leg, -(first.id : ℤ)) ≤
        toLex (-second.operation.leg, -(second.id : ℤ))).head?.map Journal.id

def Db.refundEntries (db : Db) (transactionId : ℤ) : List Entry :=
  (giveBackOrder (db.joinEntries (Journal.refundable transactionId))).map Prod.snd

theorem Db.mem_refundEntries {db : Db} {transactionId : ℤ} {entry : Entry} :
    entry ∈ db.refundEntries transactionId ↔
      entry ∈ db.entries.rows ∧ ∃ journal ∈ db.journals.rows,
        entry.journalId = journal.id ∧ journal.refundable transactionId := by
  simp only [Db.refundEntries, List.mem_map, (giveBackOrder_perm _).mem_iff, Prod.exists,
    Db.mem_joinEntries, exists_eq_right]
  constructor
  · rintro ⟨journal, hjournal, hrefundable, hentry, hid⟩
    exact ⟨hentry, journal, hjournal, hid, hrefundable⟩
  · rintro ⟨hentry, journal, hjournal, hid, hrefundable⟩
    exact ⟨journal, hjournal, hrefundable, hentry, hid⟩

theorem Db.refundedJournal_eq_some {db : Db} {transactionId : ℤ} {journalId : ℕ}
    (hjournal : db.refundedJournal transactionId = some journalId) :
    ∃ journal ∈ db.journals.rows, journal.refundable transactionId := by
  obtain ⟨journal, hhead, _⟩ := Option.map_eq_some_iff.mp hjournal
  have hmem := (List.perm_insertionSort _ _).mem_iff.mp (List.mem_of_mem_head? hhead)
  exact ⟨journal, List.mem_filter.mp hmem⟩

def accountTotal (column : Entry → ℤ) (wallet : ℤ) (entries : List Entry) : ℤ :=
  ((entries.filter fun entry => entry.accountNumber = wallet).map column).sum

/-- Some wallet of the refund is inactive, or does not cover what it must give
back even with what it gets back first. -/
def Db.refundBlocked (db : Db) (entries : List Entry) : Prop :=
  ∃ entry ∈ entries, ∃ wallet ∈ db.wallets.find? entry.accountNumber,
    wallet.status.any (· ≠ 0) ∨
      wallet.amount + accountTotal Entry.debit entry.accountNumber entries <
        accountTotal Entry.credit entry.accountNumber entries

instance (db : Db) (entries : List Entry) : Decidable (db.refundBlocked entries) :=
  inferInstanceAs (Decidable (∃ entry ∈ entries, _))

/-- Everything that the writing half of the refund needs. -/
structure RefundPlan where
  original : Request
  reference : String
  originalJournalId : ℕ
  entries : List Entry
  refundTransactionId : ℤ

/-- The deciding half of the procedure. -/
def Db.planRefund (db : Db) (call : RefundCall) : Except RefundResult RefundPlan :=
  match call.originalTransactionId, call.refundReference with
  | some originalTransactionId, some reference =>
    match db.existingRefund originalTransactionId reference with
    | some existing => .error (existingRefundResult originalTransactionId existing)
    | none =>
      match db.requests.find? originalTransactionId with
      | none =>
        refuseRefund (some originalTransactionId) .transactionNotFound
          "Original transaction was not found"
      | some original =>
        if original.transactionStatus.any (· ≠ 5) then
          refuseRefund (some originalTransactionId) .refundNotAllowed
            "Only a completed merchant payment can be refunded"
        else
          match db.refundedJournal originalTransactionId with
          | none =>
            refuseRefund (some originalTransactionId) .originalJournalNotFound
              "No completed accounting journal exists for the merchant payment"
          | some originalJournalId =>
            let entries := db.refundEntries originalTransactionId
            if db.refundBlocked entries then
              refuseRefund (some originalTransactionId) .refundBlocked
                "A refund debit wallet is inactive or has insufficient balance"
            else
              .ok
                { original := original
                  reference := reference
                  originalJournalId := originalJournalId
                  entries := entries
                  refundTransactionId := call.candidate }
  | _, _ =>
    refuseRefund call.originalTransactionId .invalidRequest
      "Original transaction ID and refund reference are required"

/-! ## Writing -/

/-- The request of the refund: source and destination change places, and the
refund counts as completed from the start. -/
def RefundPlan.request (plan : RefundPlan) : Request where
  transactionId := plan.refundTransactionId
  sourceWalletId := plan.original.destWalletId
  destWalletId := plan.original.sourceWalletId
  amount := plan.original.amount
  transactionFee := plan.original.transactionFee
  transactionComm := plan.original.transactionComm
  transactionStatus := some 5
  currency := plan.original.currency

/-- The payload of a refund journal has none of the keys that posting reads. -/
def refundPayload : Payload := {}

/-- The sums over a refund journal that make it raise; over no entries they are
null and it does not. -/
def unbalancedRefund (entries : List Entry) : Prop :=
  entries ≠ [] ∧
    ((entries.map Entry.debit).sum ≤ 0 ∨
      (entries.map Entry.debit).sum ≠ (entries.map Entry.credit).sum)

instance (entries : List Entry) : Decidable (unbalancedRefund entries) :=
  inferInstanceAs (Decidable (_ ∧ _))

/-- The unique indexes on `sw_tbl_merchant_refund`. -/
def MerchantRefund.clashes (row other : MerchantRefund) : Bool :=
  row.originalTransactionId = other.originalTransactionId ∨
    row.refundTransactionId = other.refundTransactionId ∨
    row.refundReference = other.refundReference

def Db.insertRefund (db : Db) (row : MerchantRefund) : Option Db :=
  if db.refunds.any (MerchantRefund.clashes row) then none
  else some { db with refunds := db.refunds ++ [row] }

/-- The cast of a request's amount to `money`, which raises for `NaN`. -/
def Request.amountCasts (request : Request) : Bool :=
  (request.amount.map round2).all fun amount => amount.cents?.isSome

/-- The writing half of the procedure. -/
def Db.commitRefund (db : Db) (plan : RefundPlan) : Option (ℕ × Db) := do
  let requests ← db.requests.insert? plan.request
  let currency ← plan.original.currency
  let (journalId, opened) ← Db.openJournal { db with requests := requests }
    plan.refundTransactionId .direct (some plan.originalJournalId) currency refundPayload
  let posted ← opened.postLines ⟨plan.refundTransactionId, journalId⟩
    (plan.entries.map fun entry => entry.giveBack entry.currency)
  if unbalancedRefund (posted.journalEntries journalId) then none
  else if plan.original.amountCasts then do
    let recorded ←
      (posted.setJournalStatus (fun journal => journal.id = journalId) .completed).insertRefund
        { originalTransactionId := plan.original.transactionId
          refundTransactionId := plan.refundTransactionId
          refundReference := plan.reference
          journalId := journalId }
    return (journalId, recorded)
  else none

/-- The row returned after a refund. -/
def RefundPlan.result (plan : RefundPlan) (journalId : ℕ) : RefundResult where
  success := true
  statusCode := .refunded
  statusMessage := "Full merchant refund completed successfully"
  originalTransactionId := some plan.original.transactionId
  refundTransactionId := some plan.refundTransactionId
  journalId := some journalId

/-- `sw_proc_full_merchant_refund`: the returned row and the database after the
call, or nothing when it raised.  The insertion of the request fails for a
candidate id that is taken, which the loop of the source rules out. -/
def Db.fullMerchantRefund (db : Db) (call : RefundCall) : Option (RefundResult × Db) :=
  match db.planRefund call with
  | .error result => some (result, db)
  | .ok plan => (db.commitRefund plan).map fun (journalId, after) => (plan.result journalId, after)

end Finify.Posting
