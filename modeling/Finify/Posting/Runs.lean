/-
# Runs of the posting core

An input of the posting core is a call of one of its two procedures; a step is a
committed call.  Runs start from any wallets and requests, with nothing posted.
-/

import Finify.Foundations.Transition
import Finify.Posting.MerchantRefund

namespace Finify.Posting

open Finify.Foundations

/-- A call of one of the two posting procedures. -/
inductive Event
  | transaction (call : Call)
  | refund (call : RefundCall)
  deriving DecidableEq

def Event.Concerns (transactionId : ℤ) : Event → Prop
  | .transaction call => call.payload.transactionId = some transactionId
  | .refund call => call.originalTransactionId = some transactionId

/-- `success` of the returned row and the database after a committed call. -/
def Db.perform (db : Db) (event : Event) : Option (Bool × Db) :=
  match event with
  | .transaction call =>
    (db.directFinifyTransaction call).map fun (result, after) => (result.success, after)
  | .refund call =>
    (db.fullMerchantRefund call).map fun (result, after) => (result.success, after)

/-- The database after a committed call. -/
def Db.step (db : Db) (event : Event) : Option Db :=
  (db.perform event).map Prod.snd

/-- Nothing has been posted yet. -/
structure Db.Initial (db : Db) : Prop where
  no_journals : db.journals.rows = []
  no_entries : db.entries.rows = []
  no_refunds : db.refunds = []

/-- A database in which nothing has been posted, with the accounting categories
that the migration inserts. -/
def Db.opening (wallets : Table Wallet.walletMsisdn) (requests : Table Request.transactionId) :
    Db where
  wallets := wallets
  requests := requests
  journals := .empty
  entries := .empty
  refunds := []
  categories := fun category =>
    match category with
    | .customerWallet => some 1
    | .temporaryReserve => some 2
    | .chargeRevenue => some 3
    | .commissionFunding => some 4

theorem Db.opening_initial (wallets : Table Wallet.walletMsisdn)
    (requests : Table Request.transactionId) : (Db.opening wallets requests).Initial :=
  ⟨rfl, rfl, rfl⟩

/-- A payer, a merchant and the system wallets, and one request of 10.00 from
the payer to the merchant. -/
def shopDb : Db :=
  Db.opening
    ⟨[{ walletMsisdn := 1, amount := 5000 }, { walletMsisdn := 2, amount := 3000 },
      { walletMsisdn := tempWallet, amount := 0 },
      { walletMsisdn := defaultChargeWallet, amount := 0 },
      { walletMsisdn := defaultCommissionWallet, amount := 0 }], by decide⟩
    ⟨[{ transactionId := 7, sourceWalletId := some 1, destWalletId := some 2,
        amount := some (10 : ℚ), currency := some "BDT" }], by decide⟩

/-- The message of the request, to be posted in the given mode and leg. -/
def shopPost (mode : ModeText) (leg : ℤ) : Event :=
  .transaction { payload := { transactionId := some 7 }, mode := some mode, leg := some leg }

/-- A reversal of the request in the given mode. -/
def shopReverse (mode : ModeText) : Event :=
  .transaction
    { payload := { transactionId := some 7 }, mode := some mode, action := some .reverse }

/-- A merchant refund of the request. -/
def shopRefund : Event :=
  .refund
    { originalTransactionId := some 7, refundReference := some "R-1", candidate := 99 }

end Finify.Posting
