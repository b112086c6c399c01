/-
# `sw_proc_aml_reserve` and `sw_proc_aml_finalize`

A reservation is admitted when the usage of the day and of the month stays
within the limits with it; usage is the summary row plus what is still pending.
The summary row is created by the first completion.  Until then the select that
reads it finds nothing and leaves its variables null, a sum with null is null,
and no comparison with it holds: usage is `none`, and `none` exceeds no limit.
-/

import Finify.Aml.Tables

namespace Finify.Aml

open Finify.Foundations Finify.Posting

/-! ## `sw_proc_aml_reserve` -/

/-- The arguments of a reservation.  The keyword is trimmed and in upper case,
with `none` for a null or blank one; one that is too long for its column raises
and makes no call. -/
structure ReserveCall where
  transactionId : Option ℤ
  walletMsisdn : Option ℤ
  keyword : Option String
  amount : Option Numeric
  deriving DecidableEq

/-- `status_code`. -/
inductive ReserveCode
  | invalidRequest
  | invalidAmount
  | transactionConflict
  | alreadyReserved
  | alreadyCompleted
  | transactionClosed
  | sourceWalletNotFound
  | amlConfigurationNotFound
  | amlMaxTransactionExceeded
  | amlDailyAmountExceeded
  | amlDailyCountExceeded
  | amlMonthlyAmountExceeded
  | amlMonthlyCountExceeded
  | reserved
  deriving DecidableEq, Repr

/-- The returned row; `used` has its four usage columns, which are all null or
none of them is. -/
structure ReserveResult where
  success : Bool
  statusCode : ReserveCode
  statusMessage : String
  transactionId : Option ℤ
  reservationStatus : Option ReservationStatus := none
  walletCode : Option ℤ := none
  used : Option Usage := some 0

/-- The status as the messages spell it. -/
def ReservationStatus.text : ReservationStatus → String
  | pending => "PENDING"
  | completed => "COMPLETED"
  | released => "RELEASED"
  | reversed => "REVERSED"

/-- A reservation that is still in use, or has been used. -/
def ReservationStatus.live : ReservationStatus → Bool
  | pending => true
  | completed => true
  | released => false
  | reversed => false

/-- The answer for a transaction that has a reservation. -/
def existingResult (existing : Reservation) (wallet : ℤ) (keyword : String) (amount : Numeric) :
    ReserveResult :=
  let result : ReserveResult :=
    { success := false
      statusCode := .transactionConflict
      statusMessage := "Transaction ID is already associated with different AML details"
      transactionId := some existing.transactionId
      reservationStatus := some existing.status
      walletCode := some existing.walletCode }
  if existing.walletMsisdn ≠ wallet ∨ existing.keyword ≠ keyword ∨
      (existing.amount : Amount) ≠ round2 amount then
    result
  else if existing.status.live then
    { result with
      success := true
      statusCode := if existing.status = .pending then .alreadyReserved else .alreadyCompleted
      statusMessage := "AML transaction was already processed idempotently" }
  else
    { result with
      statusCode := .transactionClosed
      statusMessage := "AML reservation is already " ++ existing.status.text }

/-- The summary row of an account, as usage of the periods of `now`. -/
def Db.summaryUsage (db : Db) (account : Account) (now : Stamp) : Option Usage :=
  (db.summaries.find? account).map fun summary => summary.usage now

/-- What is pending for an account in the periods of `now`. -/
def Db.pendingUsage (db : Db) (account : Account) (now : Stamp) : Usage := fun period =>
  ((db.reservations.rows.filter fun reservation =>
      reservation.account = account ∧ reservation.status = .pending ∧
        period.Same reservation.reservedAt now).map Reservation.counter).sum

/-- Usage with one more transaction of the amount, null without a summary row. -/
def Db.usedWith (db : Db) (account : Account) (now : Stamp) (amount : ℤ) : Option Usage :=
  (db.summaryUsage account now).map fun summary =>
    summary + db.pendingUsage account now + fun _ => (amount, 1)

def Limits.exceeded? (limits : Limits) (used : Option Usage) : Option (ReserveCode × String) :=
  if used.any fun used => limits.dailyMaxAmount < (used .daily).1 / 100 then
    some (.amlDailyAmountExceeded, "Daily AML amount limit exceeded")
  else if used.any fun used => limits.dailyTransactionCount < (used .daily).2 then
    some (.amlDailyCountExceeded, "Daily AML transaction count exceeded")
  else if used.any fun used => limits.monthlyMaxAmount < (used .monthly).1 / 100 then
    some (.amlMonthlyAmountExceeded, "Monthly AML amount limit exceeded")
  else if used.any fun used => limits.monthlyTransactionCount < (used .monthly).2 then
    some (.amlMonthlyCountExceeded, "Monthly AML transaction count exceeded")
  else none

/-- The amount, when it is no more than a single transaction may have; `NaN` is
more than any number. -/
def Limits.single? (limits : Limits) : Numeric → Option ℚ
  | ⊤ => none
  | (amount : ℚ) => if amount ≤ limits.maxTxnAmount then some amount else none

/-- What a reservation that is admitted inserts. -/
structure Admission where
  transactionId : ℤ
  walletMsisdn : ℤ
  walletCode : ℤ
  keyword : String
  amount : ℤ
  used : Option Usage

/-- The answer of a reservation without one on record: limits and usage. -/
def Db.checkLimits (db : Db) (now : Stamp) (transactionId wallet : ℤ) (keyword : String)
    (amount : Numeric) : Except ReserveResult Admission :=
  let refuse (code : ReserveCode) (message : String) (walletCode : Option ℤ)
      (used : Option Usage) : Except ReserveResult Admission :=
    .error
      { success := false, statusCode := code, statusMessage := message,
        transactionId := some transactionId, walletCode := walletCode, used := used }
  match db.walletCode wallet with
  | none => refuse .sourceWalletNotFound "Source wallet was not found" none (some 0)
  | some walletCode =>
    match db.limits walletCode keyword with
    | none =>
      refuse .amlConfigurationNotFound
        "No active AML configuration exists for the source wallet and keyword"
        (some walletCode) (some 0)
    | some limits =>
      match limits.single? amount with
      | none =>
        refuse .amlMaxTransactionExceeded "Maximum transaction amount exceeded"
          (some walletCode) (some 0)
      | some amount =>
        let cents := roundHalfAway (amount * 100)
        let used := db.usedWith (wallet, keyword) now cents
        match limits.exceeded? used with
        | some (code, message) => refuse code message (some walletCode) used
        | none =>
          .ok
            { transactionId := transactionId
              walletMsisdn := wallet
              walletCode := walletCode
              keyword := keyword
              amount := cents
              used := used }

/-- The deciding half of the procedure. -/
def Db.admission (db : Db) (now : Stamp) (call : ReserveCall) : Except ReserveResult Admission :=
  let refuse (code : ReserveCode) (message : String) : Except ReserveResult Admission :=
    .error
      { success := false, statusCode := code, statusMessage := message,
        transactionId := call.transactionId }
  match call.transactionId, call.walletMsisdn, call.keyword with
  | some transactionId, some wallet, some keyword =>
    match call.amount with
    | none => refuse .invalidAmount "Transaction amount must be greater than zero"
    | some amount =>
      if amount ≤ 0 then
        refuse .invalidAmount "Transaction amount must be greater than zero"
      else
        match db.reservations.find? transactionId with
        | some existing => .error (existingResult existing wallet keyword amount)
        | none => db.checkLimits now transactionId wallet keyword amount
  | _, _, _ => refuse .invalidRequest "Transaction, source wallet, and keyword are required"

/-- Insert the reservation; the check on the amount raises for one that rounds to
zero, and its column for one that it does not hold. -/
def Db.insertReservation (db : Db) (now : Stamp) (admission : Admission) : Option Db :=
  if hfits : 0 < admission.amount ∧ admission.amount < 10 ^ 20 then
    (db.reservations.insert?
      { transactionId := admission.transactionId
        walletMsisdn := admission.walletMsisdn
        walletCode := admission.walletCode
        keyword := admission.keyword
        amount := admission.amount
        reservedAt := now
        amount_pos := hfits.1 }).map fun reservations => { db with reservations := reservations }
  else none

/-- The row returned after an insertion. -/
def Admission.result (admission : Admission) : ReserveResult where
  success := true
  statusCode := .reserved
  statusMessage := "AML limits passed and capacity was reserved"
  transactionId := some admission.transactionId
  reservationStatus := some .pending
  walletCode := some admission.walletCode
  used := admission.used

/-- `sw_proc_aml_reserve`: the returned row and the database after the call, or
nothing when it raised. -/
def Db.amlReserve (db : Db) (now : Stamp) (call : ReserveCall) : Option (ReserveResult × Db) :=
  match db.admission now call with
  | .error result => some (result, db)
  | .ok admission => (db.insertReservation now admission).map fun after => (admission.result, after)

/-! ## `sw_proc_aml_finalize` -/

/-- `p_outcome`, trimmed and in upper case. -/
inductive Outcome
  | completed
  | released
  | reversed
  | other
  deriving DecidableEq, Repr

/-- `status_code`. -/
inductive FinalizeCode
  | reservationNotFound
  | alreadyCompleted
  | alreadyReleased
  | alreadyReversed
  | invalidState
  | completed
  | released
  | reversed
  | summaryNotFound
  | invalidOutcome
  deriving DecidableEq, Repr

/-- The returned row. -/
structure FinalizeResult where
  success : Bool
  statusCode : FinalizeCode
  statusMessage : String
  reservationStatus : Option ReservationStatus
  deriving DecidableEq

/-- The summary row that the first completion of an account inserts. -/
def Reservation.firstSummary (reservation : Reservation) (now : Stamp) : Summary where
  walletMsisdn := reservation.walletMsisdn
  keyword := reservation.keyword
  monthlyAmount := some reservation.amount
  monthlyTransaction := some 1
  dailyAmount := some reservation.amount
  dailyTransaction := some 1
  lastUpdateDate := some now

/-- A completion counts on in the period of the last update, and starts over in a
new one. -/
def Summary.complete (summary : Summary) (reservation : Reservation) (now : Stamp) : Summary :=
  { summary with
    dailyAmount := some
      (if summary.current .daily now then summary.dailyAmount.getD 0 + reservation.amount
       else reservation.amount)
    dailyTransaction := some
      (if summary.current .daily now then summary.dailyTransaction.getD 0 + 1 else 1)
    monthlyAmount := some
      (if summary.current .monthly now then summary.monthlyAmount.getD 0 + reservation.amount
       else reservation.amount)
    monthlyTransaction := some
      (if summary.current .monthly now then summary.monthlyTransaction.getD 0 + 1 else 1)
    lastUpdateDate := some now }

/-- A reversal takes the reservation back where the summary was last updated in
the period in which it was reserved. -/
def Summary.reverse (summary : Summary) (reservation : Reservation) (now : Stamp) : Summary :=
  let sameDay := summary.current .daily reservation.reservedAt
  let sameMonth := summary.current .monthly reservation.reservedAt
  { summary with
    dailyAmount := some
      (if sameDay then max (summary.dailyAmount.getD 0 - reservation.amount) 0
       else summary.dailyAmount.getD 0)
    dailyTransaction := some
      (if sameDay then max (summary.dailyTransaction.getD 0 - 1) 0
       else summary.dailyTransaction.getD 0)
    monthlyAmount := some
      (if sameMonth then max (summary.monthlyAmount.getD 0 - reservation.amount) 0
       else summary.monthlyAmount.getD 0)
    monthlyTransaction := some
      (if sameMonth then max (summary.monthlyTransaction.getD 0 - 1) 0
       else summary.monthlyTransaction.getD 0)
    lastUpdateDate := some now }

/-- Write the new status and the time on a reservation. -/
def Db.setStatus (db : Db) (transactionId : ℤ) (status : ReservationStatus) (now : Stamp) : Db :=
  { db with
    reservations := db.reservations.modify transactionId
      (fun reservation => { reservation with status := status, finalizedAt := some now })
      fun _ => rfl }

/-- The status that a reservation must have for an outcome, the one it then gets,
and the words of the answers. -/
structure Transition where
  source : ReservationStatus
  target : ReservationStatus
  verb : String
  alreadyCode : FinalizeCode
  alreadyMessage : String
  code : FinalizeCode
  message : String

def Outcome.transition? : Outcome → Option Transition
  | .completed => some
      { source := .pending, target := .completed, verb := "complete"
        alreadyCode := .alreadyCompleted, alreadyMessage := "AML summary was already completed"
        code := .completed, message := "AML summary updated successfully" }
  | .released => some
      { source := .pending, target := .released, verb := "release"
        alreadyCode := .alreadyReleased, alreadyMessage := "AML reservation was already released"
        code := .released, message := "AML reservation released without changing the summary" }
  | .reversed => some
      { source := .completed, target := .reversed, verb := "reverse"
        alreadyCode := .alreadyReversed, alreadyMessage := "AML summary was already reversed"
        code := .reversed, message := "AML summary reversal completed" }
  | .other => none

/-- The summary after an outcome; a reversal needs a row to take back from. -/
def Db.updateSummary (db : Db) (reservation : Reservation) (outcome : Outcome) (now : Stamp) :
    Option Db :=
  match outcome with
  | .completed => some
      { db with
        summaries := db.summaries.upsert (reservation.firstSummary now)
          (fun summary => summary.complete reservation now) fun _ => rfl }
  | .reversed =>
    match db.summaries.find? reservation.account with
    | none => none
    | some _ => some
        { db with
          summaries := db.summaries.modify reservation.account
            (fun summary => summary.reverse reservation now) fun _ => rfl }
  | .released => some db
  | .other => some db

/-- `sw_proc_aml_finalize`: the returned row and the database after the call. -/
def Db.amlFinalize (db : Db) (now : Stamp) (transactionId : Option ℤ) (outcome : Outcome) :
    FinalizeResult × Db :=
  match transactionId.bind db.reservations.find? with
  | none =>
    ({ success := false
       statusCode := .reservationNotFound
       statusMessage := "No AML reservation exists for this transaction"
       reservationStatus := none }, db)
  | some reservation =>
    let answer (success : Bool) (code : FinalizeCode) (message : String)
        (status : ReservationStatus) : FinalizeResult :=
      { success := success, statusCode := code, statusMessage := message,
        reservationStatus := some status }
    match outcome.transition? with
    | none =>
      (answer false .invalidOutcome "Outcome must be COMPLETED, RELEASED, or REVERSED"
        reservation.status, db)
    | some transition =>
      if reservation.status = transition.target then
        (answer true transition.alreadyCode transition.alreadyMessage reservation.status, db)
      else if reservation.status ≠ transition.source then
        (answer false .invalidState
          ("Cannot " ++ transition.verb ++ " a " ++ reservation.status.text ++
            " AML reservation") reservation.status, db)
      else
        match db.updateSummary reservation outcome now with
        | none =>
          (answer false .summaryNotFound "AML summary row was not found for reversal"
            reservation.status, db)
        | some updated =>
          (answer true transition.code transition.message transition.target,
            updated.setStatus reservation.transactionId transition.target now)

end Finify.Aml
