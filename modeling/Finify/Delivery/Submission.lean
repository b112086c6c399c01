/-
# Submitting a transaction

The producer writes status 2 on the request, sends the message and, when either
throws, releases the AML reservation and writes status 3.  The consumer posts
the message and finalises the reservation, and may later take the posting back.
Neither side looks at what the other has written.

The model follows one transaction.  Of a handler it keeps the two things that
write the ledger and the reservation: the call of the posting procedure and the
outcomes that are then due.  A handler may be called at any time once the broker
has the message, a dispute at any time at all, whatever the attempt, callback and
dispute rows say; what is due may be finalised in any order, and a handler that
has recorded its answer may finalise again.
-/

import Finify.Delivery.Handlers

namespace Finify.Delivery

open Finify.Foundations Finify.Posting

/-! ## State -/

/-- How far the producer is with the transaction. -/
inductive Phase
  /-- About to write status 2. -/
  | submitting
  /-- About to send the message. -/
  | sending
  /-- In the error path, about to release the reservation. -/
  | releasing
  /-- In the error path, about to write status 3. -/
  | marking
  /-- Answered with success. -/
  | submitted
  /-- Thrown on. -/
  | failed
  deriving DecidableEq, Repr

/-- The tables, the producer, the broker and the outcomes that handlers have yet
to write, with those they have recorded in a row of their own. -/
structure Submission where
  ledger : Posting.Db
  aml : Aml.Db
  phase : Phase := .submitting
  accepted : Bool := false
  due : List Aml.Outcome := []
  recorded : List Aml.Outcome := []

/-- How a send ends: a send that throws may have reached the broker. -/
inductive Send
  | acknowledged
  | lost
  | unacknowledged
  deriving DecidableEq, Repr

inductive SubmissionEvent
  | update (fee commission : ℤ)
  | updateThrows
  | send (outcome : Send)
  | release (now : Stamp)
  | releaseThrows
  | markTransactionFailed
  | markThrows
  | deliver (handler : Handler) (message : Payload)
  | finalize (outcome : Aml.Outcome) (now : Stamp)
  | finalizeAgain (outcome : Aml.Outcome)
  | interrupt (outcome : Aml.Outcome)
  | elsewhere (wallets : Table Wallet.walletMsisdn) (summaries : Table Aml.Summary.account)

/-- `TransactionRequestService.update`. -/
def updateRequest (db : Posting.Db) (transactionId status fee commission : ℤ) : Posting.Db :=
  db.updateRequest transactionId
    (fun request =>
      { request with
        transactionStatus := some status
        transactionFee := some fee
        transactionComm := some commission })
    fun _ => rfl

namespace Handler

/-- The handler is reached from the message that the producer has sent. -/
def fromMessage : Handler → Bool
  | processDisputeReversal _ => false
  | _ => true

/-- The handler writes its answer to a row that it reads before it calls again. -/
def records : Handler → Bool
  | processDisputeReversal _ => true
  | approved => true
  | rejected => true
  | _ => false

def call (handler : Handler) (transactionId : ℤ) (message : Payload) : Call :=
  operationCall handler.operation { message with transactionId := some transactionId }

end Handler

namespace Submission

def answered (state : Submission) (handler : Handler) (result : Result) (ledger : Posting.Db) :
    Submission :=
  let outcomes := (handler.finalizes result).toList
  { state with
    ledger := ledger
    due := outcomes ++ state.due
    recorded := (if handler.records then outcomes else []) ++ state.recorded }

/-- A handler calls the posting procedure. -/
def deliver (state : Submission) (transactionId : ℤ) (handler : Handler) (message : Payload) :
    Option Submission :=
  (state.ledger.directFinifyTransaction (handler.call transactionId message)).map
    fun (result, ledger) => state.answered handler result ledger

/-- One statement of the producer or of a handler.  What a handler owes after a
completed posting is not dropped: the message is delivered again until the
handler has ended. -/
def step (transactionId : ℤ) (state : Submission) : SubmissionEvent → Option Submission
  | .update fee commission =>
    if state.phase = .submitting then
      some
        { state with
          ledger := updateRequest state.ledger transactionId 2 fee commission
          phase := .sending }
    else none
  | .updateThrows =>
    if state.phase = .submitting then some { state with phase := .releasing } else none
  | .send outcome =>
    if state.phase = .sending then
      match outcome with
      | .acknowledged => some { state with phase := .submitted, accepted := true }
      | .lost => some { state with phase := .releasing }
      | .unacknowledged => some { state with phase := .releasing, accepted := true }
    else none
  | .release now =>
    if state.phase = .releasing then
      some
        { state with
          aml := (state.aml.amlFinalize now (some transactionId) .released).2
          phase := .marking }
    else none
  | .releaseThrows =>
    if state.phase = .releasing then some { state with phase := .marking } else none
  | .markTransactionFailed =>
    if state.phase = .marking then
      some
        { state with
          ledger := updateRequest state.ledger transactionId 3 0 0
          phase := .failed }
    else none
  | .markThrows => if state.phase = .marking then some { state with phase := .failed } else none
  | .deliver handler message =>
    if handler.fromMessage → state.accepted then state.deliver transactionId handler message
    else none
  | .finalize outcome now =>
    if outcome ∈ state.due then
      some
        { state with
          aml := (state.aml.amlFinalize now (some transactionId) outcome).2
          due := state.due.erase outcome }
    else none
  | .finalizeAgain outcome =>
    if outcome ∈ state.recorded then some { state with due := outcome :: state.due } else none
  | .interrupt outcome =>
    if outcome ≠ .completed ∧ outcome ∈ state.due then
      some { state with due := state.due.erase outcome }
    else none
  | .elsewhere wallets summaries =>
    some
      { state with
        ledger := { state.ledger with wallets := wallets }
        aml := { state.aml with summaries := summaries } }

/-- The producer has answered and no handler has anything left to do. -/
def Final (state : Submission) : Prop :=
  (state.phase = .submitted ∨ state.phase = .failed) ∧ state.due = []

/-- Nothing is posted, the request has not been sent and its reservation, if it
has one, is pending. -/
structure Opening (transactionId : ℤ) (state : Submission) : Prop where
  unposted : state.ledger.Initial
  submitting : state.phase = .submitting
  unsent : state.accepted = false
  nothing_due : state.due = []
  nothing_recorded : state.recorded = []
  pending : ∀ reservation, state.aml.reservations.find? transactionId = some reservation →
    reservation.status = .pending

end Submission

/-! ## What is posted -/

def HasCompletedPosting (db : Posting.Db) (transactionId : ℤ) : Prop :=
  ∃ journal ∈ db.journals.rows, journal.postsFor transactionId ∧ journal.status = .completed

def HasEffectivePosting (db : Posting.Db) (transactionId : ℤ) : Prop :=
  ∃ journal ∈ db.journals.rows, journal.postsFor transactionId ∧ journal.status.reversible

instance (db : Posting.Db) (transactionId : ℤ) : Decidable (HasCompletedPosting db transactionId) :=
  inferInstanceAs (Decidable (∃ journal ∈ db.journals.rows, _))

instance (db : Posting.Db) (transactionId : ℤ) : Decidable (HasEffectivePosting db transactionId) :=
  inferInstanceAs (Decidable (∃ journal ∈ db.journals.rows, _))

def amlStatus (db : Aml.Db) (transactionId : ℤ) : Option Aml.ReservationStatus :=
  (db.reservations.find? transactionId).map Aml.Reservation.status

def requestStatus (db : Posting.Db) (transactionId : ℤ) : Option ℤ :=
  (db.requests.find? transactionId).bind Request.transactionStatus

/-- Request, reservation and ledger say the same: with a completed posting the
request has a status that the procedure has written and the reservation is
completed or reversed, and a released reservation has no posting in effect. -/
structure Submission.Consistent (transactionId : ℤ) (state : Submission) : Prop where
  request : HasCompletedPosting state.ledger transactionId →
    requestStatus state.ledger transactionId ∈ [some 4, some 5, some 6]
  completed : HasCompletedPosting state.ledger transactionId →
    ∀ status ∈ amlStatus state.aml transactionId, status = .completed ∨ status = .reversed
  released : amlStatus state.aml transactionId = some .released →
    ¬ HasEffectivePosting state.ledger transactionId

end Finify.Delivery
