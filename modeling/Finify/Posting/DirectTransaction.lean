/-
# `sw_proc_direct_finify_transaction`

The procedure first decides what to post and only then writes: every early exit
returns before the journal is inserted, and the one thing an exit may write is
`Transaction_Status` 3 on the request.  The model keeps that shape.  `plan` runs
the checks in the order of the source and either exits or yields the lines to
post; `commit` inserts the journal, applies the lines one by one and updates the
statuses.  A raised exception rolls the call back, so the call has no result.
-/

import Finify.Posting.Ledger
import Mathlib.Data.List.Dedup
import Mathlib.Data.List.Sort

namespace Finify.Posting

open Finify.Foundations

/-! ## Calls and results -/

/-- The arguments of a call.  `none` is SQL null or, for the two texts, empty. -/
structure Call where
  payload : Payload
  mode : Option ModeText := none
  action : Option ActionText := none
  leg : Option ℤ := none
  deriving DecidableEq

/-- `status_code`. -/
inductive PostingCode
  | invalidMessage
  | transactionNotFound
  | invalidOperation
  | alreadyReversed
  | alreadyReserved
  | alreadyCompleted
  | operationInProgress
  | invalidTransaction
  | requestMismatch
  | reservationNotFound
  | invalidAmount
  | reversalNotAllowed
  | originalJournalNotFound
  | unbalancedPosting
  | walletNotAvailable
  | reversalBlocked
  | settlementBlocked
  | insufficientBalance
  | reversed
  | reserved
  | completed
  deriving DecidableEq, Repr

/-- The returned row, without the echoed mode, action and leg. -/
structure Result where
  success : Bool
  statusCode : PostingCode
  statusMessage : String
  transactionId : Option ℤ
  journalId : Option ℕ := none
  sourceBalance : Option ℤ := none
  destinationBalance : Option ℤ := none
  temporaryBalance : Option ℤ := none
  deriving DecidableEq

/-- `v_temp_wallet`, where reserved funds are kept. -/
def tempWallet : ℤ := 9800000105

/-- `v_charge_wallet` unless the payload names one. -/
def defaultChargeWallet : ℤ := 9800000113

/-- `v_commission_wallet` unless the payload names one. -/
def defaultCommissionWallet : ℤ := 9800000114

/-- How a call ends before anything is posted. -/
inductive Exit
  /-- Return a row; nothing was written. -/
  | returned (result : Result)
  /-- Return a row after setting the request's status to 3. -/
  | failed (result : Result)
  deriving DecidableEq

/-- Return with `success = false`. -/
def refuse {α : Type} (transactionId : Option ℤ) (code : PostingCode) (message : String) :
    Except Exit α :=
  .error (.returned
    { success := false, statusCode := code, statusMessage := message,
      transactionId := transactionId })

/-- Return with `success = false`; a call that is neither a reversal nor a
second leg first marks the request as failed. -/
def refuseOperation {α : Type} (transactionId : ℤ) (operation : Operation) (code : PostingCode)
    (message : String) : Except Exit α :=
  let result : Result :=
    { success := false, statusCode := code, statusMessage := message,
      transactionId := some transactionId }
  match operation with
  | .direct => .error (.failed result)
  | .reserve => .error (.failed result)
  | .settle => .error (.returned result)
  | .reverse _ => .error (.returned result)

namespace Call

def modeText (call : Call) : ModeText :=
  (call.mode <|> call.payload.transactionMode).getD .direct

def actionText (call : Call) : ActionText :=
  (call.action <|> call.payload.transactionAction).getD .post

def legNumber (call : Call) : ℤ :=
  match call.actionText with
  | .reverse => 0
  | _ => (call.leg <|> call.payload.transactionLeg).getD 1

/-- The operation a call asks for, when mode, action and leg fit together. -/
def operation? (call : Call) : Option Operation :=
  match call.modeText, call.actionText with
  | .direct, .post => if call.legNumber = 1 then some .direct else none
  | .twoLeg, .post =>
    if call.legNumber = 1 then some .reserve
    else if call.legNumber = 2 then some .settle
    else none
  | .direct, .reverse => some (.reverse .direct)
  | .twoLeg, .reverse => some (.reverse .twoLeg)
  | _, _ => none

end Call

/-! ## The operation has been processed before -/

/-- `success` for an operation whose journal exists. -/
def JournalStatus.finished : JournalStatus → Bool
  | .reserved => true
  | .settled => true
  | .completed => true
  | .reversed => true
  | .processing => false
  | .failed => false

/-- `status_code` for an operation whose journal exists. -/
def existingCode (operation : Operation) (status : JournalStatus) : PostingCode :=
  if operation.action = .reverse ∨ status = .reversed then .alreadyReversed
  else
    match status with
    | .reserved => .alreadyReserved
    | .settled => .alreadyCompleted
    | .completed => .alreadyCompleted
    | _ => .operationInProgress

def Db.optionBalance (db : Db) (wallet : Option ℤ) : Option ℤ :=
  wallet.bind db.balance

def Db.existingResult (db : Db) (request : Request) (operation : Operation) (journal : Journal) :
    Result where
  success := journal.status.finished
  statusCode := existingCode operation journal.status
  statusMessage := "This transaction operation has already been processed"
  transactionId := some request.transactionId
  journalId := some journal.id
  sourceBalance := db.optionBalance request.sourceWalletId
  destinationBalance := db.optionBalance request.destWalletId
  temporaryBalance := db.balance tempWallet

/-! ## What the request says -/

/-- Source, destination and a positive amount: a request without them is not
posted. -/
structure Terms where
  source : ℤ
  destination : ℤ
  amount : Amount
  amount_pos : 0 < amount
  deriving DecidableEq

def Request.terms? (request : Request) : Option Terms :=
  match request.sourceWalletId, request.destWalletId, request.amount.map round2 with
  | some source, some destination, some amount =>
    if hpos : 0 < amount then some ⟨source, destination, amount, hpos⟩ else none
  | _, _, _ => none

/-- The message of a first leg must agree with the request where it is given. -/
def Payload.mismatch? (payload : Payload) (terms : Terms) : Option String :=
  if payload.source.any (· ≠ terms.source) then
    some "Kafka source does not match the transaction request"
  else if payload.destination.any (· ≠ terms.destination) then
    some "Kafka destination does not match the transaction request"
  else if payload.amount.any (round2 · ≠ terms.amount) then
    some "Kafka amount does not match the transaction request"
  else none

/-- `v_currency`, before `upper`. -/
def postingCurrency (request : Request) (payload : Payload) : String :=
  ((request.currency.filter (· ≠ "") <|> payload.currency).getD "BDT").toUpper

/-! ## Amounts and lines of a posting -/

/-- The amounts and the two configurable wallets of a posting. -/
structure PostingAmounts where
  charge : Amount
  commission : Amount
  sourceDebit : Amount
  destinationCredit : Amount
  chargeCredit : Amount
  commissionDebit : Amount
  sourceCommissionCredit : Amount
  destinationCommissionCredit : Amount
  chargeWallet : ℤ
  commissionWallet : ℤ
  deriving DecidableEq

/-- Read the amounts from the payload, with the request and the other amounts as
defaults. -/
def postingAmounts (payload : Payload) (request : Request) (amount : Amount) : PostingAmounts :=
  let charge :=
    round2 ((payload.chargeAmount <|> request.transactionFee.map moneyToNumeric).getD 0)
  let commission :=
    round2 ((payload.commissionAmount <|> request.transactionComm.map moneyToNumeric).getD 0)
  { charge := charge
    commission := commission
    sourceDebit := payload.sourceDebitAmount.elim amount round2
    destinationCredit := payload.destinationCreditAmount.elim amount round2
    chargeCredit := payload.chargeWalletCredit.elim charge round2
    commissionDebit := payload.commissionWalletDebit.elim commission round2
    sourceCommissionCredit := payload.sourceCommissionCredit.elim 0 round2
    destinationCommissionCredit := payload.destinationCommissionCredit.elim 0 round2
    chargeWallet := payload.chargeWallet.getD defaultChargeWallet
    commissionWallet := payload.commissionWallet.getD defaultCommissionWallet }

def PostingAmounts.Negative (amounts : PostingAmounts) : Prop :=
  amounts.sourceDebit < 0 ∨ amounts.destinationCredit < 0 ∨ amounts.chargeCredit < 0 ∨
    amounts.commissionDebit < 0 ∨ amounts.sourceCommissionCredit < 0 ∨
    amounts.destinationCommissionCredit < 0

instance (amounts : PostingAmounts) : Decidable amounts.Negative :=
  inferInstanceAs (Decidable (_ ∨ _))

/-- The side of a line. -/
inductive Side
  | debit
  | credit
  deriving DecidableEq, Repr

/-- A line names its category, or carries the id of the entry it gives back. -/
inductive LineCategory
  | named (category : Category)
  | byId (id : ℤ)
  deriving DecidableEq

def LineCategory.resolve (categories : Category → Option ℤ) : LineCategory → Option ℤ
  | named category => categories category
  | byId id => some id

/-- One line of a posting. -/
structure Line where
  wallet : ℤ
  side : Side
  amount : Amount
  category : LineCategory
  currency : String
  originalEntryId : Option ℕ := none
  deriving DecidableEq

def positiveLine (wallet : ℤ) (side : Side) (amount : Amount) (category : Category)
    (currency : String) : List Line :=
  if 0 < amount then
    [{ wallet := wallet, side := side, amount := amount, category := .named category,
       currency := currency }]
  else []

/-- The lines that a direct posting and a second leg share: the commission
funding and the four credits. -/
def PostingAmounts.distribution (amounts : PostingAmounts) (terms : Terms) (currency : String) :
    List Line :=
  positiveLine amounts.commissionWallet .debit amounts.commissionDebit .commissionFunding currency
    ++ positiveLine terms.destination .credit amounts.destinationCredit .customerWallet currency
    ++ positiveLine amounts.chargeWallet .credit amounts.chargeCredit .chargeRevenue currency
    ++ positiveLine terms.source .credit amounts.sourceCommissionCredit .customerWallet currency
    ++ positiveLine terms.destination .credit amounts.destinationCommissionCredit
        .customerWallet currency

def PostingAmounts.directLines (amounts : PostingAmounts) (terms : Terms) (currency : String) :
    List Line :=
  positiveLine terms.source .debit amounts.sourceDebit .customerWallet currency
    ++ amounts.distribution terms currency

def PostingAmounts.reserveLines (amounts : PostingAmounts) (terms : Terms) (currency : String) :
    List Line :=
  [{ wallet := terms.source, side := .debit, amount := amounts.sourceDebit,
     category := .named .customerWallet, currency := currency },
   { wallet := tempWallet, side := .credit, amount := amounts.sourceDebit,
     category := .named .temporaryReserve, currency := currency }]

def PostingAmounts.settleLines (amounts : PostingAmounts) (terms : Terms) (currency : String) :
    List Line :=
  { wallet := tempWallet, side := .debit, amount := amounts.sourceDebit,
    category := .named .temporaryReserve, currency := currency }
    :: amounts.distribution terms currency

/-! ## Lines of a reversal -/

/-- The line that gives an entry back: the other side, the same wallet. -/
def Entry.giveBack (entry : Entry) (currency : String) : Line where
  wallet := entry.accountNumber
  side := if 0 < entry.debit then .credit else .debit
  amount := if 0 < entry.debit then (entry.debit : Amount) else (entry.credit : Amount)
  category := .byId entry.accountType
  currency := currency
  originalEntryId := some entry.id

/-- Sort key of the lines that give entries back: debits of the original first,
then the later leg, then the later line. -/
def giveBackKey (posted : Journal × Entry) : ℤ ×ₗ ℤ ×ₗ ℤ :=
  toLex (if 0 < posted.2.debit then 0 else 1,
    toLex (-posted.1.operation.leg, -(posted.2.lineNumber : ℤ)))

/-- `ORDER BY` of the lines that give entries back. -/
def giveBackOrder (posted : List (Journal × Entry)) : List (Journal × Entry) :=
  posted.insertionSort fun first second => giveBackKey first ≤ giveBackKey second

def Journal.postedIn (transactionId : ℤ) (mode : Mode) (journal : Journal) : Bool :=
  journal.transactionId = transactionId ∧ journal.operation.mode = mode ∧
    journal.operation.action = .post

/-- Statuses of journals whose entries a reversal gives back. -/
def JournalStatus.reversible : JournalStatus → Bool
  | .reserved => true
  | .settled => true
  | .completed => true
  | _ => false

def Db.reversalEntries (db : Db) (transactionId : ℤ) (mode : Mode) : List Entry :=
  (giveBackOrder (db.joinEntries fun journal =>
    journal.postedIn transactionId mode && journal.status.reversible)).map Prod.snd

theorem giveBackOrder_perm (posted : List (Journal × Entry)) :
    (giveBackOrder posted).Perm posted :=
  List.perm_insertionSort _ posted

theorem Db.mem_reversalEntries {db : Db} {transactionId : ℤ} {mode : Mode} {entry : Entry} :
    entry ∈ db.reversalEntries transactionId mode ↔
      entry ∈ db.entries.rows ∧ ∃ journal ∈ db.journals.rows, entry.journalId = journal.id ∧
        journal.postedIn transactionId mode ∧ journal.status.reversible := by
  simp only [Db.reversalEntries, List.mem_map, (giveBackOrder_perm _).mem_iff, Prod.exists,
    Db.mem_joinEntries, Bool.and_eq_true, exists_eq_right]
  constructor
  · rintro ⟨journal, hjournal, ⟨hposted, hstatus⟩, hentry, hid⟩
    exact ⟨hentry, journal, hjournal, hid, hposted, hstatus⟩
  · rintro ⟨hentry, journal, hjournal, hid, hposted, hstatus⟩
    exact ⟨journal, hjournal, ⟨hposted, hstatus⟩, hentry, hid⟩

def Db.lastPostedJournal (db : Db) (transactionId : ℤ) (mode : Mode) : Option ℕ :=
  ((db.journals.rows.filter (Journal.postedIn transactionId mode)).insertionSort
    fun first second => second.operation.leg ≤ first.operation.leg).head?.map Journal.id

/-! ## Checks on the lines -/

def sideTotal (side : Side) (lines : List Line) : Amount :=
  ((lines.filter fun line => line.side = side).map Line.amount).sum

def walletTotal (side : Side) (wallet : ℤ) (lines : List Line) : Amount :=
  sideTotal side (lines.filter fun line => line.wallet = wallet)

/-- The wallets of the lines are all there and active, as the procedure tests
it: it compares the number of distinct wallets with the number of rows found. -/
def Db.walletsAvailable (db : Db) (lines : List Line) : Prop :=
  (db.wallets.rows.filter fun wallet =>
      wallet.walletMsisdn ∈ (lines.map Line.wallet).dedup ∧ wallet.status = some 0).length
    = (lines.map Line.wallet).dedup.length

/-- Some debited wallet does not cover its debits.  Only a reversal counts the
credits of the same posting. -/
def Db.shortOfFunds (db : Db) (action : Action) (lines : List Line) : Prop :=
  ∃ line ∈ lines, line.side = .debit ∧ ∃ amount ∈ db.balance line.wallet,
    (amount : Amount) +
        (if action = .reverse then walletTotal .credit line.wallet lines else 0) <
      walletTotal .debit line.wallet lines

instance (db : Db) (lines : List Line) : Decidable (db.walletsAvailable lines) :=
  inferInstanceAs (Decidable (_ = _))

instance (db : Db) (action : Action) (lines : List Line) :
    Decidable (db.shortOfFunds action lines) :=
  inferInstanceAs (Decidable (∃ line ∈ lines, _))

/-- A `numeric(18,2)` as text. -/
def Amount.text (amount : Amount) : String :=
  match amount.cents? with
  | none => "NaN"
  | some cents =>
    let fraction := cents.natAbs % 100
    (if cents < 0 then "-" else "") ++ toString (cents.natAbs / 100) ++ "." ++
      (if fraction < 10 then "0" else "") ++ toString fraction

def blockedCode : Operation → PostingCode
  | .reverse _ => .reversalBlocked
  | .settle => .settlementBlocked
  | .direct => .insufficientBalance
  | .reserve => .insufficientBalance

/-- The three checks that every set of lines passes before it is posted. -/
def Db.checkLines (db : Db) (transactionId : ℤ) (operation : Operation) (lines : List Line) :
    Except Exit Unit :=
  let debit := sideTotal .debit lines
  let credit := sideTotal .credit lines
  if debit ≤ 0 ∨ debit ≠ credit then
    refuseOperation transactionId operation .unbalancedPosting
      ("Accounting debit " ++ debit.text ++ " does not equal credit " ++ credit.text)
  else if ¬ db.walletsAvailable lines then
    refuse (some transactionId) .walletNotAvailable
      "One or more posting wallets are missing or inactive"
  else if db.shortOfFunds operation.action lines then
    refuseOperation transactionId operation (blockedCode operation)
      "A debit wallet has insufficient balance"
  else .ok ()

/-! ## Planning -/

/-- Everything that the writing half of the procedure needs. -/
structure Plan where
  transactionId : ℤ
  operation : Operation
  terms : Terms
  charge : Amount
  commission : Amount
  lines : List Line
  payload : Payload
  originalJournalId : Option ℕ
  currency : String
  deriving DecidableEq

def planPosting (request : Request) (operation : Operation) (terms : Terms) (payload : Payload)
    (originalJournalId : Option ℕ) (currency : String)
    (lines : PostingAmounts → Terms → String → List Line) : Except Exit Plan :=
  let amounts := postingAmounts payload request terms.amount
  if amounts.Negative then
    refuse (some request.transactionId) .invalidAmount "Posting amounts cannot be negative"
  else
    .ok
      { transactionId := request.transactionId
        operation := operation
        terms := terms
        charge := amounts.charge
        commission := amounts.commission
        lines := lines amounts terms currency
        payload := payload
        originalJournalId := originalJournalId
        currency := currency }

/-- A first leg or a direct posting: the message must agree with the request. -/
def planFirstLeg (request : Request) (operation : Operation) (terms : Terms) (payload : Payload)
    (lines : PostingAmounts → Terms → String → List Line) : Except Exit Plan :=
  match payload.mismatch? terms with
  | some message => refuse (some request.transactionId) .requestMismatch message
  | none =>
    planPosting request operation terms payload none (postingCurrency request payload) lines

/-- A second leg posts the payload that the reserved first leg stored. -/
def Db.planSettle (db : Db) (request : Request) (terms : Terms) (payload : Payload) :
    Except Exit Plan :=
  match (db.findJournal request.transactionId .reserve).filter (·.status = .reserved) with
  | none =>
    refuse (some request.transactionId) .reservationNotFound
      "Two-leg settlement requires a reserved leg 1"
  | some reservation =>
    planPosting request .settle terms reservation.payload (some reservation.id)
      (postingCurrency request payload) PostingAmounts.settleLines

/-- A reversal gives back the entries of every journal posted in the mode. -/
def Db.planReverse (db : Db) (request : Request) (terms : Terms) (payload : Payload)
    (mode : Mode) : Except Exit Plan :=
  let status := request.transactionStatus.getD 0
  let currency := postingCurrency request payload
  if status ≠ 4 ∧ status ≠ 5 then
    refuse (some request.transactionId)
      (if request.transactionStatus = some 6 then .alreadyReversed else .reversalNotAllowed)
      "Only reserved or completed transactions can be reversed"
  else
    match db.reversalEntries request.transactionId mode with
    | [] =>
      refuse (some request.transactionId) .originalJournalNotFound
        "No posted accounting journal is available to reverse"
    | entry :: entries =>
      .ok
        { transactionId := request.transactionId
          operation := .reverse mode
          terms := terms
          charge := 0
          commission := 0
          lines := (entry :: entries).map (·.giveBack currency)
          payload := payload
          originalJournalId := db.lastPostedJournal request.transactionId mode
          currency := currency }

/-- The lines that an operation would post. -/
def Db.planOperation (db : Db) (request : Request) (operation : Operation) (terms : Terms)
    (payload : Payload) : Except Exit Plan :=
  match operation with
  | .direct => planFirstLeg request .direct terms payload PostingAmounts.directLines
  | .reserve => planFirstLeg request .reserve terms payload PostingAmounts.reserveLines
  | .settle => db.planSettle request terms payload
  | .reverse mode => db.planReverse request terms payload mode

def Db.address (db : Db) (call : Call) : Except Exit (Request × Operation) :=
  match call.payload.transactionId with
  | none => refuse none .invalidMessage "Kafka payload must contain TransactionId"
  | some transactionId =>
    match db.requests.find? transactionId with
    | none =>
      refuse (some transactionId) .transactionNotFound "Transaction request was not found"
    | some request =>
      match call.operation? with
      | none =>
        refuse (some transactionId) .invalidOperation
          "Mode/action/leg combination is invalid"
      | some operation => .ok (request, operation)

/-- A request without source, destination or positive amount is marked failed,
whatever the operation. -/
def requireTerms (request : Request) : Except Exit Terms :=
  match request.terms? with
  | some terms => .ok terms
  | none =>
    .error (.failed
      { success := false, statusCode := .invalidTransaction,
        statusMessage := "Source, destination, and a positive amount are required",
        transactionId := some request.transactionId })

/-- The deciding half of the procedure. -/
def Db.plan (db : Db) (call : Call) : Except Exit Plan := do
  let (request, operation) ← db.address call
  match db.findJournal request.transactionId operation with
  | some journal => .error (.returned (db.existingResult request operation journal))
  | none =>
    let terms ← requireTerms request
    let plan ← db.planOperation request operation terms call.payload
    db.checkLines plan.transactionId plan.operation plan.lines
    return plan

/-! ## Writing -/

/-- What a line does to a balance. -/
def Side.apply (side : Side) (balance amount : ℤ) : ℤ :=
  match side with
  | .debit => balance - amount
  | .credit => balance + amount

theorem Side.apply_eq (side : Side) (balance amount : ℤ) :
    side.apply balance amount =
      balance + (if side = .credit then amount else 0) - (if side = .debit then amount else 0) := by
  cases side <;> simp [Side.apply]

/-- The journal that lines are posted to. -/
structure Header where
  transactionId : ℤ
  journalId : ℕ

/-- One turn of the posting loop: update the wallet and record the entry.  An
unknown category raises, and so does an entry with no positive side.  A `NaN`
amount has no balance to go with; the checks on the lines keep it out. -/
def Db.postLine (header : Header) (db : Db) (numbered : Line × ℕ) : Option Db := do
  let (line, lineNumber) := numbered
  let accountType ← line.category.resolve db.categories
  let amount ← line.amount.cents?
  if hpos : 0 < amount then
    let before := db.balance line.wallet
    some
      { db with
        wallets := db.wallets.modify line.wallet
          (fun wallet => { wallet with amount := line.side.apply wallet.amount amount })
          fun _ => rfl
        entries := db.entries.append
          (fun id =>
            { id := id
              transactionId := header.transactionId
              debit := if line.side = .debit then amount else 0
              credit := if line.side = .credit then amount else 0
              accountType := accountType
              accountNumber := line.wallet
              journalId := header.journalId
              lineNumber := lineNumber
              currency := line.currency
              balanceBefore := before
              balanceAfter := before.map (line.side.apply · amount)
              reversesEntryId := line.originalEntryId
              oneSide := by cases line.side <;> simp [hpos] })
          fun _ => rfl }
  else none

def Db.postLines (header : Header) (db : Db) (lines : List Line) : Option Db :=
  (lines.zipIdx 1).foldlM (Db.postLine header) db

/-- Insert a journal in status `PROCESSING`; the unique index refuses a second
journal for an operation. -/
def Db.openJournal (db : Db) (transactionId : ℤ) (operation : Operation)
    (originalJournalId : Option ℕ) (currency : String) (payload : Payload) : Option (ℕ × Db) :=
  match db.findJournal transactionId operation with
  | some _ => none
  | none =>
    some (db.journals.next,
      { db with
        journals := db.journals.append
          (fun id =>
            { id := id
              transactionId := transactionId
              operation := operation
              status := .processing
              originalJournalId := originalJournalId
              currency := currency
              payload := payload })
          fun _ => rfl })

/-- `v_post_status`. -/
def Operation.postStatus : Operation → JournalStatus
  | .reserve => .reserved
  | _ => .completed

/-- `v_request_status`. -/
def Operation.requestStatus : Operation → ℤ
  | .direct => 5
  | .reserve => 4
  | .settle => 5
  | .reverse _ => 6

/-- `status_code` of a call that has posted. -/
def Operation.successCode : Operation → PostingCode
  | .reverse _ => .reversed
  | .reserve => .reserved
  | _ => .completed

def Operation.successMessage : Operation → String
  | .reverse _ => "Transaction reversed successfully"
  | .reserve => "Transaction funds reserved successfully"
  | _ => "Transaction completed successfully"

/-- A second leg settles the first; a reversal closes every journal it has
given back. -/
def Db.closeJournals (db : Db) (plan : Plan) : Db :=
  match plan.operation with
  | .settle => db.setJournalStatus (fun journal => some journal.id = plan.originalJournalId) .settled
  | .reverse mode =>
    db.setJournalStatus
      (fun journal =>
        journal.postedIn plan.transactionId mode && journal.status.reversible)
      .reversed
  | .direct => db
  | .reserve => db

/-- Write the new status on the request, and the charge and commission when the
operation posts. -/
def Db.closeRequest (db : Db) (plan : Plan) (charge commission : ℤ) : Db :=
  db.updateRequest plan.transactionId
    (fun request =>
      { request with
        transactionStatus := some plan.operation.requestStatus
        transactionFee :=
          if plan.operation.action = .post then some charge else request.transactionFee
        transactionComm :=
          if plan.operation.action = .post then some commission else request.transactionComm })
    fun _ => rfl

/-- The writing half of the procedure.  The amount, the charge and the
commission are cast to `money` on the way, which raises for `NaN`. -/
def Db.commit (db : Db) (plan : Plan) : Option (ℕ × Db) := do
  let (journalId, opened) ← db.openJournal plan.transactionId plan.operation
    plan.originalJournalId plan.currency plan.payload
  let posted ← opened.postLines ⟨plan.transactionId, journalId⟩ plan.lines
  let _ ← plan.terms.amount.cents?
  let charge ← plan.charge.cents?
  let commission ← plan.commission.cents?
  let closed := (posted.closeJournals plan).closeRequest plan charge commission
  return (journalId,
    closed.setJournalStatus (fun journal => journal.id = journalId) plan.operation.postStatus)

/-- `Transaction_Status` 3. -/
def Db.failRequest (db : Db) (call : Call) : Db :=
  match call.payload.transactionId with
  | none => db
  | some transactionId =>
    db.updateRequest transactionId (fun request => { request with transactionStatus := some 3 })
      fun _ => rfl

/-- The row returned after posting. -/
def Db.postedResult (db : Db) (plan : Plan) (journalId : ℕ) : Result where
  success := true
  statusCode := plan.operation.successCode
  statusMessage := plan.operation.successMessage
  transactionId := some plan.transactionId
  journalId := some journalId
  sourceBalance := db.balance plan.terms.source
  destinationBalance := db.balance plan.terms.destination
  temporaryBalance := db.balance tempWallet

/-- `sw_proc_direct_finify_transaction`: the returned row and the database after
the call, or nothing when it raised. -/
def Db.directFinifyTransaction (db : Db) (call : Call) : Option (Result × Db) :=
  match db.plan call with
  | .error (.returned result) => some (result, db)
  | .error (.failed result) => some (result, db.failRequest call)
  | .ok plan =>
    (db.commit plan).map fun (journalId, after) => (after.postedResult plan journalId, after)

end Finify.Posting
