/-
# Payment attempts

`transactionprocess` stores a request, checks and prices it, reserves AML capacity,
writes status 2 and sends a message.  What its collaborators read or compute is an
answer that is given with the call; a write takes effect or is lost, and its caller
may be told that it failed when it did not.  The AML procedures run as they are.
-/

import Finify.Aml.Procedures
import Mathlib.Data.List.DropRight

namespace Finify.Delivery.Attempts

open Foundations

/-- What a call returns, or the message with which it throws. -/
abbrev Answer (α : Type) := Except String α

/-- How a write ends: done, or thrown with nothing written or with everything written. -/
inductive Ending | done | lost | unacknowledged
  deriving DecidableEq, Repr

def connectionLost : String := "Connection terminated unexpectedly"

/-- `text.trim()`. -/
def trimmed (text : String) : String :=
  String.ofList ((text.toList.dropWhile Char.isWhitespace).rdropWhile Char.isWhitespace)

/-- `text.trim().toUpperCase()`. -/
def normalized (text : String) : String := (trimmed text).toUpper

/-- `String(value || 'N').trim().toUpperCase() === 'Y'`. -/
def isYes (value : Option String) : Bool := decide (normalized (value.getD "N") = "Y")

/-! ## Rows and requests -/

/-- `CreateTransactionDto`. -/
structure CreateTransaction where
  amount : ℚ
  pin : String
  keyword : String
  sourceAccount : ℤ
  destinationAccount : ℤ
  mobileNumber : String
  referenceId : Option String := none
  currency : Option String := none

/-- The columns of a wallet that a request is checked against. -/
structure Wallet where
  status : ℤ
  currency : Option String

/-- `SwTblKeyword`. -/
structure Keyword where
  keyword : String
  keywordScope : Option String
  isFinancial : Option Bool
  chargeable : Option String
  kcIdLookup : Option String
  commissionable : Option String
  kcmIdLookup : Option String
  minimumTranAmount : ℚ
  isSystemKeyword : Bool
  isActive : Bool

/-- `SwViewAllUser`. -/
structure User where
  walletCode : Option ℤ
  amount : String
  fullName : String

/-- `TransactionRequest`. -/
structure Request where
  transactionId : ℤ
  trnId : String
  keyword : String
  sourceWalletId : ℤ
  destWalletId : ℤ
  amount : ℚ
  currency : String
  referenceId : String
  transactionStatus : ℤ := 1
  transactionFee : String := "0"
  transactionComm : String := "0"
  feePayer : String := "0"
  commissionReceiver : String := "0"

/-- What `ChargeService.calculate` returns. -/
structure ChargeResult where
  chargeId : ℕ
  chargeDetailId : ℕ
  payer : String
  chargeAmount : String
  chargeWallet : ℤ
  sourceDebitAmount : String
  destinationCreditAmount : String

/-- What `CommissionService.calculate` returns. -/
structure CommissionResult where
  commissionId : ℕ
  commissionDetailId : ℕ
  receiver : String
  commissionAmount : String
  commissionWallet : ℤ
  sourceCommissionCredit : String
  destinationCommissionCredit : String

/-- `KeywordService.checkkeyword` answers. -/
structure KeywordResponse where
  responseCode : ℕ
  responseDescription : String := ""
  amlCheck : Option (ℕ × String) := none
  keywordExists : Option Keyword := none

/-- What an attempt reports. -/
structure Response where
  responsecode : ℕ
  responseDescription : String
  transactionId : Option ℤ := none
  amlCode : Option Aml.ReserveCode := none

/-- All that was checked and computed for a request before its capacity is reserved. -/
structure Prepared where
  keyword : Keyword
  source : User
  destination : User
  charge : Option ChargeResult
  commission : Option CommissionResult

/-- The message lays out the request and what was prepared for it, with the reservation unless the
keyword is one of the system. -/
structure Message where
  request : Request
  prepared : Prepared
  reservation : Option Aml.ReserveResult

structure World where
  requests : Table fun request : Request => request.transactionId
  aml : Aml.Db
  messages : List Message

/-- What the collaborators answer to one attempt. -/
structure Answers where
  ownership : Answer Bool
  sourceWallet : Answer (Option Wallet)
  destinationWallet : Answer (Option Wallet)
  transactionId : ℤ
  save : Ending
  keyword : Answer (Option Keyword)
  sourceDetails : Answer (Option ℤ)
  destinationDetails : Answer (Option ℤ)
  sourceUser : Answer (Option User)
  destinationUser : Answer (Option User)
  pin : Answer Bool
  charge : Answer ChargeResult
  commission : Answer CommissionResult
  now : Stamp
  reserve : Ending
  update : Ending
  send : Answer Unit
  release : Ending
  mark : Ending

/-! ## `TransactionRequestService.create` -/

def isIsoCurrency (currency : String) : Bool :=
  decide (currency.toList.length = 3) && currency.toList.all Char.isUpper

def requestedCurrency (dto : CreateTransaction) (source : Wallet) : String :=
  normalized (if dto.currency.getD "" = "" then normalized (source.currency.getD "")
    else dto.currency.getD "")

/-- The request that is about to be stored. -/
def create (dto : CreateTransaction) (answers : Answers) : Answer Request :=
  match answers.sourceWallet, answers.destinationWallet with
  | .error message, _ => .error message
  | .ok _, .error message => .error message
  | .ok (some source), .ok (some destination) =>
    let sourceCurrency := normalized (source.currency.getD "")
    let destinationCurrency := normalized (destination.currency.getD "")
    let requestedCurrency := requestedCurrency dto source
    if source.status ≠ 0 ∨ destination.status ≠ 0 then
      .error "Source and destination wallets must be active"
    else if isIsoCurrency requestedCurrency = false then
      .error "A valid ISO transaction currency is required"
    else if sourceCurrency ≠ requestedCurrency ∨ destinationCurrency ≠ requestedCurrency then
      .error ("Normal transfers require source, destination, and transaction currencies " ++
        "to match")
    else
      .ok
        { transactionId := answers.transactionId
          trnId := dto.keyword ++ "-" ++ toString answers.transactionId
          keyword := dto.keyword
          sourceWalletId := dto.sourceAccount
          destWalletId := dto.destinationAccount
          amount := dto.amount
          currency := requestedCurrency
          referenceId := trimmed (dto.referenceId.getD "") }
  | .ok _, .ok _ => .error "Source and destination wallets must exist"

/-! ## `KeywordService` -/

def walletLetter (walletType : ℤ) : String :=
  if walletType = 200 then "M" else if walletType = 300 then "A"
  else if walletType = 100 then "C" else "S"

/-- `checkwalletdetails`: the class of the destination, or what is answered instead. -/
def checkwalletdetails (answers : Answers) : Answer (Except KeywordResponse String) :=
  match answers.sourceDetails, answers.destinationDetails with
  | .error message, _ => .error message
  | .ok _, .error message => .error message
  | .ok none, .ok _ =>
    .ok (.error { responseCode := 998, responseDescription := "Source Account not found" })
  | .ok (some _), .ok none =>
    .ok (.error { responseCode := 997, responseDescription := "Destination Account not found" })
  | .ok (some _), .ok (some walletType) => .ok (.ok (walletLetter walletType))

def serviceDeactivate : KeywordResponse where
  responseCode := 999
  responseDescription := "Service Deactivated"

def serviceBlocked : KeywordResponse where
  responseCode := 998
  responseDescription := "Service Blocked"

def serviceMinimumAmount : KeywordResponse where
  responseCode := 997
  responseDescription := "Minimum Amount Not Met"

/-- What is answered for an active keyword of payments, of the class of the destination. -/
def financialResponse (keyword : Keyword) (amount : ℚ) (walletType : String) : KeywordResponse :=
  if keyword.keywordScope ≠ some walletType then serviceBlocked
  else if amount < keyword.minimumTranAmount then serviceMinimumAmount
  else if keyword.isSystemKeyword then
    { responseCode := 200
      responseDescription := "Keyword found and Service is Active and Financial"
      amlCheck := some (100, "AML check bypassed for system keyword")
      keywordExists := some keyword }
  else
    { responseCode := 200
      amlCheck := some (100, "AML eligibility passed; transactional reservation required")
      keywordExists := some keyword }

def checkkeyword (dto : CreateTransaction) (answers : Answers) : Answer KeywordResponse :=
  match answers.keyword with
  | .error message => .error message
  | .ok none => .ok serviceDeactivate
  | .ok (some keyword) =>
    if keyword.isActive = false then .ok serviceDeactivate
    else
      match keyword.isFinancial with
      | some false =>
        .ok
          { responseCode := 200
            responseDescription := "Keyword found and Service is Active" }
      | some true =>
        match checkwalletdetails answers with
        | .error message => .error message
        | .ok (.error response) => .ok response
        | .ok (.ok walletType) => .ok (financialResponse keyword dto.amount walletType)
      | none => .ok { responseCode := 200, responseDescription := "Keyword found" }

/-! ## Checks and prices -/

/-- Why an attempt ends before its capacity is reserved: an exception leaves the function, or the
request is marked as failed and then answered or thrown on. -/
inductive Refusal
  | escapes (message : String)
  | answers (response : Response)
  | throws (message : String)

/-- A call whose exception is caught and thrown on. -/
def Answer.caught {α : Type} : Answer α → Except Refusal α
  | .ok value => .ok value
  | .error message => .error (.throws message)

/-- `Number(Wallet_Code)` is a positive integer. -/
def User.priced (user : User) : Bool := decide (0 < user.walletCode.getD 0)

/-- The keyword must be one that payments are made with. -/
def verifyKeyword (dto : CreateTransaction) (answers : Answers) (transactionId : ℤ) :
    Except Refusal Keyword :=
  match checkkeyword dto answers with
  | .error message => .error (.escapes message)
  | .ok response =>
    if response.responseCode ≠ 200 then
      .error (.answers
        { responsecode := response.responseCode
          responseDescription := response.responseDescription })
    else
      match response.amlCheck, response.keywordExists with
      | none, _ =>
        .error (.answers
          { responsecode := 422
            responseDescription :=
              "Keyword is not eligible for financial transaction processing" })
      | some (100, _), some keyword => .ok keyword
      | some (100, _), none => .error (.escapes "Cannot read properties of undefined")
      | some (code, message), _ =>
        .error (.answers
          { responsecode := code, responseDescription := message
            transactionId := some transactionId })

/-- Both users must be there, the PIN right and their wallets of a type. -/
def verifyUsers (answers : Answers) : Except Refusal (User × User) :=
  match answers.sourceUser, answers.destinationUser with
  | .error message, _ => .error (.escapes message)
  | .ok _, .error message => .error (.escapes message)
  | .ok none, .ok _ =>
    .error (.answers { responsecode := 404, responseDescription := "Source user not found" })
  | .ok (some _), .ok none =>
    .error (.answers { responsecode := 404, responseDescription := "Destination user not found" })
  | .ok (some source), .ok (some destination) =>
    match answers.pin with
    | .error message => .error (.escapes message)
    | .ok false =>
      .error (.answers
        { responsecode := 401, responseDescription := "Password verification failed" })
    | .ok true =>
      if source.priced = false ∨ destination.priced = false then
        .error (.answers
          { responsecode := 422
            responseDescription :=
              "Source and destination wallet types are required for pricing" })
      else .ok (source, destination)

/-- A price, when the keyword has one and the wallet to look it up for is valid. -/
def price {α : Type} (applies : Option String) (lookup : Option String) (purpose : String)
    (users : User × User) (calculate : Answer α) : Except Refusal (Option α) :=
  if isYes applies = false then .ok none
  else if (if lookup = some "S" then users.1 else users.2).priced = false then
    .error (.answers
      { responsecode := 422
        responseDescription := "Valid wallet ID is required for " ++ purpose ++ " calculation" })
  else calculate.caught.map some

/-- All that happens between the storing of the request and the reservation; nothing is
written. -/
def verify (dto : CreateTransaction) (answers : Answers) (transactionId : ℤ) :
    Except Refusal Prepared :=
  match verifyKeyword dto answers transactionId with
  | .error refusal => .error refusal
  | .ok keyword =>
    match verifyUsers answers with
    | .error refusal => .error refusal
    | .ok users =>
      match price keyword.chargeable keyword.kcIdLookup "charge" users answers.charge with
      | .error refusal => .error refusal
      | .ok charge =>
        match price keyword.commissionable keyword.kcmIdLookup "commission" users
            answers.commission with
        | .error refusal => .error refusal
        | .ok commission =>
          .ok
            { keyword := keyword, source := users.1, destination := users.2
              charge := charge, commission := commission }

/-! ## Writes -/

/-- What the caller gets, and what is stored. -/
structure Outcome where
  reply : Answer Response
  world : World

/-- `markTransactionFailed` writes this. -/
def Request.failed (request : Request) : Request :=
  { request with
    transactionStatus := 3, feePayer := "0", commissionReceiver := "0"
    transactionFee := "0.00", transactionComm := "0.00" }

theorem Request.failed_transactionId (request : Request) :
    request.failed.transactionId = request.transactionId := rfl

/-- `value || fallback`. -/
def truthyOr (value : Option String) (fallback : String) : String :=
  if value.getD "" = "" then fallback else value.getD ""

/-- The account that a price falls on. -/
def Prepared.party (side : String) (request : Request) : String :=
  toString (if side = "S" then request.sourceWalletId else request.destWalletId)

/-- The update that comes before the message writes this. -/
def Request.submitted (prepared : Prepared) (request : Request) : Request :=
  { request with
    transactionStatus := 2
    feePayer := truthyOr
      (prepared.charge.map fun charge => Prepared.party charge.payer request) "0"
    commissionReceiver := truthyOr
      (prepared.commission.map fun commission => Prepared.party commission.receiver request) "0"
    transactionFee := truthyOr (prepared.charge.map fun charge => charge.chargeAmount) "0.00"
    transactionComm := truthyOr
      (prepared.commission.map fun commission => commission.commissionAmount) "0.00" }

theorem Request.submitted_transactionId (prepared : Prepared) (request : Request) :
    (request.submitted prepared).transactionId = request.transactionId := rfl

/-- The request is marked as failed, unless that fails as well. -/
def World.fail (world : World) (answers : Answers) (transactionId : ℤ)
    (reply : Answer Response) : Outcome :=
  let marked := { world with
    requests := world.requests.modify transactionId Request.failed Request.failed_transactionId }
  match answers.mark with
  | .done => { reply := reply, world := marked }
  | .lost => { reply := .error connectionLost, world := world }
  | .unacknowledged => { reply := .error connectionLost, world := marked }

/-- `AmlTransactionService.release`, whose own failure is logged. -/
def World.release (world : World) (answers : Answers) (transactionId : ℤ) : World :=
  if answers.release = .lost then world
  else { world with
    aml := (world.aml.amlFinalize answers.now (some transactionId) .released).2 }

/-- The update or the message failed. -/
def World.undo (world : World) (answers : Answers) (transactionId : ℤ)
    (reservation : Option Aml.ReserveResult) (message : String) : Outcome :=
  let released := if reservation.isSome then world.release answers transactionId else world
  released.fail answers transactionId (.error message)

/-- Status 2 is written and the message is sent; a send that throws was not accepted. -/
def World.submit (world : World) (answers : Answers) (request : Request) (prepared : Prepared)
    (reservation : Option Aml.ReserveResult) : Outcome :=
  let updated := { world with
    requests := world.requests.modify request.transactionId (Request.submitted prepared)
      (Request.submitted_transactionId prepared) }
  match answers.update with
  | .lost => world.undo answers request.transactionId reservation connectionLost
  | .unacknowledged => updated.undo answers request.transactionId reservation connectionLost
  | .done =>
    match answers.send with
    | .error message => updated.undo answers request.transactionId reservation message
    | .ok _ =>
      { reply := .ok
          { responsecode := 200
            responseDescription := "Transaction submitted successfully"
            transactionId := some request.transactionId }
        world := { updated with
          messages := updated.messages ++
            [{ request := request, prepared := prepared, reservation := reservation }] } }

/-- The arguments of the reservation procedure, as it reads them. -/
def reserveCall (request : Request) : Aml.ReserveCall where
  transactionId := some request.transactionId
  walletMsisdn := some request.sourceWalletId
  keyword := if normalized request.keyword = "" then none else some (normalized request.keyword)
  amount := some (request.amount : Posting.Numeric)

/-- Capacity is reserved, and the payment is submitted if there is any. -/
def World.reserve (world : World) (answers : Answers) (request : Request)
    (prepared : Prepared) : Outcome :=
  match answers.reserve, world.aml.amlReserve answers.now (reserveCall request) with
  | .lost, _ => world.fail answers request.transactionId (.error connectionLost)
  | _, none => world.fail answers request.transactionId (.error "AML reservation raised")
  | .unacknowledged, some (_, aml) =>
    World.fail { world with aml } answers request.transactionId (.error connectionLost)
  | .done, some (result, aml) =>
    if result.success then World.submit { world with aml } answers request prepared (some result)
    else
      World.fail { world with aml } answers request.transactionId (.ok
        { responsecode := 980
          responseDescription := result.statusMessage
          transactionId := some request.transactionId
          amlCode := some result.statusCode })

/-- What happens to a request that is stored. -/
def World.process (world : World) (dto : CreateTransaction) (answers : Answers)
    (request : Request) : Outcome :=
  match verify dto answers request.transactionId with
  | .error (.escapes message) => { reply := .error message, world := world }
  | .error (.answers response) => world.fail answers request.transactionId (.ok response)
  | .error (.throws message) => world.fail answers request.transactionId (.error message)
  | .ok prepared =>
    if prepared.keyword.isSystemKeyword then world.submit answers request prepared none
    else world.reserve answers request prepared

/-- `save` stores a new request. -/
def World.store (world : World) (request : Request) : World :=
  { world with requests := (world.requests.insert? request).getD world.requests }

def transactionprocess (world : World) (dto : CreateTransaction) (identity : String)
    (answers : Answers) : Outcome :=
  if dto.mobileNumber ≠ identity then
    { reply := .error "Transaction identity does not match the authenticated account"
      world := world }
  else
    match answers.ownership with
    | .error message => { reply := .error message, world := world }
    | .ok false =>
      { reply := .error "Wallet is not owned by the authenticated account", world := world }
    | .ok true =>
      match create dto answers with
      | .error message => { reply := .error message, world := world }
      | .ok request =>
        match answers.save with
        | .lost => { reply := .error connectionLost, world := world }
        | .unacknowledged => { reply := .error connectionLost, world := world.store request }
        | .done => (world.store request).process dto answers request

/-! ## What an attempt owes -/

/-- The drawn identifier is not in use. -/
structure World.Fresh (world : World) (transactionId : ℤ) : Prop where
  request : world.requests.find? transactionId = none
  reservation : world.aml.reservations.find? transactionId = none

/-- What the attempt reports is a success. -/
def succeeds (reply : Answer Response) : Bool :=
  match reply with
  | .ok response => decide (response.responsecode = 200)
  | .error _ => false

def World.requestStatus (world : World) (transactionId : ℤ) : Option ℤ :=
  (world.requests.find? transactionId).map fun request => request.transactionStatus

def World.amlStatus (world : World) (transactionId : ℤ) : Option Aml.ReservationStatus :=
  (world.aml.reservations.find? transactionId).map fun reservation => reservation.status

/-- The keyword that the attempt has found is one of the system. -/
def Answers.isSystem (answers : Answers) : Bool :=
  match answers.keyword with
  | .ok (some keyword) => keyword.isSystemKeyword
  | _ => false

/-- Success with everything in place, or failure with everything undone. -/
def Accounted (start : World) (answers : Answers) (outcome : Outcome) : Prop :=
  let transactionId := answers.transactionId
  if succeeds outcome.reply then
    outcome.world.requestStatus transactionId = some 2 ∧
      outcome.world.amlStatus transactionId =
        (if answers.isSystem then none else some .pending) ∧
      ∃ message, outcome.world.messages = start.messages ++ [message]
  else
    outcome.world.messages = start.messages ∧
      (∀ status ∈ outcome.world.requestStatus transactionId, status = 3) ∧
      outcome.world.amlStatus transactionId ≠ some .pending

end Finify.Delivery.Attempts
