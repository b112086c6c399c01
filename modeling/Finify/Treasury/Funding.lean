/-
# Creating and reviewing treasury movements

`createTreasuryFunding` and `reviewTreasuryFunding` as computations over the books.
Every row that a call reads it has locked, or the insert of the call would violate a
unique index otherwise, so that a call takes effect in one step.  The texts of a body
come trimmed, and in capitals where the source makes them so.
-/

import Finify.Foundations.Transaction
import Finify.Treasury.Tables

namespace Finify.Treasury

open Finify.Foundations
open Finify.Posting (Entry)
open Finify.Pricing (Administrator)

/-! ## Failures and texts -/

/-- The exceptions of the service, and whatever else is thrown. -/
inductive Failure
  | badRequest (message : String)
  | notFound (message : String)
  | conflict (message : String)
  | internal (message : String)
  deriving DecidableEq, Repr

/-- `length` of a text, which counts units of sixteen bits. -/
def textLength (text : String) : ℕ :=
  (text.toList.map fun c => if c.toNat < 65536 then 1 else 2).sum

/-- The number that digits stand for. -/
def digitsValue (digits : List Char) : ℕ :=
  digits.foldl (fun value c => 10 * value + (c.toNat - 48)) 0

/-- The number of a text that matches `^\d+$`. -/
def number? (text : String) : Option ℕ :=
  if text ≠ "" ∧ text.toList.all Char.isDigit then some (digitsValue text.toList) else none

/-- A text that matches `^[A-Z]{3}$`. -/
def isCurrency (text : String) : Bool :=
  text.toList.length = 3 && text.toList.all Char.isUpper

/-- A reference: a capital or digit, then 2 to 99 capitals, digits, dots, underscores,
slashes or hyphens. -/
def isReference (text : String) : Bool :=
  match text.toList with
  | [] => false
  | first :: rest =>
    (first.isUpper || first.isDigit) && (2 ≤ rest.length && rest.length ≤ 99) &&
      rest.all fun c => c.isUpper || c.isDigit || ['.', '_', '/', '-'].contains c

/-- `0|[1-9]\d{0,17}`. -/
def isWhole (digits : List Char) : Bool :=
  digits = ['0'] ||
    ((1 ≤ digits.length && digits.length ≤ 18) && digits.all Char.isDigit &&
      digits.head? ≠ some '0')

/-- The hundredths of a text that matches `^(?:0|[1-9]\d{0,17})(?:\.\d{1,2})?$`. -/
def hundredths? (text : List Char) : Option ℕ :=
  let whole := text.takeWhile (· ≠ '.')
  if isWhole whole then
    match text.dropWhile (· ≠ '.') with
    | [] => some (digitsValue whole * 100)
    | [_, tenths] =>
      if tenths.isDigit then some (digitsValue whole * 100 + digitsValue [tenths] * 10) else none
    | [_, tenths, rest] =>
      if tenths.isDigit && rest.isDigit then
        some (digitsValue whole * 100 + digitsValue [tenths, rest])
      else none
    | _ => none
  else none

def daysIn (year month : ℕ) : ℕ :=
  if month = 2 then
    if (year % 4 = 0 ∧ year % 100 ≠ 0) ∨ year % 400 = 0 then 29 else 28
  else if month ∈ [4, 6, 9, 11] then 30 else 31

/-- A calendar date in the form `YYYY-MM-DD`. -/
def isCalendarDate (text : String) : Bool :=
  match text.toList with
  | [y₁, y₂, y₃, y₄, '-', m₁, m₂, '-', d₁, d₂] =>
    let year := digitsValue [y₁, y₂, y₃, y₄]
    let month := digitsValue [m₁, m₂]
    let day := digitsValue [d₁, d₂]
    [y₁, y₂, y₃, y₄, m₁, m₂, d₁, d₂].all Char.isDigit &&
      (1 ≤ month && month ≤ 12) && (1 ≤ day && day ≤ daysIn year month)
  | _ => false

/-! ## Numbers -/

/-- The nearest integer, the even one of two. -/
def roundHalfEven (q : ℚ) : ℤ :=
  let below := ⌊q⌋
  if q - below < 1 / 2 then below
  else if 1 / 2 < q - below then below + 1
  else if below % 2 = 0 then below else below + 1

/-- `Number` of a balance: the double with 53 significant bits nearest to it. -/
def toNumber (hundredths : ℤ) : ℚ :=
  let value : ℚ := hundredths / 100
  let lastBit : ℚ := 2 ^ (Int.log 2 |value| - 52)
  roundHalfEven (value / lastBit) * lastBit

/-- A value of type `numeric(digits,2)`. -/
def Fits (digits : ℕ) (hundredths : ℤ) : Prop :=
  hundredths.natAbs < 10 ^ digits

instance (digits : ℕ) (hundredths : ℤ) : Decidable (Fits digits hundredths) :=
  inferInstanceAs (Decidable (_ < _))

def overflow : Failure := .internal "numeric field overflow"

/-- A value of type `bigint`. -/
def requireBigint (value : ℕ) : EStateM Failure Books Unit :=
  require (value < 2 ^ 63) (.internal "value is out of range for type bigint")

/-! ## Creating a request -/

/-- The body of `createTreasuryFunding`.  No operation stands for an empty one. -/
structure FundingBody where
  operation : Option String := none
  fundingType : String := ""
  fundingClassification : String := ""
  currency : String
  amount : String
  reference : String
  bankName : String
  bankAccount : String
  valueDate : String
  evidenceReference : String
  evidenceDocumentId : String := ""
  comment : String

/-- A body that has passed its checks. -/
structure NewFunding where
  operation : FundingOperation
  classification : Classification
  currency : String
  amount : ℤ
  reference : String
  bankName : String
  bankAccount : String
  valueDate : String
  evidenceReference : String
  evidenceDocumentId : Option ℕ
  comment : String

/-- `operationName`. -/
def FundingBody.operationName (body : FundingBody) : String :=
  body.operation.getD
    (if body.fundingType = "SAFEGUARDING" then "ADD_SAFEGUARDING"
    else if body.fundingType = "COMMISSION_FUNDING" then "ADD_COMMISSION_FUNDING"
    else "")

/-- `safeguardingClassifications`. -/
def safeguardingClassification? : String → Option Classification
  | "OWNER_INVESTMENT" => some .ownerInvestment
  | "CUSTOMER_FUNDS" => some .customerFunds
  | "BANK_PREFUNDING" => some .bankPrefunding
  | _ => none

/-- `fundingClassification`. -/
def FundingBody.classification (body : FundingBody) (operation : FundingOperation) :
    EStateM Failure Books Classification :=
  if operation.fundingType = .safeguarding then
    orThrow (safeguardingClassification? body.fundingClassification) (.badRequest
      "Safeguarding funding classification must be owner investment, customer funds, or bank prefunding")
  else do
    require (body.fundingClassification = "" ∨ body.fundingClassification = "NOT_APPLICABLE")
      (.badRequest "Funding classification applies only to safeguarding movements")
    pure .notApplicable

def FundingBody.documentId (body : FundingBody) : EStateM Failure Books (Option ℕ) :=
  if body.evidenceDocumentId = "" then pure none
  else some <$> orThrow (number? body.evidenceDocumentId)
    (.badRequest "Invalid bank transaction document")

def FundingBody.checked (body : FundingBody) : EStateM Failure Books NewFunding := do
  let operation ← orThrow (FundingOperation.ofName body.operationName) (.badRequest
    "Operation must add safeguarding, add commission funding, withdraw safeguarding, or withdraw charge revenue")
  let classification ← body.classification operation
  require (isCurrency body.currency) (.badRequest "A three-letter currency is required")
  let amount ← orThrow (hundredths? (body.amount.toList.filter (· ≠ ',')))
    (.badRequest "Movement amount must be positive with no more than two decimals")
  require (0 < amount)
    (.badRequest "Movement amount must be positive with no more than two decimals")
  require (isReference body.reference) (.badRequest
    "Reference must contain 3-100 letters, numbers, dots, slashes, underscores, or hyphens")
  require (2 ≤ textLength body.bankName ∧ textLength body.bankName ≤ 160)
    (.badRequest "Bank name must contain 2-160 characters")
  require (3 ≤ textLength body.bankAccount ∧ textLength body.bankAccount ≤ 160)
    (.badRequest "Bank account or IBAN must contain 3-160 characters")
  require (isCalendarDate body.valueDate)
    (.badRequest "A valid value date in YYYY-MM-DD format is required")
  require (3 ≤ textLength body.evidenceReference ∧ textLength body.evidenceReference ≤ 500)
    (.badRequest "Evidence URL or document reference must contain 3-500 characters")
  let document ← body.documentId
  require (3 ≤ textLength body.comment ∧ textLength body.comment ≤ 500)
    (.badRequest "A movement reason between 3 and 500 characters is required")
  pure
    { operation := operation
      classification := classification
      currency := body.currency
      amount := amount
      reference := body.reference
      bankName := body.bankName
      bankAccount := body.bankAccount
      valueDate := body.valueDate
      evidenceReference := body.evidenceReference
      evidenceDocumentId := document
      comment := body.comment }

def Books.systemWallets (books : Books) (code : ℤ) (currency : String) : List Wallet :=
  books.wallets.rows.filter fun wallet =>
    wallet.isSystem ∧ wallet.walletCode = code ∧ wallet.currency.toUpper = currency ∧
      wallet.status = some 0

def NewFunding.request (funding : NewFunding) (wallet : Wallet) (maker : Administrator) (id : ℕ) :
    FundingRequest where
  id := id
  fundingType := funding.operation.fundingType
  walletMsisdn := wallet.walletMsisdn
  walletCode := wallet.walletCode
  currency := funding.currency
  amount := funding.amount
  reference := funding.reference
  maker := maker
  makerComment := funding.comment
  direction := funding.operation.direction
  bankName := funding.bankName
  bankAccount := funding.bankAccount
  valueDate := funding.valueDate
  evidenceReference := funding.evidenceReference
  businessPurpose := funding.operation.businessPurpose
  classification := funding.classification

/-- The evidence document is uploaded, not yet attached, and the maker's own. -/
def checkDocument (document : Option ℕ) (actor : Administrator) : EStateM Failure Books Unit :=
  match document with
  | none => pure ()
  | some id => do
      requireBigint id
      let books ← get
      let document ← orThrow (books.documents.find? id)
        (.conflict "The bank transaction document is missing or already attached")
      require (document.status = .uploaded)
        (.conflict "The bank transaction document is missing or already attached")
      require (document.uploadedBy.sameAs actor)
        (.conflict "The bank transaction document belongs to another administrator")

def attach (documents : Table Document.id) (document : Option ℕ) (request : ℕ) :
    Table Document.id :=
  match document with
  | none => documents
  | some id => documents.modify id
      (fun row => { row with status := .attached, treasuryRequestId := some request })
      fun _ => rfl

/-- The books with a new request, and its document attached. -/
def Books.open (books : Books) (funding : NewFunding) (wallet : Wallet) (maker : Administrator) :
    Books :=
  { books with
    requests := books.requests.append (funding.request wallet maker) fun _ => rfl
    documents := attach books.documents funding.evidenceDocumentId books.requests.next }

/-- The transaction of `createTreasuryFunding`. -/
def openFunding (funding : NewFunding) (actor : Administrator) :
    EStateM Failure Books FundingRequest := do
  checkDocument funding.evidenceDocumentId actor
  let books ← get
  let wallets := books.systemWallets funding.operation.walletCode funding.currency
  let words := funding.operation.fundingType.words
  let wallet ← orThrow wallets.head? (.notFound
    ("An active " ++ words ++ " wallet is not configured for " ++ funding.currency))
  require (wallets.length ≤ 1) (.conflict
    ("Multiple " ++ words ++ " wallets are configured for " ++ funding.currency))
  let request := funding.request wallet actor books.requests.next
  require (funding.valueDate.toList.take 4 ≠ ['0', '0', '0', '0'])
    (.internal "date/time field value out of range")
  require (∀ other ∈ books.requests.rows, other.reference.toLower ≠ request.reference.toLower)
    (.conflict "This bank transaction reference already exists")
  require request.Checked (.internal "new row violates a check constraint")
  set (books.open funding wallet actor)
  pure request

def createTreasuryFunding (body : FundingBody) (actor : Administrator) :
    EStateM Failure Books FundingRequest := do
  let funding ← body.checked
  atomically (openFunding funding actor)

/-! ## Reviewing a request -/

/-- `action` of a review. -/
inductive ReviewAction
  | approve
  | reject
  deriving DecidableEq, Repr

def Books.write (books : Books) (request : FundingRequest) : Books :=
  { books with
    requests := books.requests.map (fun row => if row.id = request.id then request else row)
      fun row => by split <;> simp [*] }

def writeRequest (request : FundingRequest) : EStateM Failure Books FundingRequest := do
  let books ← get
  require request.Checked (.internal "new row violates a check constraint")
  require (∀ other ∈ books.requests.rows, other.id = request.id ∨
      request.accountingJournalId = none ∨
      other.accountingJournalId ≠ request.accountingJournalId)
    (.internal "duplicate key value violates a unique constraint")
  set (books.write request)
  pure request

/-- The wallet after a movement. -/
def Wallet.moved (wallet : Wallet) (direction : Direction) (amount transactionId : ℤ)
    (actor : Administrator) : Wallet :=
  { wallet with
    balanceBefore := wallet.amount
    amount := wallet.amount + direction.signed amount
    lastTransactionId := some transactionId
    lastTransactionAmount := some amount
    modifiedBy := some actor.username }

@[simp] theorem Wallet.walletMsisdn_moved (wallet : Wallet) (direction : Direction)
    (amount transactionId : ℤ) (actor : Administrator) :
    (wallet.moved direction amount transactionId actor).walletMsisdn = wallet.walletMsisdn := rfl

def Books.move (books : Books) (walletMsisdn : ℤ) (direction : Direction)
    (amount transactionId : ℤ) (actor : Administrator) : Books :=
  { books with
    wallets := books.wallets.modify walletMsisdn
      (fun row => row.moved direction amount transactionId actor)
      fun row => row.walletMsisdn_moved direction amount transactionId actor }

/-- The update of a wallet, which gives its new balance. -/
def moveWallet (walletMsisdn : ℤ) (direction : Direction) (amount transactionId : ℤ)
    (actor : Administrator) (refusal : Failure) : EStateM Failure Books ℤ := do
  let books ← get
  let wallet ← orThrow (books.wallets.find? walletMsisdn) refusal
  require (direction = .credit ∨ amount ≤ wallet.amount) refusal
  require (Fits 20 (wallet.amount + direction.signed amount)) overflow
  set (books.move walletMsisdn direction amount transactionId actor)
  pure (wallet.amount + direction.signed amount)

def FundingRequest.journal (request : FundingRequest) (transactionId : ℤ) (id : ℕ) : Journal where
  id := id
  transactionId := transactionId
  operation := .direct
  status := .completed
  keyword := "TREASURY_SAFEGUARDING"
  reference := request.reference
  currency := request.currency
  businessDate := request.valueDate

def Books.post (books : Books) (request : FundingRequest) (transactionId : ℤ) : Books :=
  { books with
    journals := books.journals.append (request.journal transactionId) fun _ => rfl }

def insertJournal (request : FundingRequest) (transactionId : ℤ) : EStateM Failure Books ℕ := do
  let books ← get
  require (∀ other ∈ books.journals.rows,
      ¬ (other.transactionId = transactionId ∧ other.operation = .direct))
    (.conflict "This bank transaction reference already exists")
  set (books.post request transactionId)
  pure books.journals.next

/-- An entry of an approved request, on the debit or the credit side. -/
def FundingRequest.entry (request : FundingRequest) (hamount : 0 < request.amount)
    (side : Direction) (transactionId : ℤ) (category wallet : ℤ) (journal line : ℕ)
    (balanceBefore balanceAfter : ℤ) (id : ℕ) : Entry where
  id := id
  transactionId := transactionId
  debit := if side = .debit then request.amount else 0
  credit := if side = .credit then request.amount else 0
  accountType := category
  accountNumber := wallet
  journalId := journal
  lineNumber := line
  currency := request.currency
  balanceBefore := some balanceBefore
  balanceAfter := some balanceAfter
  reversesEntryId := none
  oneSide := by
    cases side with
    | credit => exact .inr ⟨rfl, hamount⟩
    | debit => exact .inl ⟨hamount, rfl⟩

/-- The other side. -/
def Direction.opposite : Direction → Direction
  | credit => .debit
  | debit => .credit

/-- The two balances that an entry keeps, as `numeric(18,2)`. -/
def requireBalances (balanceBefore balanceAfter : ℤ) : EStateM Failure Books Unit :=
  require (Fits 18 balanceBefore ∧ Fits 18 balanceAfter) overflow

def Books.enter (books : Books) (first second : ℕ → Entry) (hfirst : ∀ n, (first n).id = n)
    (hsecond : ∀ n, (second n).id = n) : Books :=
  { books with entries := (books.entries.append first hfirst).append second hsecond }

/-- Insert the two entries of a request.  The asset is debited where the contra account
is credited. -/
def insertEntries (request : FundingRequest) (transactionId : ℤ) (journal : ℕ) (contra : Contra)
    (balanceBefore balanceAfter : ℤ) (source sourceBefore sourceAfter : ℤ) :
    EStateM Failure Books Unit := do
  let books ← get
  let asset ← orThrow (books.categories "SAFEGUARDING_ASSET")
    (.internal "null value violates a not-null constraint")
  let liability ← orThrow (books.categories contra.category)
    (.internal "null value violates a not-null constraint")
  requireBalances balanceBefore balanceAfter
  requireBalances sourceBefore sourceAfter
  if hamount : 0 < request.amount then
    set (books.enter
      (request.entry hamount request.direction.opposite transactionId asset
        request.walletMsisdn journal 1 balanceBefore balanceAfter)
      (request.entry hamount request.direction transactionId liability source journal 2
        sourceBefore sourceAfter) (fun _ => rfl) fun _ => rfl)
  else throw (.internal "new row violates a check constraint")

/-- The contra movement and the journal of a safeguarding request. -/
def postSafeguarding (request : FundingRequest) (transactionId : ℤ) (actor : Administrator)
    (balanceBefore balanceAfter : ℤ) : EStateM Failure Books ℕ := do
  let contra ← orThrow request.classification.contra?
    (.conflict "The safeguarding funding classification is invalid")
  let books ← get
  let sources := books.systemWallets contra.walletCode request.currency.toUpper
  let words := request.classification.words
  let source ← orThrow sources.head? (.conflict
    ("Exactly one " ++ words ++ " control account is required for " ++ request.currency))
  require (sources.length = 1) (.conflict
    ("Exactly one " ++ words ++ " control account is required for " ++ request.currency))
  require (¬ (request.direction = .debit ∧ toNumber source.amount < toNumber request.amount))
    (.conflict ("Insufficient " ++ words ++ " balance for " ++ request.currency))
  let sourceAfter ← moveWallet source.walletMsisdn request.direction request.amount transactionId
    actor (.internal "Treasury funding source update did not return its resulting balance")
  let journal ← insertJournal request transactionId
  insertEntries request transactionId journal contra balanceBefore balanceAfter
    source.walletMsisdn source.amount sourceAfter
  pure journal

/-- `accountingJournalId`: only safeguarding movements have a journal. -/
def accountingJournal (request : FundingRequest) (transactionId : ℤ) (actor : Administrator)
    (balanceBefore balanceAfter : ℤ) : EStateM Failure Books (Option ℕ) :=
  if request.fundingType = .safeguarding then
    some <$> postSafeguarding request transactionId actor balanceBefore balanceAfter
  else pure none

/-- `treasuryTransactionId`. -/
def treasuryTransactionId (request : FundingRequest) : ℤ :=
  -(7 * 10 ^ 17 + request.id)

def FundingRequest.audit (request : FundingRequest) (wallet : Wallet) (balanceAfter : ℤ)
    (actor : Administrator) : WalletAudit where
  walletMsisdn := request.walletMsisdn
  ownerMsisdn := wallet.ownerMsisdn
  operation := if request.direction = .credit then .treasuryFunding else .treasuryWithdrawal
  previousBalance := wallet.amount
  newBalance := balanceAfter
  actor := actor
  correlationId := request.reference

def Books.record (books : Books) (audit : WalletAudit) : Books :=
  { books with audits := books.audits ++ [audit] }

def insertAudit (audit : WalletAudit) : EStateM Failure Books Unit := do
  let books ← get
  set (books.record audit)

/-- What an approval makes of a request. -/
def FundingRequest.approved (request : FundingRequest) (actor : Administrator) (comment : String)
    (balanceBefore balanceAfter : ℤ) (journal : Option ℕ) : FundingRequest :=
  { request with
    status := .approved
    checker := some actor
    checkerComment := if comment = "" then none else some comment
    walletBalanceBefore := some balanceBefore
    walletBalanceAfter := some balanceAfter
    accountingJournalId := journal }

/-- The approving half of `reviewTreasuryFunding`. -/
def approveFunding (request : FundingRequest) (idLength : ℕ) (comment : String)
    (actor : Administrator) : EStateM Failure Books FundingRequest := do
  let books ← get
  let wallet ← orThrow (books.wallets.find? request.walletMsisdn)
    (.conflict "The target system wallet is not active")
  require (wallet.status.getD 0 = 0) (.conflict "The target system wallet is not active")
  require (idLength ≤ 17)
    (.internal "Treasury request identifier exceeds the accounting namespace")
  let insufficient : Failure :=
    .conflict ("Insufficient " ++ request.fundingType.words ++ " balance")
  require (¬ (request.direction = .debit ∧ toNumber wallet.amount < toNumber request.amount))
    insufficient
  let balance ← moveWallet request.walletMsisdn request.direction request.amount
    (treasuryTransactionId request) actor insufficient
  let journal ← accountingJournal request (treasuryTransactionId request) actor wallet.amount
    balance
  let approved ← writeRequest (request.approved actor comment wallet.amount balance journal)
  insertAudit (request.audit wallet balance actor)
  pure approved

/-- What a rejection makes of a request. -/
def FundingRequest.rejected (request : FundingRequest) (actor : Administrator)
    (comment : String) : FundingRequest :=
  { request with
    status := .rejected
    checker := some actor
    checkerComment := some comment }

/-- The transaction of `reviewTreasuryFunding`. -/
def reviewFunding (id : ℕ) (idLength : ℕ) (action : ReviewAction) (comment : String)
    (actor : Administrator) : EStateM Failure Books FundingRequest := do
  requireBigint id
  let books ← get
  let request ← orThrow (books.requests.find? id)
    (.notFound "Treasury movement request was not found")
  require (request.status = .pending)
    (.conflict ("Treasury movement request is already " ++ request.status.text))
  require (request.maker.sameAs actor = false)
    (.badRequest "Maker cannot approve or reject their own treasury movement")
  match action with
  | .reject => writeRequest (request.rejected actor comment)
  | .approve => approveFunding request idLength comment actor

def reviewTreasuryFunding (id : String) (action : ReviewAction) (comment : String)
    (actor : Administrator) : EStateM Failure Books FundingRequest := do
  let value ← orThrow (number? id) (.badRequest "Invalid treasury movement request")
  require (action = .reject → 3 ≤ textLength comment)
    (.badRequest "A rejection reason is required")
  atomically (reviewFunding value id.length action comment actor)

/-! ## Calls -/

/-- A call of one of the two. -/
inductive Call
  | create (body : FundingBody) (actor : Administrator)
  | review (id : String) (action : ReviewAction) (comment : String) (actor : Administrator)

/-- Both give the row that they have written. -/
def Call.perform : Call → EStateM Failure Books FundingRequest
  | .create body actor => createTreasuryFunding body actor
  | .review id action comment actor => reviewTreasuryFunding id action comment actor

end Finify.Treasury
