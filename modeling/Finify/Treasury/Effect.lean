/-
# What treasury calls do

Each operation on the books is read back once, from the lowest up: an update of a
wallet, the contra posting, an approval.  A call that ends well has one of three
effects, and later proofs go by these.
-/

import Finify.Treasury.Funding

namespace Finify.Treasury

open Finify.Foundations
open Finify.Posting (Entry)
open Finify.Pricing (Administrator)

variable {before after : Books}

/-! ## Creating -/

theorem checkDocument_reading {document : Option ℕ} {actor : Administrator} :
    Reading (checkDocument document actor) := by
  cases document with
  | none => exact .pure
  | some id =>
    exact .bind .require fun _ => .bind .get fun _ => .bind .orThrow fun _ =>
      .bind .require fun _ => .require

theorem FundingBody.classification_reading {body : FundingBody} {operation : FundingOperation} :
    Reading (body.classification operation) := by
  unfold FundingBody.classification
  split
  case isTrue => exact .orThrow
  case isFalse => exact .bind .require fun _ => .pure

theorem FundingBody.documentId_reading {body : FundingBody} : Reading body.documentId := by
  unfold FundingBody.documentId
  split
  case isTrue => exact .pure
  case isFalse => exact .map .orThrow

theorem FundingBody.checked_reading {body : FundingBody} : Reading body.checked :=
  .bind .orThrow fun _ => .bind FundingBody.classification_reading fun _ =>
    .bind .require fun _ => .bind .orThrow fun _ => .bind .require fun _ =>
    .bind .require fun _ => .bind .require fun _ => .bind .require fun _ =>
    .bind .require fun _ => .bind .require fun _ =>
    .bind FundingBody.documentId_reading fun _ => .bind .require fun _ => .pure

theorem Books.mem_systemWallets {books : Books} {code : ℤ} {currency : String} {wallet : Wallet} :
    wallet ∈ books.systemWallets code currency ↔
      wallet ∈ books.wallets.rows ∧ wallet.isSystem ∧ wallet.walletCode = code ∧
        wallet.currency.toUpper = currency ∧ wallet.status = some 0 := by
  simp [Books.systemWallets]

/-- A new request is on a system wallet of its code and currency. -/
theorem openFunding_returns {funding : NewFunding} {maker : Administrator}
    {row : FundingRequest} (hreturns : Returns (openFunding funding maker) before row after) :
    ∃ wallet ∈ before.wallets.rows, wallet.walletCode = funding.operation.walletCode ∧
      wallet.currency = funding.currency ∧
      row = funding.request wallet maker before.requests.next ∧ row.Checked ∧
      after = before.open funding wallet maker := by
  simp only [openFunding, Returns.bind_iff, Returns.get_iff, Returns.orThrow_iff,
    Returns.require_iff, Returns.set_iff, Returns.pure_iff] at hreturns
  obtain ⟨_, _, hdocument, _, _, ⟨rfl, rfl⟩, wallet, _, ⟨hhead, rfl⟩, _, _, ⟨_, rfl⟩, _, _, ⟨_, rfl⟩,
    _, _, ⟨_, rfl⟩, _, _, ⟨hchecked, rfl⟩, _, _, rfl, rfl, rfl⟩ := hreturns
  obtain rfl := checkDocument_reading.returns _ _ _ hdocument
  obtain ⟨hmem, _, hcode, hcurrency, _⟩ :=
    Books.mem_systemWallets.mp (List.mem_of_head? hhead)
  exact ⟨wallet, hmem, hcode, wallet.currency_upper.symm.trans hcurrency, rfl, hchecked, rfl⟩

/-! ## Writing -/

theorem writeRequest_returns {request row : FundingRequest}
    (hreturns : Returns (writeRequest request) before row after) :
    row = request ∧ request.Checked ∧ after = before.write request := by
  simp only [writeRequest, Returns.bind_iff, Returns.get_iff, Returns.require_iff,
    Returns.set_iff, Returns.pure_iff] at hreturns
  obtain ⟨_, _, ⟨rfl, rfl⟩, _, _, ⟨hchecked, rfl⟩, _, _, ⟨_, rfl⟩, _, _, rfl, rfl, rfl⟩ := hreturns
  exact ⟨rfl, hchecked, rfl⟩

/-- A movement takes place on a wallet that can bear it. -/
theorem moveWallet_returns {walletMsisdn : ℤ} {direction : Direction}
    {amount transactionId : ℤ} {actor : Administrator} {refusal : Failure} {balance : ℤ}
    (hreturns : Returns
      (moveWallet walletMsisdn direction amount transactionId actor refusal) before balance after) :
    ∃ wallet, before.wallets.find? walletMsisdn = some wallet ∧
      (direction = .credit ∨ amount ≤ wallet.amount) ∧
      balance = wallet.amount + direction.signed amount ∧
      after = before.move walletMsisdn direction amount transactionId actor := by
  simp only [moveWallet, Returns.bind_iff, Returns.get_iff, Returns.orThrow_iff,
    Returns.require_iff, Returns.set_iff, Returns.pure_iff] at hreturns
  obtain ⟨_, _, ⟨rfl, rfl⟩, wallet, _, ⟨hfind, rfl⟩, _, _, ⟨hcovered, rfl⟩, _, _, ⟨_, rfl⟩, _, _, rfl,
    rfl, rfl⟩ := hreturns
  exact ⟨wallet, hfind, hcovered, rfl, rfl⟩

/-- The journal of a request and its two entries. -/
structure Posting where
  request : FundingRequest
  amount_pos : 0 < request.amount
  transactionId : ℤ
  asset : ℤ
  liability : ℤ
  balanceBefore : ℤ
  balanceAfter : ℤ
  source : ℤ
  sourceBefore : ℤ
  sourceAfter : ℤ

namespace Posting

/-- The entry on the safeguarding wallet. -/
def first (posting : Posting) (journal : ℕ) : ℕ → Entry :=
  posting.request.entry posting.amount_pos posting.request.direction.opposite
    posting.transactionId posting.asset posting.request.walletMsisdn journal 1
    posting.balanceBefore posting.balanceAfter

/-- The entry on the contra wallet. -/
def second (posting : Posting) (journal : ℕ) : ℕ → Entry :=
  posting.request.entry posting.amount_pos posting.request.direction posting.transactionId
    posting.liability posting.source journal 2 posting.sourceBefore posting.sourceAfter

/-- The books with the contra movement, the journal and its entries. -/
def apply (posting : Posting) (books : Books) (actor : Administrator) : Books :=
  ((books.move posting.source posting.request.direction posting.request.amount
      posting.transactionId actor).post posting.request posting.transactionId).enter
    (posting.first books.journals.next) (posting.second books.journals.next)
    (fun _ => rfl) fun _ => rfl

end Posting

theorem insertJournal_returns {request : FundingRequest} {transactionId : ℤ} {journal : ℕ}
    (hreturns : Returns (insertJournal request transactionId) before journal after) :
    journal = before.journals.next ∧ after = before.post request transactionId := by
  simp only [insertJournal, Returns.bind_iff, Returns.get_iff, Returns.require_iff,
    Returns.set_iff, Returns.pure_iff] at hreturns
  obtain ⟨_, _, ⟨rfl, rfl⟩, _, _, ⟨_, rfl⟩, _, _, rfl, rfl, rfl⟩ := hreturns
  exact ⟨rfl, rfl⟩

theorem insertEntries_returns {request : FundingRequest} {transactionId : ℤ} {journal : ℕ}
    {contra : Contra} {balanceBefore balanceAfter source sourceBefore sourceAfter : ℤ}
    {result : Unit}
    (hreturns : Returns (insertEntries request transactionId journal contra balanceBefore
      balanceAfter source sourceBefore sourceAfter) before result after) :
    ∃ (asset liability : ℤ) (hamount : 0 < request.amount),
      after = before.enter
        (request.entry hamount request.direction.opposite transactionId asset
          request.walletMsisdn journal 1 balanceBefore balanceAfter)
        (request.entry hamount request.direction transactionId liability source journal 2
          sourceBefore sourceAfter) (fun _ => rfl) fun _ => rfl := by
  simp only [insertEntries, requireBalances, Returns.bind_iff, Returns.get_iff,
    Returns.orThrow_iff, Returns.require_iff] at hreturns
  obtain ⟨_, _, ⟨rfl, rfl⟩, asset, _, ⟨_, rfl⟩, liability, _, ⟨_, rfl⟩, _, _, ⟨_, rfl⟩, _, _,
    ⟨_, rfl⟩, hset⟩ := hreturns
  split at hset
  case isTrue hamount => exact ⟨asset, liability, hamount, Returns.set_iff.mp hset⟩
  case isFalse => exact absurd hset Returns.throw_iff

/-- The contra wallet has the code of the classification, the currency of the request,
and the means for the movement. -/
structure Posting.Fitting (posting : Posting) (books : Books) : Prop where
  wallet : ∃ wallet ∈ books.wallets.rows, ∃ contra,
    posting.request.classification.contra? = some contra ∧
      wallet.walletMsisdn = posting.source ∧ wallet.walletCode = contra.walletCode ∧
      wallet.currency = posting.request.currency.toUpper ∧
      wallet.amount = posting.sourceBefore
  covered : posting.request.direction = .credit ∨
    posting.request.amount ≤ posting.sourceBefore
  after : posting.sourceAfter =
    posting.sourceBefore + posting.request.direction.signed posting.request.amount

theorem postSafeguarding_returns {request : FundingRequest} {transactionId : ℤ}
    {actor : Administrator} {balanceBefore balanceAfter : ℤ} {journal : ℕ}
    (hreturns : Returns (postSafeguarding request transactionId actor balanceBefore balanceAfter)
      before journal after) :
    ∃ posting : Posting, posting.request = request ∧ posting.transactionId = transactionId ∧
      posting.balanceBefore = balanceBefore ∧ posting.balanceAfter = balanceAfter ∧
      posting.Fitting before ∧ journal = before.journals.next ∧
      after = posting.apply before actor := by
  simp only [postSafeguarding, Returns.bind_iff, Returns.get_iff, Returns.orThrow_iff,
    Returns.require_iff, Returns.pure_iff] at hreturns
  obtain ⟨contra, _, ⟨hcontra, rfl⟩, _, _, ⟨rfl, rfl⟩, source, _, ⟨hhead, rfl⟩, _, _, ⟨_, rfl⟩, _, _,
    ⟨_, rfl⟩, sourceAfter, _, hmove, _, _, hjournal, _, _, hentries, rfl, rfl⟩ := hreturns
  obtain ⟨hmem, _, hcode, hcurrency, _⟩ :=
    Books.mem_systemWallets.mp (List.mem_of_head? hhead)
  obtain ⟨found, hfind, hcovered, rfl, rfl⟩ := moveWallet_returns hmove
  obtain rfl : source = found := by
    rw [Table.find?_key hmem] at hfind
    exact Option.some.inj hfind
  obtain ⟨rfl, rfl⟩ := insertJournal_returns hjournal
  obtain ⟨asset, liability, hamount, rfl⟩ := insertEntries_returns hentries
  refine ⟨⟨request, hamount, transactionId, asset, liability, balanceBefore, balanceAfter,
    source.walletMsisdn, source.amount, _⟩, rfl, rfl, rfl, rfl, ⟨?_, hcovered, rfl⟩, rfl, rfl⟩
  exact ⟨source, hmem, contra, hcontra, rfl, hcode, source.currency_upper.symm.trans hcurrency, rfl⟩

/-! ## Approving -/

/-- The effects that an approval can have.  Safeguarding is posted, other movements are
not. -/
inductive Approves (before : Books) (request : FundingRequest) (checker : Administrator) :
    FundingRequest → Books → Prop
  | plain {wallet : Wallet} {comment : String}
      (hwallet : before.wallets.find? request.walletMsisdn = some wallet)
      (hcovered : request.direction = .credit ∨ request.amount ≤ wallet.amount)
      (htype : request.fundingType ≠ .safeguarding) :
      Approves before request checker
        (request.approved checker comment wallet.amount
          (wallet.amount + request.direction.signed request.amount) none)
        (((before.move request.walletMsisdn request.direction request.amount
            (treasuryTransactionId request) checker).write
          (request.approved checker comment wallet.amount
            (wallet.amount + request.direction.signed request.amount) none)).record
          (request.audit wallet (wallet.amount + request.direction.signed request.amount) checker))
  | posted {wallet : Wallet} {comment : String} {posting : Posting}
      (hwallet : before.wallets.find? request.walletMsisdn = some wallet)
      (hcovered : request.direction = .credit ∨ request.amount ≤ wallet.amount)
      (htype : request.fundingType = .safeguarding)
      (hrequest : posting.request = request)
      (hbefore : posting.balanceBefore = wallet.amount)
      (hafter : posting.balanceAfter = wallet.amount + request.direction.signed request.amount)
      (hfitting : posting.Fitting (before.move request.walletMsisdn request.direction
        request.amount (treasuryTransactionId request) checker)) :
      Approves before request checker
        (request.approved checker comment wallet.amount
          (wallet.amount + request.direction.signed request.amount) (some before.journals.next))
        (((posting.apply (before.move request.walletMsisdn request.direction request.amount
            (treasuryTransactionId request) checker) checker).write
          (request.approved checker comment wallet.amount
            (wallet.amount + request.direction.signed request.amount)
            (some before.journals.next))).record
          (request.audit wallet (wallet.amount + request.direction.signed request.amount) checker))

theorem approveFunding_returns {request row : FundingRequest} {idLength : ℕ} {comment : String}
    {checker : Administrator}
    (hreturns : Returns (approveFunding request idLength comment checker) before row after) :
    Approves before request checker row after ∧ row.Checked := by
  simp only [approveFunding, insertAudit, Returns.bind_iff, Returns.get_iff,
    Returns.orThrow_iff, Returns.require_iff, Returns.set_iff, Returns.pure_iff] at hreturns
  obtain ⟨_, _, ⟨rfl, rfl⟩, wallet, _, ⟨hwallet, rfl⟩, _, _, ⟨_, rfl⟩, _, _, ⟨_, rfl⟩, _, _, ⟨_, rfl⟩,
    balance, _, hmove, journal, _, hjournal, _, _, hwrite, _, _, ⟨_, _, ⟨rfl, rfl⟩, rfl⟩, rfl, rfl⟩ :=
    hreturns
  obtain ⟨found, hfound, hcovered, rfl, rfl⟩ := moveWallet_returns hmove
  obtain rfl : wallet = found := Option.some.inj (hwallet.symm.trans hfound)
  obtain ⟨rfl, hchecked, rfl⟩ := writeRequest_returns hwrite
  refine ⟨?_, hchecked⟩
  unfold accountingJournal at hjournal
  split at hjournal
  case isFalse htype =>
    obtain ⟨rfl, rfl⟩ := Returns.pure_iff.mp hjournal
    exact .plain hwallet hcovered htype
  case isTrue htype =>
    obtain ⟨_, hposted, rfl⟩ := Returns.map_iff.mp hjournal
    obtain ⟨posting, hrequest, _, hbefore, hafter, hfitting, rfl, rfl⟩ :=
      postSafeguarding_returns hposted
    exact .posted hwallet hcovered htype hrequest hbefore hafter hfitting

/-! ## Calls -/

/-- The effects that a call that ends well can have. -/
inductive Books.Effect (before : Books) : Call → FundingRequest → Books → Prop
  | opened {body : FundingBody} {maker : Administrator} {funding : NewFunding} {wallet : Wallet}
      (hwallet : wallet ∈ before.wallets.rows)
      (hcode : wallet.walletCode = funding.operation.walletCode)
      (hcurrency : wallet.currency = funding.currency)
      (hchecked : (funding.request wallet maker before.requests.next).Checked) :
      Effect before (.create body maker) (funding.request wallet maker before.requests.next)
        (before.open funding wallet maker)
  | rejected {id comment : String} {checker : Administrator} {request : FundingRequest}
      (hrequest : request ∈ before.requests.rows) (hpending : request.status = .pending)
      (hchecked : (request.rejected checker comment).Checked) :
      Effect before (.review id .reject comment checker) (request.rejected checker comment)
        (before.write (request.rejected checker comment))
  | approved {id comment : String} {checker : Administrator} {request row : FundingRequest}
      {after : Books} (hrequest : request ∈ before.requests.rows)
      (hpending : request.status = .pending) (hmaker : request.maker.sameAs checker = false)
      (happroves : Approves before request checker row after) (hchecked : row.Checked) :
      Effect before (.review id .approve comment checker) row after

theorem reviewFunding_returns {id : String} {value idLength : ℕ} {action : ReviewAction}
    {comment : String} {checker : Administrator} {row : FundingRequest}
    (hreturns : Returns (reviewFunding value idLength action comment checker) before row after) :
    before.Effect (.review id action comment checker) row after := by
  simp only [reviewFunding, requireBigint, Returns.bind_iff, Returns.get_iff,
    Returns.orThrow_iff, Returns.require_iff] at hreturns
  obtain ⟨_, _, ⟨_, rfl⟩, _, _, ⟨rfl, rfl⟩, request, _, ⟨hfind, rfl⟩, _, _, ⟨hpending, rfl⟩, _, _,
    ⟨hmaker, rfl⟩, hwrite⟩ := hreturns
  have hmem := (Log.find?_eq_some.mp hfind).1
  cases action with
  | reject =>
    obtain ⟨rfl, hchecked, rfl⟩ := writeRequest_returns hwrite
    exact .rejected hmem hpending hchecked
  | approve =>
    obtain ⟨happroves, hchecked⟩ := approveFunding_returns hwrite
    exact .approved hmem hpending hmaker happroves hchecked

theorem Call.perform_effect {call : Call} {row : FundingRequest}
    (hreturns : Returns call.perform before row after) : before.Effect call row after := by
  cases call with
  | create body maker =>
    simp only [Call.perform, createTreasuryFunding, Returns.bind_iff,
      Returns.atomically_iff] at hreturns
    obtain ⟨funding, _, hchecked, hopen⟩ := hreturns
    obtain rfl := FundingBody.checked_reading.returns _ _ _ hchecked
    obtain ⟨wallet, hwallet, hcode, hcurrency, rfl, hchecked, rfl⟩ := openFunding_returns hopen
    exact .opened hwallet hcode hcurrency hchecked
  | review id action comment checker =>
    simp only [Call.perform, reviewTreasuryFunding, Returns.bind_iff, Returns.orThrow_iff,
      Returns.require_iff, Returns.atomically_iff] at hreturns
    obtain ⟨_, _, ⟨_, rfl⟩, _, _, ⟨_, rfl⟩, hreview⟩ := hreturns
    exact reviewFunding_returns hreview

end Finify.Treasury
