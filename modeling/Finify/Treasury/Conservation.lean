/-
# Treasury movements conserve

A run of calls approves each request at most once, by another administrator than its
maker.  Every approval moves the wallets it names by exactly the amount, the balances
it records chain to those of the wallets, its journal balances in the one currency of
its wallets, and a call that fails changes nothing.
-/

import Finify.Foundations.Trail
import Finify.Treasury.Effect

namespace Finify.Treasury

open Finify.Foundations
open Finify.Posting (Entry)
open Finify.Pricing (Administrator)

/-! ## What the books keep -/

/-- No wallet is in debt, every request keeps the checks of its table and is on a wallet
of its code and currency, and every entry belongs to a journal. -/
structure Books.Kept (books : Books) : Prop where
  nonneg : ∀ wallet ∈ books.wallets.rows, 0 ≤ wallet.amount
  checked : ∀ request ∈ books.requests.rows, request.Checked
  target : ∀ request ∈ books.requests.rows, ∃ wallet ∈ books.wallets.rows,
    wallet.walletMsisdn = request.walletMsisdn ∧ wallet.walletCode = request.walletCode ∧
      wallet.currency = request.currency
  entries : ∀ entry ∈ books.entries.rows, entry.journalId < books.journals.next

/-- Books without requests whose wallets are not in debt. -/
structure Books.Opening (books : Books) : Prop where
  requests : books.requests.rows = []
  nonneg : ∀ wallet ∈ books.wallets.rows, 0 ≤ wallet.amount
  entries : ∀ entry ∈ books.entries.rows, entry.journalId < books.journals.next

theorem Books.Opening.kept {books : Books} (hopening : books.Opening) : books.Kept where
  nonneg := hopening.nonneg
  checked := by simp [hopening.requests]
  target := by simp [hopening.requests]
  entries := hopening.entries

/-- A journal has entries, which balance, in its currency and that of their wallets. -/
structure Books.Balanced (books : Books) (journal : Journal) : Prop where
  posted : books.entriesOf journal.id ≠ []
  sides : ((books.entriesOf journal.id).map Entry.debit).sum =
    ((books.entriesOf journal.id).map Entry.credit).sum
  currency : ∀ entry ∈ books.entriesOf journal.id, entry.currency = journal.currency ∧
    ∃ wallet ∈ books.wallets.rows, wallet.walletMsisdn = entry.accountNumber ∧
      wallet.currency = journal.currency

/-! ## One movement -/

section Move

variable {books : Books} {walletMsisdn : ℤ} {direction : Direction}
  {amount transactionId : ℤ} {actor : Administrator}

theorem Books.balance_move (other : ℤ) :
    (books.move walletMsisdn direction amount transactionId actor).balance other =
      if other = walletMsisdn then (books.balance other).map (· + direction.signed amount)
      else books.balance other := by
  unfold Books.balance Books.move
  rw [Table.find?_modify]
  split
  case isTrue => simp [Function.comp_def, Wallet.moved]
  case isFalse => rfl

/-- Wallets keep their number, code and currency. -/
theorem Books.wallet_move {wallet : Wallet} (hwallet : wallet ∈ books.wallets.rows) :
    ∃ moved ∈ (books.move walletMsisdn direction amount transactionId actor).wallets.rows,
      moved.walletMsisdn = wallet.walletMsisdn ∧ moved.walletCode = wallet.walletCode ∧
        moved.currency = wallet.currency := by
  refine ⟨_, List.mem_map_of_mem hwallet, ?_⟩
  split <;> exact ⟨rfl, rfl, rfl⟩

/-- Where the wallet can bear the movement, no wallet gets into debt. -/
theorem Books.nonneg_move (hnonneg : ∀ wallet ∈ books.wallets.rows, 0 ≤ wallet.amount)
    {wallet : Wallet} (hfind : books.wallets.find? walletMsisdn = some wallet)
    (hamount : 0 < amount) (hcovered : direction = .credit ∨ amount ≤ wallet.amount) :
    ∀ moved ∈ (books.move walletMsisdn direction amount transactionId actor).wallets.rows,
      0 ≤ moved.amount := by
  intro moved hmoved
  obtain ⟨old, hold, rfl⟩ := List.mem_map.mp hmoved
  have holdNonneg := hnonneg old hold
  split
  case isFalse => exact holdNonneg
  case isTrue hkey =>
    obtain rfl : wallet = old := by
      rw [← hkey, Table.find?_key hold] at hfind
      exact (Option.some.inj hfind).symm
    show 0 ≤ wallet.amount + direction.signed amount
    cases direction with
    | credit => exact add_nonneg holdNonneg hamount.le
    | debit =>
      have hle := hcovered.resolve_left fun h => by cases h
      exact sub_nonneg.mpr hle

end Move

/-- The contra wallet, as the table has it. -/
theorem Posting.Fitting.find? {posting : Posting} {books : Books}
    (hfitting : posting.Fitting books) : ∃ wallet ∈ books.wallets.rows,
      books.wallets.find? posting.source = some wallet ∧ wallet.amount = posting.sourceBefore := by
  obtain ⟨wallet, hmem, _, _, hkey, _, _, hamount⟩ := hfitting.wallet
  exact ⟨wallet, hmem, Table.find?_eq_some.mpr ⟨hmem, hkey⟩, hamount⟩

theorem Classification.contra?_walletCode {classification : Classification} {contra : Contra}
    (hcontra : classification.contra? = some contra) : contra.walletCode ≠ 110 := by
  cases classification <;> cases hcontra <;> decide

theorem FundingRequest.Checked.walletCode {request : FundingRequest} (hchecked : request.Checked)
    (htype : request.fundingType = .safeguarding) : request.walletCode = 110 := by
  rcases hchecked.target with ⟨_, h | h⟩ | ⟨_, h | h⟩
  · exact h.2
  · rw [htype] at h
    cases h.1
  · exact h.2
  · rw [htype] at h
    cases h.1

/-- The contra wallet of a posting is another than the wallet of its request. -/
theorem Books.Kept.source_ne {books : Books} (hkept : books.Kept) {posting : Posting}
    (hrequest : posting.request ∈ books.requests.rows)
    (htype : posting.request.fundingType = .safeguarding) {direction : Direction}
    {walletMsisdn amount transactionId : ℤ} {actor : Administrator}
    (hfitting : posting.Fitting (books.move walletMsisdn direction amount transactionId actor)) :
    posting.source ≠ posting.request.walletMsisdn := by
  intro hsame
  obtain ⟨wallet, hwallet, hkey, hcode, _⟩ := hkept.target _ hrequest
  have hkeeps : ∃ moved ∈ (books.move walletMsisdn direction amount transactionId
      actor).wallets.rows, _ := Books.wallet_move hwallet
  obtain ⟨moved, hmoved, hmovedKey, hmovedCode, _⟩ := hkeeps
  obtain ⟨source, hsource, contra, hcontra, hsourceKey, hsourceCode, _⟩ := hfitting.wallet
  obtain rfl : moved = source := Table.eq_of_key_eq _ hmoved hsource (by
    rw [hmovedKey, hkey, hsourceKey, hsame])
  apply Classification.contra?_walletCode hcontra
  rw [← hsourceCode, hmovedCode, hcode]
  exact (hkept.checked _ hrequest).walletCode htype

/-! ## A posting -/

namespace Posting

variable (posting : Posting) {books : Books} (actor : Administrator)

theorem rows_apply : (posting.apply books actor).entries.rows =
    books.entries.rows ++ [posting.first books.journals.next books.entries.next,
      posting.second books.journals.next (books.entries.next + 1)] := by
  show (books.entries.rows ++ [_]) ++ [_] = _
  rw [List.append_assoc]
  rfl

/-- The new journal has the two entries. -/
theorem entriesOf_apply (hentries : ∀ entry ∈ books.entries.rows,
      entry.journalId < books.journals.next) :
    (posting.apply books actor).entriesOf books.journals.next =
      [posting.first books.journals.next books.entries.next,
        posting.second books.journals.next (books.entries.next + 1)] := by
  unfold Books.entriesOf
  rw [rows_apply, List.filter_append, List.filter_eq_nil_iff.mpr, List.nil_append]
  · exact List.filter_eq_self.mpr (by simp [first, second, FundingRequest.entry])
  · intro entry hentry hjournal
    exact (hentries entry hentry).ne (of_decide_eq_true hjournal)

/-- The other journals have the entries they had. -/
theorem entriesOf_apply_of_ne {journal : ℕ} (hne : journal ≠ books.journals.next) :
    (posting.apply books actor).entriesOf journal = books.entriesOf journal := by
  unfold Books.entriesOf
  rw [rows_apply, List.filter_append]
  refine (congrArg _ (List.filter_eq_nil_iff.mpr ?_)).trans (List.append_nil _)
  intro entry hentry hjournal
  have hnew : entry.journalId = books.journals.next := by
    rcases List.mem_pair.mp hentry with rfl | rfl
    · rfl
    · rfl
  exact hne ((of_decide_eq_true hjournal).symm.trans hnew)

theorem balance_apply (other : ℤ) : (posting.apply books actor).balance other =
    if other = posting.source then
      (books.balance other).map (· + posting.request.direction.signed posting.request.amount)
    else books.balance other :=
  Books.balance_move other

end Posting

/-! ## What an approval does -/

/-- A change of a balance that the books have kept. -/
structure Movement where
  wallet : ℤ
  before : ℤ
  after : ℤ
  deriving DecidableEq

/-- The movement takes the one balance to the other. -/
def Movement.Links (first : ℤ) (movement : Movement) (last : ℤ) : Prop :=
  movement.before = first ∧ movement.after = last

/-- The movement that two recorded balances stand for. -/
def movement? (wallet : ℤ) (before after : Option ℤ) : Option Movement := do
  let first ← before
  let last ← after
  pure ⟨wallet, first, last⟩

/-- What an approved request has recorded: its own balances, and those of the contra
entry of its journal. -/
def movementsOf (books : Books) (row : FundingRequest) : List Movement :=
  (movement? row.walletMsisdn row.walletBalanceBefore row.walletBalanceAfter).toList ++
    ((row.accountingJournalId.toList.flatMap books.entriesOf).filter
      fun entry => entry.lineNumber = 2).filterMap
        fun entry => movement? entry.accountNumber entry.balanceBefore entry.balanceAfter

/-- The wallets change by exactly the amount, and as recorded. -/
structure Conserves (before after : Books) (row : FundingRequest) : Prop where
  own : ∃ first last, row.walletBalanceBefore = some first ∧ row.walletBalanceAfter = some last ∧
    ⟨row.walletMsisdn, first, last⟩ ∈ movementsOf after row
  contra : row.fundingType = .safeguarding → ∃ movement ∈ movementsOf after row,
    ∃ wallet ∈ after.wallets.rows, ∃ contra, row.classification.contra? = some contra ∧
      wallet.walletMsisdn = movement.wallet ∧ wallet.walletCode = contra.walletCode
  distinct : ((movementsOf after row).map Movement.wallet).Nodup
  amounts : ∀ movement ∈ movementsOf after row,
    before.balance movement.wallet = some movement.before ∧
      after.balance movement.wallet = some movement.after ∧
      movement.after = movement.before + row.direction.signed row.amount
  others : ∀ wallet, wallet ∉ (movementsOf after row).map Movement.wallet →
    after.balance wallet = before.balance wallet

theorem Books.balance_of_find? {books : Books} {key : ℤ} {wallet : Wallet}
    (hfind : books.wallets.find? key = some wallet) : books.balance key = some wallet.amount :=
  congrArg (Option.map Wallet.amount) hfind

def FundingRequest.movement (request : FundingRequest) (balance : ℤ) : Movement :=
  ⟨request.walletMsisdn, balance, balance + request.direction.signed request.amount⟩

/-- The movement on the contra wallet. -/
def Posting.movement (posting : Posting) : Movement :=
  ⟨posting.source, posting.sourceBefore, posting.sourceAfter⟩

theorem Books.balance_move_self {books : Books} {request : FundingRequest} {balance : ℤ}
    (hbalance : books.balance request.walletMsisdn = some balance) {transactionId : ℤ}
    {actor : Administrator} :
    (books.move request.walletMsisdn request.direction request.amount transactionId
      actor).balance request.walletMsisdn = some (request.movement balance).after := by
  rw [Books.balance_move, if_pos rfl, hbalance]
  rfl

section Approves

variable {before after : Books} {request row : FundingRequest} {checker : Administrator}

/-- Without a posting, only the wallet of the request moves. -/
theorem conserves_plain {wallet : Wallet} {comment : String}
    (hwallet : before.wallets.find? request.walletMsisdn = some wallet)
    (htype : request.fundingType ≠ .safeguarding)
    (hrow : row = request.approved checker comment wallet.amount
      (request.movement wallet.amount).after none)
    (hafter : ∀ other, after.balance other = (before.move request.walletMsisdn request.direction
      request.amount (treasuryTransactionId request) checker).balance other) :
    Conserves before after row := by
  have hbalance := Books.balance_of_find? hwallet
  have hmovements : movementsOf after row = [request.movement wallet.amount] := by
    rw [hrow]
    rfl
  have hwallets : (movementsOf after row).map Movement.wallet = [request.walletMsisdn] := by
    rw [hmovements]
    rfl
  subst hrow
  refine ⟨⟨_, _, rfl, rfl, hmovements ▸ List.mem_singleton_self _⟩, fun h => absurd h htype,
    hwallets ▸ List.nodup_singleton _, ?_, ?_⟩
  · intro movement hmovement
    rw [hmovements] at hmovement
    obtain rfl := List.mem_singleton.mp hmovement
    exact ⟨hbalance, (hafter _).trans (Books.balance_move_self hbalance), rfl⟩
  · intro other hother
    rw [hwallets, List.mem_singleton] at hother
    rw [hafter, Books.balance_move, if_neg hother]

/-- With a posting, its contra wallet moves too. -/
theorem conserves_posted {wallet : Wallet} {comment : String} {posting : Posting}
    (hwallet : before.wallets.find? request.walletMsisdn = some wallet)
    (hrequest : posting.request = request) (hne : posting.source ≠ request.walletMsisdn)
    (hfitting : posting.Fitting (before.move request.walletMsisdn request.direction
      request.amount (treasuryTransactionId request) checker))
    (hrow : row = request.approved checker comment wallet.amount
      (request.movement wallet.amount).after (some before.journals.next))
    (hentries : after.entriesOf before.journals.next =
      [posting.first before.journals.next before.entries.next,
        posting.second before.journals.next (before.entries.next + 1)])
    (hafter : ∀ other, after.balance other = (posting.apply (before.move request.walletMsisdn
      request.direction request.amount (treasuryTransactionId request) checker)
        checker).balance other)
    (hwallets : ∀ moved ∈ (before.move request.walletMsisdn request.direction request.amount
      (treasuryTransactionId request) checker).wallets.rows, ∃ last ∈ after.wallets.rows,
        last.walletMsisdn = moved.walletMsisdn ∧ last.walletCode = moved.walletCode) :
    Conserves before after row := by
  have hbalance := Books.balance_of_find? hwallet
  have hmovements : movementsOf after row =
      [request.movement wallet.amount, posting.movement] := by
    rw [hrow]
    show [request.movement wallet.amount] ++
      ((after.entriesOf before.journals.next ++ []).filter _).filterMap _ = _
    rw [hentries]
    rfl
  have hnames : (movementsOf after row).map Movement.wallet =
      [request.walletMsisdn, posting.source] := by
    rw [hmovements]
    rfl
  obtain ⟨source, hsource, contra, hcontra, hsourceKey, hsourceCode, _, _⟩ := hfitting.wallet
  obtain ⟨found, _, hfound, hfoundAmount⟩ := hfitting.find?
  have hsourceBalance : before.balance posting.source = some posting.sourceBefore := by
    rw [← hfoundAmount, ← Books.balance_of_find? hfound, Books.balance_move, if_neg hne]
  subst hrow
  refine ⟨⟨_, _, rfl, rfl, hmovements ▸ List.mem_cons_self⟩, fun _ => ?_, ?_, ?_, ?_⟩
  · obtain ⟨last, hlast, hlastKey, hlastCode⟩ := hwallets source hsource
    refine ⟨posting.movement, hmovements ▸ List.mem_cons_of_mem _ (List.mem_singleton_self _),
      last, hlast, contra, ?_, hlastKey.trans hsourceKey, hlastCode.trans hsourceCode⟩
    rw [← hcontra, hrequest]
    rfl
  · rw [hnames]
    simpa using hne.symm
  · intro movement hmovement
    rw [hmovements] at hmovement
    rcases List.mem_pair.mp hmovement with rfl | rfl
    · refine ⟨hbalance, ?_, rfl⟩
      rw [hafter, posting.balance_apply]
      exact (if_neg hne.symm).trans (Books.balance_move_self hbalance)
    · refine ⟨hsourceBalance, ?_, hfitting.after.trans (by rw [hrequest]; rfl)⟩
      show after.balance posting.source = some posting.sourceAfter
      rw [hafter, posting.balance_apply, if_pos rfl, Books.balance_move, if_neg hne,
        hsourceBalance, hfitting.after]
      rfl
  · intro other hother
    rw [hnames, List.mem_pair, not_or] at hother
    rw [hafter, posting.balance_apply, if_neg hother.2, Books.balance_move, if_neg hother.1]

theorem Approves.conserves (hkept : before.Kept) (hrequest : request ∈ before.requests.rows)
    (happroves : Approves before request checker row after) : Conserves before after row := by
  cases happroves with
  | plain hwallet hcovered htype => exact conserves_plain hwallet htype rfl fun _ => rfl
  | @posted wallet comment posting hwallet hcovered htype hposting hbefore hlast hfitting =>
    have hne : posting.source ≠ request.walletMsisdn := by
      subst hposting
      exact hkept.source_ne hrequest htype hfitting
    refine conserves_posted hwallet hposting hne hfitting rfl
      (posting.entriesOf_apply checker hkept.entries) (fun _ => rfl) fun moved hmoved => ?_
    obtain ⟨last, hlast, hkey, hcode, _⟩ := Books.wallet_move hmoved
    exact ⟨last, hlast, hkey, hcode⟩

end Approves

end Finify.Treasury
