/-
# Runs of treasury calls

What the books keep, every call keeps, whether it ends well or fails.  The last
theorem gathers what follows of whole runs.
-/

import Finify.Treasury.Conservation

namespace Finify.Treasury

open Finify.Foundations
open Finify.Posting (Entry)
open Finify.Pricing (Administrator)

/-! ## Failed calls -/

/-- A call that fails has changed nothing. -/
theorem Call.perform_harmless {call : Call} : Harmless call.perform := by
  cases call with
  | create body maker => exact .bind FundingBody.checked_reading fun _ => .atomically
  | review id action comment checker =>
    exact .bind .orThrow fun _ => .bind .require fun _ => .atomically

/-- A call has one of the effects, or fails and has none. -/
theorem attempt_cases (before : Books) (call : Call) :
    (∃ row, (attempt Call.perform before call).outcome = .ok row ∧
        before.Effect call row (attempt Call.perform before call).after) ∨
      (∃ failure, (attempt Call.perform before call).outcome = .error failure) ∧
        (attempt Call.perform before call).after = before := by
  cases houtcome : (attempt Call.perform before call).outcome with
  | ok row => exact .inl ⟨row, rfl, Call.perform_effect (attempt_ok houtcome)⟩
  | error failure =>
    exact .inr ⟨⟨failure, rfl⟩, Call.perform_harmless _ _ _ (attempt_error houtcome)⟩

/-! ## What every call keeps -/

theorem Books.mem_write {books : Books} {request row : FundingRequest} :
    row ∈ (books.write request).requests.rows ↔
      ∃ old ∈ books.requests.rows, row = if old.id = request.id then request else old := by
  simp only [Books.write, Log.rows_map, List.mem_map, eq_comm]

/-- A written row is on the wallet of the row it replaces. -/
theorem Books.Kept.write {books : Books} (hkept : books.Kept) {old row : FundingRequest}
    (hold : old ∈ books.requests.rows) (hchecked : row.Checked)
    (hwallet : row.walletMsisdn = old.walletMsisdn) (hcode : row.walletCode = old.walletCode)
    (hcurrency : row.currency = old.currency) : (books.write row).Kept where
  nonneg := hkept.nonneg
  checked := by
    intro request hrequest
    obtain ⟨found, hfound, rfl⟩ := Books.mem_write.mp hrequest
    split
    case isTrue => exact hchecked
    case isFalse => exact hkept.checked found hfound
  target := by
    intro request hrequest
    obtain ⟨found, hfound, rfl⟩ := Books.mem_write.mp hrequest
    split
    case isTrue =>
      rw [hwallet, hcode, hcurrency]
      exact hkept.target old hold
    case isFalse => exact hkept.target found hfound
  entries := hkept.entries

theorem Books.Kept.move {books : Books} (hkept : books.Kept) {walletMsisdn : ℤ}
    {direction : Direction} {amount : ℤ} (transactionId : ℤ) (actor : Administrator)
    {wallet : Wallet} (hfind : books.wallets.find? walletMsisdn = some wallet) (hamount : 0 < amount)
    (hcovered : direction = .credit ∨ amount ≤ wallet.amount) :
    (books.move walletMsisdn direction amount transactionId actor).Kept where
  nonneg := Books.nonneg_move hkept.nonneg hfind hamount hcovered
  checked := hkept.checked
  target := by
    intro request hrequest
    obtain ⟨wallet, hwallet, hkey, hcode, hcurrency⟩ := hkept.target request hrequest
    obtain ⟨moved, hmoved, hmovedKey, hmovedCode, hmovedCurrency⟩ := Books.wallet_move hwallet
    exact ⟨moved, hmoved, hmovedKey.trans hkey, hmovedCode.trans hcode,
      hmovedCurrency.trans hcurrency⟩
  entries := hkept.entries

theorem Books.Kept.apply {books : Books} (hkept : books.Kept) {posting : Posting}
    (hfitting : posting.Fitting books) (actor : Administrator) :
    (posting.apply books actor).Kept := by
  obtain ⟨wallet, _, hfind, hamount⟩ := hfitting.find?
  have hmoved : (books.move posting.source posting.request.direction posting.request.amount
      posting.transactionId actor).Kept :=
    hkept.move _ _ hfind posting.amount_pos (hamount ▸ hfitting.covered)
  refine ⟨hmoved.nonneg, hmoved.checked, hmoved.target, fun entry hentry => ?_⟩
  show entry.journalId < books.journals.next + 1
  rw [posting.rows_apply] at hentry
  rcases List.mem_append.mp hentry with hold | hnew
  · exact Nat.lt_succ_of_lt (hkept.entries entry hold)
  · rcases List.mem_pair.mp hnew with rfl | rfl <;> exact Nat.lt_succ_self _

theorem Books.Kept.approves {before after : Books} {request row : FundingRequest}
    {checker : Administrator} (hkept : before.Kept) (hrequest : request ∈ before.requests.rows)
    (happroves : Approves before request checker row after) (hchecked : row.Checked) :
    after.Kept := by
  have hamount := (hkept.checked request hrequest).amount
  cases happroves with
  | plain hwallet hcovered htype =>
    have hwritten := (hkept.move (treasuryTransactionId request) checker hwallet hamount
      hcovered).write hrequest hchecked rfl rfl rfl
    exact ⟨hwritten.nonneg, hwritten.checked, hwritten.target, hwritten.entries⟩
  | posted hwallet hcovered htype hposting hbefore hlast hfitting =>
    have hwritten := ((hkept.move _ _ hwallet hamount hcovered).apply hfitting checker).write
      hrequest hchecked rfl rfl rfl
    exact ⟨hwritten.nonneg, hwritten.checked, hwritten.target, hwritten.entries⟩

theorem Books.Kept.effect {before after : Books} {call : Call} {row : FundingRequest}
    (hkept : before.Kept) (heffect : before.Effect call row after) : after.Kept := by
  cases heffect with
  | opened hwallet hcode hcurrency hchecked =>
    refine ⟨hkept.nonneg, ?_, ?_, hkept.entries⟩
    · intro request hrequest
      rcases List.mem_append.mp hrequest with hold | hnew
      · exact hkept.checked request hold
      · obtain rfl := List.mem_singleton.mp hnew
        exact hchecked
    · intro request hrequest
      rcases List.mem_append.mp hrequest with hold | hnew
      · exact hkept.target request hold
      · obtain rfl := List.mem_singleton.mp hnew
        exact ⟨_, hwallet, rfl, rfl, hcurrency⟩
  | rejected hrequest hpending hchecked => exact hkept.write hrequest hchecked rfl rfl rfl
  | approved hrequest hpending hmaker happroves hchecked =>
    exact hkept.approves hrequest happroves hchecked

theorem Books.Kept.attempt {before : Books} (hkept : before.Kept) (call : Call) :
    (attempt Call.perform before call).after.Kept := by
  rcases attempt_cases before call with ⟨row, _, heffect⟩ | ⟨_, hsame⟩
  · exact hkept.effect heffect
  · rw [hsame]
    exact hkept

/-! ## Journals -/

/-- Wallets are still there, with their number and currency. -/
def WalletsStay (before after : Books) : Prop :=
  ∀ wallet ∈ before.wallets.rows, ∃ last ∈ after.wallets.rows,
    last.walletMsisdn = wallet.walletMsisdn ∧ last.currency = wallet.currency

theorem WalletsStay.refl (books : Books) : WalletsStay books books :=
  fun wallet hwallet => ⟨wallet, hwallet, rfl, rfl⟩

theorem WalletsStay.move (books : Books) (walletMsisdn : ℤ) (direction : Direction)
    (amount transactionId : ℤ) (actor : Administrator) :
    WalletsStay books (books.move walletMsisdn direction amount transactionId actor) := by
  intro wallet hwallet
  obtain ⟨moved, hmoved, hkey, _, hcurrency⟩ := Books.wallet_move hwallet
  exact ⟨moved, hmoved, hkey, hcurrency⟩

theorem WalletsStay.trans {first second third : Books} (hfirst : WalletsStay first second)
    (hsecond : WalletsStay second third) : WalletsStay first third := by
  intro wallet hwallet
  obtain ⟨moved, hmoved, hkey, hcurrency⟩ := hfirst wallet hwallet
  obtain ⟨last, hlast, hlastKey, hlastCurrency⟩ := hsecond moved hmoved
  exact ⟨last, hlast, hlastKey.trans hkey, hlastCurrency.trans hcurrency⟩

/-- A journal whose entries are not touched stays balanced. -/
theorem Books.Balanced.mono {before after : Books} {journal : Journal}
    (hbalanced : before.Balanced journal)
    (hentries : after.entriesOf journal.id = before.entriesOf journal.id)
    (hwallets : WalletsStay before after) : after.Balanced journal where
  posted := hentries ▸ hbalanced.posted
  sides := hentries ▸ hbalanced.sides
  currency := by
    intro entry hentry
    rw [hentries] at hentry
    obtain ⟨hcurrency, wallet, hwallet, hkey, hwalletCurrency⟩ :=
      hbalanced.currency entry hentry
    obtain ⟨last, hlast, hlastKey, hlastCurrency⟩ := hwallets wallet hwallet
    exact ⟨hcurrency, last, hlast, hlastKey.trans hkey, hlastCurrency.trans hwalletCurrency⟩

/-- The two entries of a posting balance. -/
theorem Posting.sides (posting : Posting) (journal first second : ℕ) :
    ([posting.first journal first, posting.second journal second].map Entry.debit).sum =
      ([posting.first journal first, posting.second journal second].map Entry.credit).sum := by
  cases hdirection : posting.request.direction <;>
    simp [Posting.first, Posting.second, FundingRequest.entry, hdirection, Direction.opposite]

/-- The journal of a posting is balanced, in the currency of the two wallets. -/
theorem balanced_posted {before after : Books} {posting : Posting} (hkept : before.Kept)
    (hrequest : posting.request ∈ before.requests.rows) {moved : Books}
    (hmoved : WalletsStay before moved) (hlast : WalletsStay moved after)
    (hfitting : posting.Fitting moved) {transactionId : ℤ} {journal first second : ℕ}
    (hentries : after.entriesOf journal =
      [posting.first journal first, posting.second journal second]) :
    after.Balanced (posting.request.journal transactionId journal) where
  posted := by
    show after.entriesOf journal ≠ []
    rw [hentries]
    exact List.cons_ne_nil _ _
  sides := by
    show ((after.entriesOf journal).map Entry.debit).sum =
      ((after.entriesOf journal).map Entry.credit).sum
    rw [hentries]
    exact posting.sides journal first second
  currency := by
    intro entry hentry
    obtain ⟨wallet, hwallet, hkey, _, hcurrency⟩ := hkept.target _ hrequest
    have hstay := hmoved.trans hlast
    change entry ∈ after.entriesOf journal at hentry
    rw [hentries] at hentry
    rcases List.mem_pair.mp hentry with rfl | rfl
    · obtain ⟨last, hlast, hlastKey, hlastCurrency⟩ := hstay wallet hwallet
      exact ⟨rfl, last, hlast, hlastKey.trans hkey, hlastCurrency.trans hcurrency⟩
    · obtain ⟨source, hsource, _, _, hsourceKey, _, hsourceCurrency, _⟩ := hfitting.wallet
      obtain ⟨last, hlast, hlastKey, hlastCurrency⟩ := hlast source hsource
      refine ⟨rfl, last, hlast, hlastKey.trans hsourceKey, ?_⟩
      rw [hlastCurrency, hsourceCurrency, ← hcurrency, wallet.currency_upper]
      exact hcurrency

/-- The journals of the books are those of the start, or balanced. -/
def Books.Since (start books : Books) : Prop :=
  ∀ journal ∈ books.journals.rows, journal ∈ start.journals.rows ∨ books.Balanced journal

theorem Books.Since.same {start before after : Books} (hsince : start.Since before)
    (hjournals : after.journals.rows = before.journals.rows)
    (hentries : after.entries.rows = before.entries.rows) (hwallets : WalletsStay before after) :
    start.Since after := by
  intro journal hjournal
  rw [hjournals] at hjournal
  refine (hsince journal hjournal).imp_right fun hbalanced => hbalanced.mono ?_ hwallets
  unfold Books.entriesOf
  rw [hentries]

theorem Books.Since.effect {start before after : Books} {call : Call} {row : FundingRequest}
    (hkept : before.Kept) (hsince : start.Since before)
    (heffect : before.Effect call row after) : start.Since after := by
  cases heffect with
  | opened => exact hsince.same rfl rfl (WalletsStay.refl before)
  | rejected => exact hsince.same rfl rfl (WalletsStay.refl before)
  | @approved _ _ checker request _ _ hrequest hpending hmaker happroves hchecked =>
    have hmoved := WalletsStay.move before request.walletMsisdn request.direction
      request.amount (treasuryTransactionId request) checker
    cases happroves with
    | plain hwallet hcovered htype => exact hsince.same rfl rfl hmoved
    | @posted _ _ posting hwallet hcovered htype hposting hbefore hlast hfitting =>
      subst hposting
      have hagain := WalletsStay.move (before.move posting.request.walletMsisdn
        posting.request.direction posting.request.amount
        (treasuryTransactionId posting.request) checker) posting.source
        posting.request.direction posting.request.amount posting.transactionId checker
      intro journal hjournal
      rcases List.mem_append.mp hjournal with hold | hnew
      · have hne : journal.id ≠ before.journals.next := (before.journals.below _ hold).ne
        exact (hsince journal hold).imp_right fun hbalanced =>
          hbalanced.mono (posting.entriesOf_apply_of_ne checker hne) (hmoved.trans hagain)
      · obtain rfl := List.mem_singleton.mp hnew
        refine .inr (balanced_posted hkept hrequest hmoved ?_ hfitting
          (posting.entriesOf_apply checker hkept.entries))
        exact hagain

/-! ## Approved once -/

def Books.Approved (books : Books) (id : ℕ) : Prop :=
  ∃ row ∈ books.requests.rows, row.id = id ∧ row.status = .approved

instance (books : Books) (id : ℕ) : Decidable (books.Approved id) :=
  inferInstanceAs (Decidable (∃ row ∈ books.requests.rows, _))

section Approves

variable {before after : Books} {request row : FundingRequest} {checker : Administrator}

theorem Approves.writes (happroves : Approves before request checker row after) :
    row.id = request.id ∧ row.maker = request.maker ∧ row.status = .approved ∧
      row.checker = some checker := by
  cases happroves with
  | plain => exact ⟨rfl, rfl, rfl, rfl⟩
  | posted => exact ⟨rfl, rfl, rfl, rfl⟩

theorem Approves.requests (happroves : Approves before request checker row after) :
    after.requests.rows = (before.write row).requests.rows := by
  cases happroves with
  | plain => rfl
  | posted => rfl

end Approves

/-- Only a pending request is written. -/
theorem Books.Approved.write {books : Books} {id : ℕ} {request row : FundingRequest}
    (happroved : books.Approved id) (hrequest : request ∈ books.requests.rows)
    (hpending : request.status = .pending) (hid : row.id = request.id) :
    (books.write row).Approved id := by
  obtain ⟨old, hold, rfl, hstatus⟩ := happroved
  refine ⟨old, Books.mem_write.mpr ⟨old, hold, (if_neg fun hsame => ?_).symm⟩, rfl, hstatus⟩
  obtain rfl : old = request :=
    Log.eq_of_serial_eq _ hold hrequest (hsame.trans hid)
  rw [hstatus] at hpending
  cases hpending

theorem Books.Approved.effect {before after : Books} {id : ℕ} {call : Call}
    {row : FundingRequest} (happroved : before.Approved id)
    (heffect : before.Effect call row after) : after.Approved id := by
  cases heffect with
  | opened =>
    obtain ⟨old, hold, hid, hstatus⟩ := happroved
    exact ⟨old, List.mem_append_left _ hold, hid, hstatus⟩
  | rejected hrequest hpending => exact happroved.write hrequest hpending rfl
  | approved hrequest hpending hmaker happroves =>
    obtain ⟨old, hold, hid, hstatus⟩ :=
      happroved.write hrequest hpending happroves.writes.1
    exact ⟨old, happroves.requests ▸ hold, hid, hstatus⟩

theorem Books.Approved.attempt {before : Books} {id : ℕ} (happroved : before.Approved id)
    (call : Call) : (attempt Call.perform before call).after.Approved id := by
  rcases attempt_cases before call with ⟨row, _, heffect⟩ | ⟨_, hsame⟩
  · exact happroved.effect heffect
  · rw [hsame]
    exact happroved

theorem Books.Effect.of_approved {before after : Books} {id : ℕ} {call : Call}
    {row : FundingRequest} (heffect : before.Effect call row after) (hnot : ¬ before.Approved id)
    (happroved : after.Approved id) : ∃ text comment checker request,
      call = .review text .approve comment checker ∧ row.id = id ∧
        request ∈ before.requests.rows ∧ request.maker.sameAs checker = false ∧
        Approves before request checker row after := by
  obtain ⟨found, hfound, hid, hstatus⟩ := happroved
  cases heffect with
  | opened =>
    rcases List.mem_append.mp hfound with hold | hnew
    · exact absurd ⟨found, hold, hid, hstatus⟩ hnot
    · obtain rfl := List.mem_singleton.mp hnew
      cases hstatus
  | rejected hrequest hpending =>
    obtain ⟨old, hold, rfl⟩ := Books.mem_write.mp hfound
    split at hstatus
    case isTrue => cases hstatus
    case isFalse hne =>
      rw [if_neg hne] at hid
      exact absurd ⟨old, hold, hid, hstatus⟩ hnot
  | approved hrequest hpending hmaker happroves =>
    rw [happroves.requests] at hfound
    obtain ⟨old, hold, rfl⟩ := Books.mem_write.mp hfound
    split at hstatus
    case isTrue hsame =>
      rw [if_pos hsame] at hid
      exact ⟨_, _, _, _, rfl, hid, hrequest, hmaker, happroves⟩
    case isFalse hne =>
      rw [if_neg hne] at hid
      exact absurd ⟨old, hold, hid, hstatus⟩ hnot

/-! ## Balances -/

def recorded (made : Attempt Failure Books Call FundingRequest) : List Movement :=
  match made.input, made.outcome with
  | .review _ .approve _ _, .ok row => movementsOf made.after row
  | _, _ => []

/-- Among records with different keys, one key has one record. -/
theorem filter_key_eq {movements : List Movement} {movement : Movement}
    (hnodup : (movements.map Movement.wallet).Nodup) (hmem : movement ∈ movements) :
    movements.filter (fun other => other.wallet = movement.wallet) = [movement] := by
  induction movements with
  | nil => cases hmem
  | cons first rest ih =>
    rw [List.map_cons, List.nodup_cons] at hnodup
    rcases List.mem_cons.mp hmem with rfl | hrest
    · rw [List.filter_cons_of_pos (by simp), List.filter_eq_nil_iff.mpr]
      intro other hother hsame
      exact hnodup.1 (of_decide_eq_true hsame ▸ List.mem_map_of_mem hother)
    · have hne : first.wallet ≠ movement.wallet := fun hsame =>
        hnodup.1 (hsame ▸ List.mem_map_of_mem hrest)
      rw [List.filter_cons_of_neg (by simpa using hne)]
      exact ih hnodup.2 hrest

/-- An approval leads each wallet from balance to balance by what it has recorded. -/
theorem Conserves.trail {before after : Books} {row : FundingRequest}
    (hconserves : Conserves before after row) {wallet balance : ℤ}
    (hbalance : before.balance wallet = some balance) :
    ∃ last, after.balance wallet = some last ∧ Trail Movement.Links balance
      ((movementsOf after row).filter fun movement => movement.wallet = wallet) last := by
  by_cases hnamed : wallet ∈ (movementsOf after row).map Movement.wallet
  · obtain ⟨movement, hmovement, rfl⟩ := List.mem_map.mp hnamed
    obtain ⟨hbefore, hafter, _⟩ := hconserves.amounts movement hmovement
    have hfirst : movement.before = balance := Option.some.inj (hbefore.symm.trans hbalance)
    rw [filter_key_eq hconserves.distinct hmovement]
    exact ⟨movement.after, hafter, .singleton ⟨hfirst, rfl⟩⟩
  · refine ⟨balance, (hconserves.others wallet hnamed).trans hbalance, ?_⟩
    rw [List.filter_eq_nil_iff.mpr]
    · exact .nil balance
    · intro movement hmovement hsame
      exact hnamed (of_decide_eq_true hsame ▸ List.mem_map_of_mem hmovement)

theorem trail_attempt {before : Books} (hkept : before.Kept) (call : Call) {wallet balance : ℤ}
    (hbalance : before.balance wallet = some balance) :
    ∃ last, (attempt Call.perform before call).after.balance wallet = some last ∧
      Trail Movement.Links balance ((recorded (attempt Call.perform before call)).filter
        fun movement => movement.wallet = wallet) last := by
  have hinput : (attempt Call.perform before call).input = call := attempt_input before call
  unfold recorded
  rcases attempt_cases before call with ⟨row, houtcome, heffect⟩ | ⟨⟨failure, houtcome⟩, hsame⟩
  · rw [houtcome, hinput]
    generalize (attempt Call.perform before call).after = after at heffect ⊢
    cases heffect with
    | opened => exact ⟨balance, hbalance, .nil balance⟩
    | rejected => exact ⟨balance, hbalance, .nil balance⟩
    | approved hrequest hpending hmaker happroves =>
      exact (happroves.conserves hkept hrequest).trail hbalance
  · rw [houtcome, hinput, hsame]
    refine ⟨balance, hbalance, ?_⟩
    cases call with
    | create => exact .nil balance
    | review id action => cases action <;> exact .nil balance

/-- Along a run the recorded balances lead each wallet from its first balance to its
last. -/
theorem trail_attempts {start : Books} (hkept : start.Kept) (calls : List Call)
    {wallet balance : ℤ} (hbalance : start.balance wallet = some balance) :
    ∃ last, (afterCalls Call.perform start calls).balance wallet = some last ∧
      Trail Movement.Links balance (((attempts Call.perform start calls).flatMap recorded).filter
        fun movement => movement.wallet = wallet) last := by
  induction calls generalizing start balance with
  | nil => exact ⟨balance, hbalance, .nil balance⟩
  | cons call calls ih =>
    obtain ⟨middle, hmiddle, hfirst⟩ := trail_attempt hkept call hbalance
    obtain ⟨last, hlast, hrest⟩ := ih (hkept.attempt call) hmiddle
    refine ⟨last, hlast, ?_⟩
    rw [attempts, List.flatMap_cons, List.filter_append]
    exact hfirst.append hrest

/-! ## Whole runs -/

/-- What holds of a run of calls. -/
structure Conserved (start : Books) (calls : List Call) : Prop where
  /-- A request becomes approved in one call at most. -/
  once : ∀ id, ((attempts Call.perform start calls).filter fun made =>
    ¬ made.before.Approved id ∧ made.after.Approved id).length ≤ 1
  /-- That call is an approving review by another administrator than the maker, and moves
  the wallets of the request by its amount. -/
  approved : ∀ made ∈ attempts Call.perform start calls, ∀ id, ¬ made.before.Approved id →
    made.after.Approved id → ∃ text comment checker row,
      made.input = .review text .approve comment checker ∧ made.outcome = .ok row ∧
        row.id = id ∧ row.maker.sameAs checker = false ∧ row.checker = some checker ∧
        row ∈ made.after.requests.rows ∧ Conserves made.before made.after row
  /-- The recorded balances chain from the first balance of a wallet to its last. -/
  chained : ∀ wallet balance, start.balance wallet = some balance →
    ∃ last, (afterCalls Call.perform start calls).balance wallet = some last ∧
      Trail Movement.Links balance (((attempts Call.perform start calls).flatMap recorded).filter
        fun movement => movement.wallet = wallet) last
  /-- No wallet gets into debt. -/
  nonneg : ∀ wallet ∈ (afterCalls Call.perform start calls).wallets.rows, 0 ≤ wallet.amount
  /-- Every new journal is balanced in the one currency of its wallets. -/
  balanced : ∀ journal ∈ (afterCalls Call.perform start calls).journals.rows,
    journal ∈ start.journals.rows ∨ (afterCalls Call.perform start calls).Balanced journal
  /-- A call that fails changes nothing. -/
  failed : ∀ made ∈ attempts Call.perform start calls, ∀ failure,
    made.outcome = .error failure → made.after = made.before

theorem Books.Since.attempt {start before : Books} (hkept : before.Kept)
    (hsince : start.Since before) (call : Call) :
    start.Since (attempt Call.perform before call).after := by
  rcases attempt_cases before call with ⟨row, _, heffect⟩ | ⟨_, hsame⟩
  · exact hsince.effect hkept heffect
  · rw [hsame]
    exact hsince

/-- Calls to create and review treasury movements, in whatever order they take effect,
approve each request at most once, and conserve. -/
theorem treasury_funding_conserves {start : Books} (hopening : start.Opening)
    (calls : List Call) : Conserved start calls := by
  have hkept := hopening.kept
  obtain ⟨⟨hlast, hsince⟩, hall⟩ := attempts_preserve
    (fun books => books.Kept ∧ start.Since books)
    (fun before call h => ⟨h.1.attempt call, h.2.attempt h.1 call⟩)
    ⟨hkept, fun journal hjournal => .inl hjournal⟩ calls
  refine ⟨fun id => ?once, fun made hmade id hnot happroved => ?approved,
    fun wallet balance hbalance => trail_attempts hkept calls hbalance, hlast.nonneg, hsince,
    fun made hmade failure hfailure => ?failed⟩
  case once =>
    have hstays : ∀ before call, Books.Kept before → before.Approved id →
        (attempt Call.perform before call).after.Approved id :=
      fun before call _ happroved => happroved.attempt call
    exact attempts_reach_once (fun before call h => Books.Kept.attempt h call) hstays hkept calls
  case approved =>
    obtain ⟨hstep, ⟨hbefore, _⟩, _⟩ := hall made hmade
    rcases attempt_cases made.before made.input with ⟨row, houtcome, heffect⟩ | ⟨_, hsame⟩
    · rw [← hstep] at houtcome heffect
      obtain ⟨text, comment, checker, request, hinput, hid, hrequest, hmaker, happroves⟩ :=
        heffect.of_approved hnot happroved
      obtain ⟨hsameId, hsameMaker, _, hchecker⟩ := happroves.writes
      have hwritten : row ∈ made.after.requests.rows := by
        rw [happroves.requests]
        exact Books.mem_write.mpr ⟨request, hrequest, (if_pos hsameId.symm).symm⟩
      exact ⟨text, comment, checker, row, hinput, houtcome, hid, hsameMaker ▸ hmaker, hchecker,
        hwritten, happroves.conserves hbefore hrequest⟩
    · rw [← hstep] at hsame
      rw [hsame] at happroved
      exact absurd happroved hnot
  case failed =>
    obtain ⟨hstep, _⟩ := hall made hmade
    rcases attempt_cases made.before made.input with ⟨row, houtcome, _⟩ | ⟨_, hsame⟩
    · rw [← hstep, hfailure] at houtcome
      cases houtcome
    · rw [← hstep] at hsame
      exact hsame

/-- A wallet of the safeguarding bank account and one of the owner's capital. -/
def openingWallet (number code amount : ℤ) : Wallet where
  walletMsisdn := number
  ownerMsisdn := number
  walletCode := code
  amount := amount
  currency := "GBP"
  currency_upper := by decide +kernel

def openingBooks : Books where
  wallets := ⟨[openingWallet 1 110 500, openingWallet 2 116 100], by decide⟩
  requests := .empty
  documents := .empty
  journals := .empty
  entries := .empty
  audits := []
  categories := fun name =>
    if name = "SAFEGUARDING_ASSET" then some 1
    else if name = "OWNER_CAPITAL" then some 2
    else none

def capitalBody : FundingBody where
  operation := some "ADD_SAFEGUARDING"
  fundingClassification := "OWNER_INVESTMENT"
  currency := "GBP"
  amount := "1,000.5"
  reference := "CAPITAL-1"
  bankName := "Bank"
  bankAccount := "ACC1"
  valueDate := "2026-02-28"
  evidenceReference := "Statement 1"
  comment := "capital"

/-- A request is created, and approved by another administrator. -/
def capitalCalls : List Call :=
  [.create capitalBody ⟨"maker", by decide⟩, .review "1" .approve "" ⟨"checker", by decide⟩]

theorem capital_conserved : openingBooks.Opening ∧ Conserved openingBooks capitalCalls ∧
    (afterCalls Call.perform openingBooks capitalCalls).wallets.rows.map Wallet.amount =
      [100550, 100150] := by
  have hopening : openingBooks.Opening := ⟨rfl, by decide, by decide⟩
  exact ⟨hopening, treasury_funding_conserves hopening capitalCalls, by decide +kernel⟩

end Finify.Treasury
