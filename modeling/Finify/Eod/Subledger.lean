/-
# The general ledger and the wallets

A completed close builds the balances of its day twice: wallet by wallet, from the balances
that the entries recorded, and account by account, from debits and credits.  The module states
what it is for the two to agree and under which steps they do, and works out both for one day:
the totals of the accounts, and the opening and closing balances of the wallets.
-/

import Finify.Eod.Continuity

namespace Finify.Eod

open Finify.Foundations

/-! ## The two ledgers -/

/-- A movement as the account counts it. -/
def GlAccount.signed (account : GlAccount) (debit credit : ℤ) : ℤ :=
  match account.normalBalance with
  | .debit => debit - credit
  | .credit => credit - debit

/-- What a completed close leaves in the daily tables: the rows of the general ledger balance
and add up to the figures of the run, each account opens as it closed the day before, and each
mapped account closes with the sum of its wallets. -/
structure Agreement (books : Books) (run : Run) : Prop where
  debits : ((books.dayGlBalances run.businessDate run.currency).map GlBalance.totalDebit).sum =
    run.totals.totalDebit
  credits : ((books.dayGlBalances run.businessDate run.currency).map GlBalance.totalCredit).sum =
    run.totals.totalCredit
  balanced : run.totals.totalDebit = run.totals.totalCredit
  opens : OpensAsClosed books run
  subledger : ∀ mapping ∈ books.mappings.rows, mapping.isActive →
    ∃ row ∈ books.dayGlBalances run.businessDate run.currency,
      row.glAccountCode = mapping.glAccountCode ∧
        row.closingBalance = (((books.dayBalances run.businessDate run.currency).filter
          fun balance => balance.glAccountCode = row.glAccountCode).map
            WalletBalance.closingBalance).sum

/-! ## Runs in which they agree -/

/-- The entries of a wallet as a close of the date meets them. -/
structure InSequence (books : Books) (date : Date) (currency : String) (wallet : ℤ) : Prop where
  ending : ∀ last ∈ latest Entry.stamp (books.walletActivity date currency wallet),
    ∀ entry ∈ books.history wallet, entry.id ≤ last.id ↔ entry.businessDate ≤ date
  quiet : books.walletActivity date currency wallet = [] →
    books.previousClosing date currency wallet = none →
      ∀ entry ∈ books.history wallet, entry.businessDate ≤ date

/-- The entries of a wallet as the first close meets them: an account that carries its balance
opens with what the wallet held at the start of the date, any other with nothing. -/
def BeginsInSequence (books : Books) (date : Date) (currency : String) (wallet : ℤ)
    (carries : Bool) : Prop :=
  if carries then
    ∀ first ∈ earliest Entry.stamp (books.walletActivity date currency wallet),
      ∀ entry ∈ books.history wallet, entry.id < first.id ↔ entry.businessDate < date
  else ∀ entry ∈ books.history wallet, date ≤ entry.businessDate

/-- What the next close needs of the wallets that it takes. -/
structure Closable (diary : Diary) (date : Date) (currency : String) : Prop where
  active : diary.books.AccountsActive
  sequence : ∀ wallet ∈ diary.books.walletsOf currency,
    diary.books.activeMapping wallet.walletCode ≠ none →
      InSequence diary.books date currency wallet.walletMsisdn
  beginning : diary.standing.begun = false → ∀ wallet ∈ diary.books.walletsOf currency,
    ∀ account ∈ diary.books.glAccount wallet.walletMsisdn,
      BeginsInSequence diary.books date currency wallet.walletMsisdn
        account.accountType.carriesBalance

/-- A line moves its wallet as the account of the wallet counts it. -/
def Books.OnItsSide (books : Books) (line : Line) : Prop :=
  ∀ account ∈ books.glAccount line.accountNumber,
    line.change = account.signed line.debit line.credit

/-- What the steps of a run meet in which the two ledgers agree. -/
def InStep (currency : String) (diary : Diary) : Diary.Event → Prop
  | .write writer _ movement => diary.standing.Precedes writer.businessDate ∧
      ∀ line ∈ movement.lines, diary.books.OnItsSide line
  | .fund _ _ => False
  | .close request => ∀ date ∈ request.businessDate, Closable diary date currency
  | _ => True

instance (books : Books) (date : Date) (currency : String) (wallet : ℤ) :
    Decidable (InSequence books date currency wallet) :=
  decidable_of_iff
    ((∀ last ∈ latest Entry.stamp (books.walletActivity date currency wallet),
        ∀ entry ∈ books.history wallet, entry.id ≤ last.id ↔ entry.businessDate ≤ date) ∧
      (books.walletActivity date currency wallet = [] →
        books.previousClosing date currency wallet = none →
          ∀ entry ∈ books.history wallet, entry.businessDate ≤ date))
    ⟨fun h => ⟨h.1, h.2⟩, fun h => ⟨h.1, h.2⟩⟩

instance (books : Books) (date : Date) (currency : String) (wallet : ℤ) (carries : Bool) :
    Decidable (BeginsInSequence books date currency wallet carries) := by
  unfold BeginsInSequence
  infer_instance

instance (diary : Diary) (date : Date) (currency : String) :
    Decidable (Closable diary date currency) :=
  decidable_of_iff
    (diary.books.AccountsActive ∧
      (∀ wallet ∈ diary.books.walletsOf currency,
        diary.books.activeMapping wallet.walletCode ≠ none →
          InSequence diary.books date currency wallet.walletMsisdn) ∧
      (diary.standing.begun = false → ∀ wallet ∈ diary.books.walletsOf currency,
        ∀ account ∈ diary.books.glAccount wallet.walletMsisdn,
          BeginsInSequence diary.books date currency wallet.walletMsisdn
            account.accountType.carriesBalance))
    ⟨fun h => ⟨h.1, h.2.1, h.2.2⟩, fun h => ⟨h.1, h.2, h.3⟩⟩

instance (books : Books) (line : Line) : Decidable (books.OnItsSide line) :=
  inferInstanceAs (Decidable (∀ account ∈ books.glAccount line.accountNumber,
    line.change = account.signed line.debit line.credit))

instance (currency : String) (diary : Diary) :
    (event : Diary.Event) → Decidable (InStep currency diary event)
  | .write _ _ _ => inferInstanceAs (Decidable (_ ∧ _))
  | .fund _ _ => .isFalse id
  | .mark _ _ => .isTrue trivial
  | .openWallet _ _ _ => .isTrue trivial
  | .close request => inferInstanceAs (Decidable (∀ date ∈ request.businessDate,
      Closable diary date currency))

/-! ## Totals of a day -/

namespace Sound

variable {currency : String} {books : Books} {date : Date}

/-- The entries that move an account, by the accounts of their wallets. -/
theorem glActivity_eq (code : String) :
    books.glActivity date currency code = (books.dayEntries date currency).filter
      fun entry => books.glCode entry.accountNumber = some code := by
  apply List.filter_congr
  intro entry _
  rw [Books.glCode]
  cases books.wallets.find? entry.accountNumber with
  | none => simp
  | some wallet =>
    cases hmapping : books.activeMapping wallet.walletCode with
    | none => simp [hmapping]
    | some mapping => simp [hmapping]

/-- Every entry of a day that is ready moves an active account. -/
theorem glCode_mem (hsound : Sound currency books) (hready : books.Ready date currency)
    (hactive : books.AccountsActive) {entry : Entry}
    (hentry : entry ∈ books.dayEntries date currency) :
    books.glCode entry.accountNumber ∈ books.activeCodes.map some := by
  cases hwallet : books.wallets.find? entry.accountNumber with
  | none =>
    have hknown := hsound.known entry (List.mem_of_mem_filter hentry)
    rw [Books.balance, hwallet] at hknown
    exact absurd rfl hknown
  | some wallet =>
    have hunmapped := List.countP_eq_zero.mp hready.unmapped entry hentry
    rw [hwallet, Option.any_some] at hunmapped
    cases hmapping : books.activeMapping wallet.walletCode with
    | none => exact absurd (by rw [hmapping]; rfl) hunmapped
    | some mapping =>
      obtain ⟨hfound, hon⟩ := Option.filter_eq_some_iff.mp hmapping
      obtain ⟨account, haccount, hcode, hopen⟩ :=
        hactive mapping (Table.find?_eq_some.mp hfound).1 hon
      rw [Books.glCode, hwallet, Option.bind_some, hmapping, Option.map_some, ← hcode]
      exact List.mem_map_of_mem
        (List.mem_map_of_mem (List.mem_filter.mpr ⟨haccount, hopen⟩))

/-- The active accounts together are moved by all entries of the day. -/
theorem sum_glActivity (hsound : Sound currency books) (hready : books.Ready date currency)
    (hactive : books.AccountsActive) (amount : Entry → ℤ) :
    ((books.accounts.rows.filter GlAccount.isActive).map fun account =>
      ((books.glActivity date currency account.accountCode).map amount).sum).sum =
        ((books.dayEntries date currency).map amount).sum := by
  have hnodup : (books.activeCodes.map some).Nodup :=
    ((books.accounts.nodup.sublist (List.filter_sublist.map _)).map
      (Option.some_injective String))
  have hcovered : ∀ entry ∈ books.dayEntries date currency,
      books.glCode entry.accountNumber ∈ books.activeCodes.map some :=
    fun entry hentry => hsound.glCode_mem hready hactive hentry
  rw [← sum_accountOf hnodup hcovered, Books.activeCodes, List.map_map, List.map_map]
  apply congrArg
  apply List.map_congr_left
  intro account _
  rw [glActivity_eq]
  rfl

theorem sum_dayEntries (hsound : Sound currency books) (hready : books.Ready date currency) :
    ((books.dayEntries date currency).map Entry.debit).sum =
      ((books.dayEntries date currency).map Entry.credit).sum := by
  have hnodup : ((books.dayJournals date currency).map Journal.id).Nodup :=
    books.journals.nodup_serial.sublist (List.filter_sublist.map _)
  have hcovered : ∀ entry ∈ books.dayEntries date currency,
      entry.journalId ∈ (books.dayJournals date currency).map Journal.id := by
    intro entry hentry
    obtain ⟨hmem, hday⟩ := List.mem_filter.mp hentry
    obtain ⟨hdate, hcurrency⟩ := of_decide_eq_true hday
    obtain ⟨journal, hjournal, hid, hsameDate, hsameCurrency⟩ := hsound.journaled entry hmem
    rw [← hid]
    exact List.mem_map_of_mem (List.mem_filter.mpr ⟨hjournal,
      decide_eq_true ⟨hsameDate.trans hdate, hsameCurrency.trans hcurrency⟩⟩)
  -- a journal of the day has all its entries on the day
  have hwhole : ∀ journal ∈ books.dayJournals date currency,
      (books.dayEntries date currency).filter (fun entry => entry.journalId = journal.id) =
        books.journalEntries journal.id := by
    intro journal hjournal
    obtain ⟨hmem, hday⟩ := List.mem_filter.mp hjournal
    obtain ⟨hdate, hcurrency⟩ := of_decide_eq_true hday
    rw [Books.dayEntries, List.filter_filter, Books.journalEntries]
    apply List.filter_congr
    intro entry hentry
    by_cases hid : entry.journalId = journal.id
    · obtain ⟨same, hsame, hsameId, hsameDate, hsameCurrency⟩ := hsound.journaled entry hentry
      have heq := books.journals.eq_of_serial_eq hsame hmem (hsameId.trans hid)
      rw [heq] at hsameDate hsameCurrency
      simp [hid, ← hsameDate, ← hsameCurrency, hdate, hcurrency]
    · simp [hid]
  rw [← sum_accountOf hnodup hcovered, ← sum_accountOf hnodup hcovered, List.map_map,
    List.map_map]
  apply congrArg
  apply List.map_congr_left
  intro journal hjournal
  have hbalanced := List.countP_eq_zero.mp hready.unbalanced journal hjournal
  rw [decide_eq_true_eq, not_not] at hbalanced
  simp only [Function.comp_apply, accountOf, hwhole journal hjournal]
  exact hbalanced

end Sound

/-! ## Balances of a day -/

namespace Books

variable (books : Books)

/-- What the selected entries of all wallets of an account did to them. -/
def position (currency code : String) (selected : Entry → Bool) : ℤ :=
  ((books.members currency code).map fun wallet => books.moved wallet selected).sum

variable {books} {currency code : String} {date : Date}

theorem moved_upTo (wallet : ℤ) :
    books.moved wallet (fun entry => entry.businessDate ≤ date) =
      books.moved wallet (fun entry => entry.businessDate < date) +
        books.moved wallet fun entry => entry.businessDate = date := by
  unfold moved
  induction books.history wallet with
  | nil => rfl
  | cons entry entries ih =>
    rcases lt_trichotomy entry.businessDate date with hlt | heq | hgt
    · simp only [List.filter_cons, hlt, hlt.le, hlt.ne, decide_true, decide_false, if_true,
        Bool.false_eq_true, if_false, List.map_cons, List.sum_cons, ih, add_assoc]
    · simp only [List.filter_cons, heq, le_refl, lt_irrefl, decide_true, decide_false, if_true,
        Bool.false_eq_true, if_false, List.map_cons, List.sum_cons, ih]
      exact add_left_comm _ _ _
    · simp only [List.filter_cons, hgt.not_ge, hgt.le.not_gt, hgt.ne', decide_false,
        Bool.false_eq_true, if_false, ih]

theorem position_upTo :
    books.position currency code (fun entry => entry.businessDate ≤ date) =
      books.position currency code (fun entry => entry.businessDate < date) +
        books.position currency code fun entry => entry.businessDate = date := by
  simp only [position, moved_upTo]
  exact List.sum_map_add

/-- The wallets of an account are different ones. -/
theorem nodup_members : (books.members currency code).Nodup :=
  books.wallets.nodup.sublist
    ((List.filter_sublist.trans List.filter_sublist).map Wallet.walletMsisdn)

theorem mem_members {msisdn : ℤ} :
    msisdn ∈ books.members currency code ↔
      ∃ wallet ∈ books.walletsOf currency, wallet.walletMsisdn = msisdn ∧
        (books.activeMapping wallet.walletCode).map Mapping.glAccountCode = some code := by
  simp only [members, List.mem_map, List.mem_filter, decide_eq_true_eq]
  constructor
  · intro hmember
    obtain ⟨wallet, ⟨hwallet, hcode⟩, hkey⟩ := hmember
    exact ⟨wallet, hwallet, hkey, hcode⟩
  · intro hmember
    obtain ⟨wallet, hwallet, hkey, hcode⟩ := hmember
    exact ⟨wallet, ⟨hwallet, hcode⟩, hkey⟩

/-- A member is mapped to its account. -/
theorem glCode_of_member {msisdn : ℤ} (hmember : msisdn ∈ books.members currency code) :
    books.glCode msisdn = some code := by
  obtain ⟨wallet, hwallet, hkey, hcode⟩ := mem_members.mp hmember
  have hfound : books.wallets.find? wallet.walletMsisdn = some wallet :=
    Table.find?_key (List.mem_of_mem_filter hwallet)
  rw [glCode, ← hkey, hfound, Option.bind_some, hcode]

/-- The rows of an account, read one by one. -/
theorem sum_walletSnapshots (read : WalletBalance → ℤ) (value : ℤ → ℤ)
    (hvalue : ∀ wallet ∈ books.walletsOf currency, ∀ mapping,
      books.activeMapping wallet.walletCode = some mapping → mapping.glAccountCode = code →
        read (books.walletSnapshot date currency wallet mapping) = value wallet.walletMsisdn) :
    (((books.walletSnapshots date currency).filter fun balance =>
      balance.glAccountCode = code).map read).sum =
        ((books.members currency code).map value).sum := by
  unfold walletSnapshots members
  generalize books.walletsOf currency = wallets at hvalue ⊢
  induction wallets with
  | nil => rfl
  | cons wallet wallets ih =>
    have hrest := ih fun other hother => hvalue other (List.mem_cons_of_mem _ hother)
    cases hmapping : books.activeMapping wallet.walletCode with
    | none => simpa [List.filter_cons, hmapping] using hrest
    | some mapping =>
      by_cases hcode : mapping.glAccountCode = code
      · have hrow := hvalue wallet List.mem_cons_self mapping hmapping hcode
        have hchosen : (books.walletSnapshot date currency wallet mapping).glAccountCode =
            code := hcode
        simpa [List.filter_cons, hmapping, hcode, hchosen, hrow] using hrest
      · have hchosen : ¬ (books.walletSnapshot date currency wallet mapping).glAccountCode =
            code := hcode
        simpa [List.filter_cons, hmapping, hcode, hchosen] using hrest

end Books

namespace Sound

variable {currency code : String} {books : Books} {date : Date} {wallet : Wallet}
  {mapping : Mapping}

/-- The entries that a close finds for a wallet are its history of the day. -/
theorem walletActivity_eq (hsound : Sound currency books) (msisdn : ℤ) :
    books.walletActivity date currency msisdn =
      (books.history msisdn).filter fun entry => entry.businessDate = date := by
  rw [Books.walletActivity, Books.dayEntries, Books.history, List.filter_filter,
    List.filter_filter]
  apply List.filter_congr
  intro entry hentry
  simp [hsound.ofCurrency entry hentry, Bool.and_comm]

theorem moved_of_quiet (hsound : Sound currency books) {msisdn : ℤ}
    (hquiet : books.walletActivity date currency msisdn = []) :
    books.moved msisdn (fun entry => entry.businessDate ≤ date) =
      books.moved msisdn fun entry => entry.businessDate < date := by
  rw [hsound.walletActivity_eq] at hquiet
  rw [Books.moved_upTo]
  show _ + (((books.history msisdn).filter fun entry => entry.businessDate = date).map
    Entry.change).sum = _
  rw [hquiet, List.map_nil, List.sum_nil, add_zero]

/-- What a wallet is taken to hold that has no entry of the day. -/
theorem carried_eq (hsound : Sound currency books) (haccounted : Accounted books)
    (hwallet : wallet ∈ books.walletsOf currency)
    (hsequence : InSequence books date currency wallet.walletMsisdn)
    (hprevious : ∀ closing, books.previousClosing date currency wallet.walletMsisdn =
      some closing → closing = books.moved wallet.walletMsisdn
        fun entry => entry.businessDate < date)
    (hquiet : books.walletActivity date currency wallet.walletMsisdn = []) :
    books.carried date currency wallet = books.moved wallet.walletMsisdn
      fun entry => entry.businessDate ≤ date := by
  rw [Books.carried]
  cases hclosing : books.previousClosing date currency wallet.walletMsisdn with
  | some closing =>
    rw [Option.getD_some, hsound.moved_of_quiet hquiet]
    exact hprevious closing hclosing
  | none =>
    have hfound : books.balance wallet.walletMsisdn = some wallet.amount := by
      have hself : books.wallets.find? wallet.walletMsisdn = some wallet :=
        Table.find?_key (List.mem_of_mem_filter hwallet)
      rw [Books.balance, hself, Option.map_some]
    rw [Option.getD_none, haccounted.amounts _ _ hfound, Books.moved, Books.moved]
    congr 2
    apply List.filter_congr
    intro entry hentry
    exact (decide_eq_true (hsequence.quiet hquiet hclosing entry hentry)).symm

/-- A wallet closes with what was moved up to the date. -/
theorem closing_eq (hsound : Sound currency books) (haccounted : Accounted books)
    (hwallet : wallet ∈ books.walletsOf currency)
    (hsequence : InSequence books date currency wallet.walletMsisdn)
    (hprevious : ∀ closing, books.previousClosing date currency wallet.walletMsisdn =
      some closing → closing = books.moved wallet.walletMsisdn
        fun entry => entry.businessDate < date) :
    (books.walletSnapshot date currency wallet mapping).closingBalance =
      books.moved wallet.walletMsisdn fun entry => entry.businessDate ≤ date := by
  show (closingOf _).getD _ = _
  rw [closingOf]
  cases hlast : latest Entry.stamp
      (books.walletActivity date currency wallet.walletMsisdn) with
  | none =>
    rw [Option.bind_none, Option.getD_none]
    exact hsound.carried_eq haccounted hwallet hsequence hprevious (latest_eq_none.mp hlast)
  | some last =>
    have hmem := latest_mem hlast
    obtain ⟨hday, haccount⟩ := List.mem_filter.mp hmem
    rw [Option.bind_some, haccounted.after last (List.mem_of_mem_filter hday), Option.getD_some,
      of_decide_eq_true haccount, Books.moved, Books.moved]
    congr 2
    apply List.filter_congr
    intro entry hentry
    exact decide_eq_decide.mpr (hsequence.ending last hlast entry hentry)

/-- At the first close a wallet whose account carries its balance opens with what was moved
before the date. -/
theorem opening_eq (hsound : Sound currency books) (haccounted : Accounted books)
    (hwallet : wallet ∈ books.walletsOf currency)
    (hsequence : InSequence books date currency wallet.walletMsisdn)
    (hbegins : BeginsInSequence books date currency wallet.walletMsisdn true)
    (hfirst : books.previousClosing date currency wallet.walletMsisdn = none) :
    (books.walletSnapshot date currency wallet mapping).openingBalance =
      books.moved wallet.walletMsisdn fun entry => entry.businessDate < date := by
  show (openingOf _).getD _ = _
  rw [openingOf]
  cases hopening : earliest Entry.stamp
      (books.walletActivity date currency wallet.walletMsisdn) with
  | none =>
    have hquiet := earliest_eq_none.mp hopening
    rw [Option.bind_none, Option.getD_none, ← hsound.moved_of_quiet hquiet]
    apply hsound.carried_eq haccounted hwallet hsequence _ hquiet
    intro closing hclosing
    rw [hfirst] at hclosing
    cases hclosing
  | some first =>
    have hmem := earliest_mem hopening
    obtain ⟨hday, haccount⟩ := List.mem_filter.mp hmem
    rw [Option.bind_some, haccounted.before first (List.mem_of_mem_filter hday), Option.getD_some,
      of_decide_eq_true haccount, Books.moved, Books.moved]
    congr 2
    apply List.filter_congr
    intro entry hentry
    exact decide_eq_decide.mpr (hbegins first hopening entry hentry)

/-- What the entries of a day did to the wallets of an account. -/
theorem sum_change (hsound : Sound currency books) (hready : books.Ready date currency) :
    ((books.glActivity date currency code).map Entry.change).sum =
      books.position currency code fun entry => entry.businessDate = date := by
  rw [glActivity_eq]
  have hcovered : ∀ entry ∈ (books.dayEntries date currency).filter
      (fun entry => books.glCode entry.accountNumber = some code),
      entry.accountNumber ∈ books.members currency code := by
    intro entry hentry
    obtain ⟨hday, hcode⟩ := List.mem_filter.mp hentry
    have hmapped := of_decide_eq_true hcode
    rw [Books.glCode] at hmapped
    obtain ⟨wallet, hfound, hmapping⟩ := Option.bind_eq_some_iff.mp hmapped
    obtain ⟨hmem, hkey⟩ := Table.find?_eq_some.mp hfound
    have hcurrency := List.countP_eq_zero.mp hready.currencyMismatch entry hday
    rw [hfound, Option.any_some, decide_eq_true_eq, not_not] at hcurrency
    exact Books.mem_members.mpr
      ⟨wallet, List.mem_filter.mpr ⟨hmem, decide_eq_true hcurrency⟩, hkey, hmapping⟩
  rw [← sum_accountOf Books.nodup_members hcovered, Books.position]
  apply congrArg
  apply List.map_congr_left
  intro msisdn hmember
  have hcode := Books.glCode_of_member hmember
  rw [accountOf, Books.moved, ← hsound.walletActivity_eq, List.filter_filter,
    Books.walletActivity]
  congr 2
  apply List.filter_congr
  intro entry _
  by_cases haccount : entry.accountNumber = msisdn
  · simp [haccount, hcode]
  · simp [haccount]

end Sound

end Finify.Eod
