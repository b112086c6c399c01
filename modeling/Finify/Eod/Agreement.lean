/-
# The general ledger against the wallets

The two balances of a day agree in every run in which the lines of a transaction move a wallet
towards the normal side of its account, nothing is written to a closed day, no request for
commission funding or charge revenue is approved, and a close finds the entries of a wallet in
the order in which they were applied.  A posting to the commission wallet, whose account is
debit-normal, moves the two apart, and so does commission funding, which writes no entry.
-/

import Finify.Eod.Subledger

namespace Finify.Eod

open Finify.Foundations
open Finify.Posting (JournalStatus)

/-! ## What these runs keep -/

/-- Entries moved their wallets as the accounts count them, balances taken before the next
date are what was moved until then, and completed closes agree. -/
structure Agreeing (currency : String) (diary : Diary) : Prop where
  continued : Continued currency diary
  accounted : Accounted diary.books
  sided : ∀ entry ∈ diary.books.entries.rows,
    ∀ account ∈ diary.books.glAccount entry.accountNumber,
      entry.change = account.signed entry.debit entry.credit
  wallets : ∀ date, diary.standing.Admits date → ∀ wallet closing,
    diary.books.previousClosing date currency wallet = some closing →
      closing = diary.books.moved wallet fun entry => entry.businessDate < date
  accounts : ∀ last, diary.standing = .closed last →
    ∀ row ∈ diary.books.dayGlBalances last currency, row.closingBalance =
      diary.books.position currency row.glAccountCode fun entry => entry.businessDate ≤ last
  agreements : ∀ run ∈ diary.books.runs.rows, run.Closes → Agreement diary.books run

theorem Agreement.of_same {before after : Books} {run : Run} (hagrees : Agreement before run)
    (hsame : SameBalances before after) (hruns : after.runs = before.runs)
    (hmappings : after.mappings = before.mappings) : Agreement after run where
  debits := by
    rw [hsame.dayGlBalances]
    exact hagrees.debits
  credits := by
    rw [hsame.dayGlBalances]
    exact hagrees.credits
  balanced := hagrees.balanced
  opens := hagrees.opens.of_same hsame hruns
  subledger := by
    rw [hmappings, hsame.dayGlBalances, hsame.dayBalances]
    exact hagrees.subledger

namespace Agreeing

variable {currency : String} {before after : Diary}

/-- What leaves the tables of the closes alone, and what was moved up to the last closed date,
keeps the two ledgers in agreement. -/
theorem of_same (hagreeing : Agreeing currency before)
    (hcontinued : Continued currency after) (haccounted : Accounted after.books)
    (hsided : ∀ entry ∈ after.books.entries.rows,
      ∀ account ∈ after.books.glAccount entry.accountNumber,
        entry.change = account.signed entry.debit entry.credit)
    (hstanding : after.standing = before.standing)
    (hbalances : SameBalances before.books after.books)
    (hruns : after.books.runs = before.books.runs)
    (hmappings : after.books.mappings = before.books.mappings)
    (hmoved : ∀ last, before.standing = .closed last → ∀ wallet,
      after.books.moved wallet (fun entry => entry.businessDate ≤ last) =
        before.books.moved wallet fun entry => entry.businessDate ≤ last)
    (hposition : ∀ last, before.standing = .closed last → ∀ code,
      after.books.position currency code (fun entry => entry.businessDate ≤ last) =
        before.books.position currency code fun entry => entry.businessDate ≤ last) :
    Agreeing currency after where
  continued := hcontinued
  accounted := haccounted
  sided := hsided
  wallets := by
    intro date hadmits wallet closing hclosing
    rw [hstanding] at hadmits
    have hprevious : before.books.previousClosing date currency wallet = some closing := by
      rw [← hclosing, Books.previousClosing, Books.previousBalance, Books.previousClosing,
        Books.previousBalance, hbalances.wallets]
    cases hbegun : before.standing with
    | closed last =>
      have hnext : date = last + 1 := by
        rw [hbegun] at hadmits
        exact hadmits
      have hkept := hagreeing.wallets date hadmits wallet closing hprevious
      rw [hnext] at hkept ⊢
      simp only [Int.lt_add_one_iff] at hkept ⊢
      rw [hkept, hmoved last hbegun]
    | untried | tried next =>
      obtain ⟨hnone, _⟩ := hcontinued.nothingBefore
        (by rw [hstanding, hbegun]; rfl) date (by rw [hstanding]; exact hadmits)
      rw [Books.previousClosing_eq_none hnone] at hclosing
      cases hclosing
  accounts := by
    intro last hlast row hrow
    rw [hstanding] at hlast
    rw [hbalances.dayGlBalances] at hrow
    rw [hposition last hlast]
    exact hagreeing.accounts last hlast row hrow
  agreements := by
    intro run hrun hcloses
    rw [hruns] at hrun
    exact (hagreeing.agreements run hrun hcloses).of_same hbalances hruns hmappings

/-- A transaction whose lines move their wallets as the accounts count them, and that comes
after the last closed date. -/
theorem write (hagreeing : Agreeing currency before) {writer : Writer} (status : JournalStatus)
    {movement : Movement}
    (hguard : InStep currency before (.write writer status movement))
    (hstep : Diary.step currency before (.write writer status movement) = some after) :
    Agreeing currency after := by
  have hcontinued := hagreeing.continued.step hstep
  simp only [Diary.step, Option.ite_none_right_eq_some, Option.some.injEq] at hstep
  obtain ⟨⟨_, hknown⟩, rfl⟩ := hstep
  obtain ⟨hprecedes, hside⟩ := hguard
  have hsame := before.books.write_sameCloses writer status movement.lines
  obtain ⟨hcode, hmembers, _⟩ := write_accounts before.books writer status movement.lines
  have haccount : ∀ msisdn,
      (before.books.write writer status movement.lines).glAccount msisdn =
        before.books.glAccount msisdn := by
    intro msisdn
    rw [Books.glAccount, hcode, hsame.accounts, Books.glAccount]
  have hmoved : ∀ last, before.standing = .closed last → ∀ wallet,
      (before.books.write writer status movement.lines).moved wallet
          (fun entry => entry.businessDate ≤ last) =
        before.books.moved wallet fun entry => entry.businessDate ≤ last := by
    intro last hlast wallet
    apply moved_write
    intro entry hdate
    rw [hlast] at hprecedes
    rw [hdate]
    exact decide_eq_false (not_le.mpr hprecedes)
  have hposition : ∀ last, before.standing = .closed last → ∀ code,
      (before.books.write writer status movement.lines).position currency code
          (fun entry => entry.businessDate ≤ last) =
        before.books.position currency code fun entry => entry.businessDate ≤ last := by
    intro last hlast code
    simp only [Books.position, hmembers, hmoved last hlast]
  have hsided : ∀ entry ∈ (before.books.write writer status movement.lines).entries.rows,
      ∀ account ∈ (before.books.write writer status movement.lines).glAccount
        entry.accountNumber,
        entry.change = account.signed entry.debit entry.credit := by
    intro entry hentry account hfound
    rw [haccount] at hfound
    obtain ⟨added, hrows, hadded⟩ := write_lines before.books writer status hknown
    rw [hrows] at hentry
    rcases List.mem_append.mp hentry with hold | hnew
    · exact hagreeing.sided entry hold account hfound
    · obtain ⟨_, line, hline, hnumber, hdebit, hcredit, hchange⟩ := hadded entry hnew
      rw [hnumber] at hfound
      rw [hchange, hdebit, hcredit]
      exact hside line hline account hfound
  exact hagreeing.of_same hcontinued (hagreeing.accounted.write writer status hknown) hsided rfl
    ⟨hsame.walletBalances, hsame.glBalances⟩ hsame.runs hsame.mappings hmoved hposition

/-- Nothing has moved a new wallet. -/
theorem openWallet (hagreeing : Agreeing currency before) {msisdn code : ℤ}
    {walletCurrency : String}
    (hstep : Diary.step currency before (.openWallet msisdn code walletCurrency) = some after) :
    Agreeing currency after := by
  have hcontinued := hagreeing.continued.step hstep
  simp only [Diary.step, Option.map_eq_some_iff] at hstep
  obtain ⟨wallets, hinsert, rfl⟩ := hstep
  obtain ⟨hfresh, hrows⟩ := Table.insert?_eq_some hinsert
  have hknown := hagreeing.continued.sound.known
  have hsided : ∀ entry ∈ before.books.entries.rows,
      ∀ account ∈ ({ before.books with wallets := wallets } : Books).glAccount
        entry.accountNumber,
        entry.change = account.signed entry.debit entry.credit := by
    intro entry hentry account hfound
    have hne : entry.accountNumber ≠ msisdn := by
      intro hsame
      apply hknown entry hentry
      rw [Books.balance, hsame, hfresh, Option.map_none]
    have hsame : ({ before.books with wallets := wallets } : Books).glAccount
        entry.accountNumber = before.books.glAccount entry.accountNumber := by
      rw [Books.glAccount, Books.glCode, Table.find?_of_insert? hinsert, if_neg hne]
      rfl
    rw [hsame] at hfound
    exact hagreeing.sided entry hentry account hfound
  have hmoved : ∀ wallet selected, ({ before.books with wallets := wallets } : Books).moved
      wallet selected = before.books.moved wallet selected := fun _ _ => rfl
  have hnone : ∀ selected, before.books.moved msisdn selected = 0 := by
    intro selected
    rw [Books.moved, hagreeing.continued.sound.history_of_unknown hfresh]
    rfl
  have hposition : ∀ other selected, ({ before.books with wallets := wallets } : Books).position
      currency other selected = before.books.position currency other selected := by
    intro other selected
    show (((List.filter _ (List.filter _ wallets.rows)).map Wallet.walletMsisdn).map
      (before.books.moved · selected)).sum = _
    rw [hrows, List.filter_append, List.filter_append, List.map_append, List.map_append,
      List.sum_append, Books.position]
    apply add_eq_left.mpr
    apply List.sum_eq_zero
    intro value hvalue
    obtain ⟨found, hfound, hmovedValue⟩ := List.mem_map.mp hvalue
    obtain ⟨wallet, hwallet, hkey⟩ := List.mem_map.mp hfound
    have hnew := List.mem_of_mem_filter (List.mem_of_mem_filter hwallet)
    rw [← hmovedValue, ← hkey, List.mem_singleton.mp hnew]
    exact hnone selected
  have haccounted : Accounted { before.books with wallets := wallets } :=
    hagreeing.accounted.openWallet hagreeing.continued.sound rfl hinsert
  exact hagreeing.of_same hcontinued haccounted hsided rfl ⟨rfl, rfl⟩ rfl rfl
    (fun _ _ _ => rfl) (fun _ _ _ => hposition _ _)

end Agreeing

/-! ## Closing -/

/-- Movements counted by an account add up. -/
theorem GlAccount.sum_signed (account : GlAccount) (entries : List Entry) :
    (entries.map fun entry => account.signed entry.debit entry.credit).sum =
      account.signed (entries.map Entry.debit).sum (entries.map Entry.credit).sum := by
  induction entries with
  | nil =>
    unfold GlAccount.signed
    cases account.normalBalance <;> rfl
  | cons entry entries ih =>
    simp only [List.map_cons, List.sum_cons, ih]
    unfold GlAccount.signed
    cases account.normalBalance
    · exact (add_sub_add_comm _ _ _ _).symm
    · exact (add_sub_add_comm _ _ _ _).symm

namespace Agreeing

variable {currency : String} {before : Diary} {date : Date} {account : GlAccount}

/-- The account of a wallet that is mapped to its code. -/
theorem glAccount_eq {books : Books} {msisdn : ℤ} (haccount : account ∈ books.accounts.rows)
    (hcode : books.glCode msisdn = some account.accountCode) :
    books.glAccount msisdn = some account := by
  rw [Books.glAccount, hcode, Option.bind_some]
  exact Table.find?_key haccount

/-- At the first close an account opens with what was moved before the date. -/
theorem glOpening_first (hagreeing : Agreeing currency before)
    (hadmits : before.standing.Admits date) (hclosable : Closable before date currency)
    (hbegun : before.standing.begun = false) (haccount : account ∈ before.books.accounts.rows) :
    (before.books.snapshotWallets date currency).glOpening date currency account =
      before.books.position currency account.accountCode
        fun entry => entry.businessDate < date := by
  obtain ⟨hnoWallets, hnoGl⟩ := hagreeing.continued.nothingBefore hbegun date hadmits
  have hnone : (before.books.snapshotWallets date currency).previousGlClosing date currency
      account.accountCode = none := Books.previousGlClosing_eq_none hnoGl
  have hbalances : (before.books.snapshotWallets date currency).dayBalances date currency =
      before.books.walletSnapshots date currency := before.books.dayBalances_snapshot date currency
  have hbegins : ∀ wallet ∈ before.books.walletsOf currency,
      before.books.glCode wallet.walletMsisdn = some account.accountCode →
        BeginsInSequence before.books date currency wallet.walletMsisdn
          account.accountType.carriesBalance := by
    intro wallet hwallet hcode
    exact hclosable.beginning hbegun wallet hwallet account (glAccount_eq haccount hcode)
  rw [Books.glOpening, hnone, Option.getD_none, hbalances]
  cases hcarries : account.accountType.carriesBalance with
  | true =>
    rw [if_pos rfl]
    apply Books.sum_walletSnapshots
    intro wallet hwallet mapping hmapping hcode
    have hmember : before.books.glCode wallet.walletMsisdn = some account.accountCode :=
      Books.glCode_of_member (Books.mem_members.mpr
        ⟨wallet, hwallet, rfl, by rw [hmapping, Option.map_some, hcode]⟩)
    have hfirst := hbegins wallet hwallet hmember
    rw [hcarries] at hfirst
    exact hagreeing.continued.sound.opening_eq hagreeing.accounted hwallet
      (hclosable.sequence wallet hwallet (by simp [hmapping])) hfirst
      (Books.previousClosing_eq_none hnoWallets)
  | false =>
    rw [if_neg Bool.false_ne_true]
    symm
    apply List.sum_eq_zero
    intro value hvalue
    obtain ⟨msisdn, hmember, hmoved⟩ := List.mem_map.mp hvalue
    obtain ⟨wallet, hwallet, hkey, _⟩ := Books.mem_members.mp hmember
    have hcode := Books.glCode_of_member hmember
    rw [← hkey] at hcode hmoved
    have hfirst := hbegins wallet hwallet hcode
    rw [hcarries] at hfirst
    have hlater : ∀ entry ∈ before.books.history wallet.walletMsisdn,
        date ≤ entry.businessDate := hfirst
    rw [← hmoved, Books.moved, List.filter_eq_nil_iff.mpr]
    · rfl
    · intro entry hentry hbefore
      exact absurd (of_decide_eq_true hbefore) (not_lt.mpr (hlater entry hentry))

/-- An active account opens with what was moved before the date. -/
theorem glOpening_eq (hagreeing : Agreeing currency before)
    (hadmits : before.standing.Admits date) (hclosable : Closable before date currency)
    (haccount : account ∈ before.books.accounts.rows) (hactive : account.isActive) :
    (before.books.snapshotWallets date currency).glOpening date currency account =
      before.books.position currency account.accountCode
        fun entry => entry.businessDate < date := by
  cases hstanding : before.standing with
  | untried => exact hagreeing.glOpening_first hadmits hclosable (by rw [hstanding]; rfl) haccount
  | tried next =>
    exact hagreeing.glOpening_first hadmits hclosable (by rw [hstanding]; rfl) haccount
  | closed last =>
    have hnext : date = last + 1 := by
      rw [hstanding] at hadmits
      exact hadmits
    obtain ⟨row, hrow, hcode⟩ :=
      hagreeing.continued.complete hstanding haccount hactive
    rw [hnext, Books.glOpening_of_row hrow hcode, hagreeing.accounts last hstanding row hrow,
      hcode]
    simp only [Int.lt_add_one_iff]

/-- An active account closes with what was moved up to the date. -/
theorem glClosing_eq (hagreeing : Agreeing currency before)
    (hadmits : before.standing.Admits date) (hclosable : Closable before date currency)
    (hready : before.books.Ready date currency) (haccount : account ∈ before.books.accounts.rows)
    (hactive : account.isActive) :
    ((before.books.snapshotWallets date currency).glSnapshot date currency
      account).closingBalance =
      before.books.position currency account.accountCode
        fun entry => entry.businessDate ≤ date := by
  have hopening := hagreeing.glOpening_eq hadmits hclosable haccount hactive
  have hclosing : ((before.books.snapshotWallets date currency).glSnapshot date currency
      account).closingBalance =
      (before.books.snapshotWallets date currency).glOpening date currency account +
        account.signed
          ((before.books.glActivity date currency account.accountCode).map Entry.debit).sum
          ((before.books.glActivity date currency account.accountCode).map Entry.credit).sum := by
    rw [GlAccount.signed]
    simp only [Books.glSnapshot]
    cases account.normalBalance
    · exact add_sub_assoc _ _ _
    · exact add_sub_assoc _ _ _
  have hchange : (before.books.glActivity date currency account.accountCode).map
        (fun entry => account.signed entry.debit entry.credit) =
      (before.books.glActivity date currency account.accountCode).map Entry.change := by
    apply List.map_congr_left
    intro entry hentry
    rw [Sound.glActivity_eq] at hentry
    obtain ⟨hday, hcode⟩ := List.mem_filter.mp hentry
    exact (hagreeing.sided entry (List.mem_of_mem_filter hday) account
      (glAccount_eq haccount (of_decide_eq_true hcode))).symm
  rw [hclosing, hopening, ← account.sum_signed, hchange,
    hagreeing.continued.sound.sum_change hready, Books.position_upTo]

/-- The wallets of an account close with what was moved up to the date. -/
theorem sum_closings (hagreeing : Agreeing currency before)
    (hadmits : before.standing.Admits date) (hclosable : Closable before date currency)
    (code : String) :
    (((before.books.walletSnapshots date currency).filter fun balance =>
      balance.glAccountCode = code).map WalletBalance.closingBalance).sum =
      before.books.position currency code fun entry => entry.businessDate ≤ date := by
  apply Books.sum_walletSnapshots
  intro wallet hwallet mapping hmapping _
  apply hagreeing.continued.sound.closing_eq hagreeing.accounted hwallet
  · exact hclosable.sequence wallet hwallet (by simp [hmapping])
  · exact hagreeing.wallets date hadmits wallet.walletMsisdn

/-- A completed close leaves the two ledgers in agreement. -/
theorem agreement (hagreeing : Agreeing currency before) {books : Books} {run : Run}
    {completed : Prop} (hadmits : before.standing.Admits date)
    (hclosable : Closable before date currency)
    (hattempted : Attempted before.books books date currency completed) (hcompleted : completed)
    (hof : RunOf before.books date currency completed run) (hcloses : run.Closes)
    (hopens : OpensAsClosed books run) : Agreement books run := by
  have hready := hattempted.ready hcompleted
  have htaken := Continued.taken hattempted hcompleted
  have hsound := hagreeing.continued.sound
  obtain ⟨_, hfigures⟩ := hof.figures hcloses
  have hrows : books.dayGlBalances run.businessDate run.currency =
      (before.books.snapshotWallets date currency).glSnapshots date currency := by
    rw [hof.ofDate, hof.ofCurrency, htaken.dayGlBalances, Books.dayGlBalances_snapshot]
  have hbalances : books.dayBalances run.businessDate run.currency =
      before.books.walletSnapshots date currency := by
    rw [hof.ofDate, hof.ofCurrency, htaken.dayBalances, Books.dayBalances_snapshot]
  constructor
  · rw [hrows, hfigures.totalDebit, Books.glSnapshots, List.map_map]
    exact hsound.sum_glActivity hready hclosable.active Entry.debit
  · rw [hrows, hfigures.totalCredit, Books.glSnapshots, List.map_map]
    exact hsound.sum_glActivity hready hclosable.active Entry.credit
  · rw [hfigures.totalDebit, hfigures.totalCredit]
    exact hsound.sum_dayEntries hready
  · exact hopens
  · intro mapping hmapping hon
    rw [hattempted.ledger.mappings] at hmapping
    obtain ⟨account, haccount, hcode, hactive⟩ := hclosable.active mapping hmapping hon
    rw [hrows, hbalances]
    refine ⟨_, List.mem_map_of_mem (List.mem_filter.mpr ⟨haccount, hactive⟩), hcode, ?_⟩
    rw [hagreeing.glClosing_eq hadmits hclosable hready haccount hactive]
    exact (hagreeing.sum_closings hadmits hclosable account.accountCode).symm

/-- An attempt on a closable date keeps the two ledgers in agreement. -/
theorem attempt (hagreeing : Agreeing currency before) {books : Books} {completed : Prop}
    [Decidable completed] (hadmits : before.standing.Admits date)
    (hclosable : Closable before date currency)
    (hattempted : Attempted before.books books date currency completed) :
    Agreeing currency
      { books := books, standing := before.standing.afterClose date completed } := by
  have hcontinued := hagreeing.continued.attempt hadmits hattempted
  have hledger := hattempted.ledger
  have hposition : ∀ code selected, books.position currency code selected =
      before.books.position currency code selected := by
    intro code selected
    simp only [Books.position, hledger.members, hledger.moved]
  obtain ⟨added, hruns, hadded⟩ := hattempted.runs
  constructor
  · exact hcontinued
  · exact hagreeing.accounted.of_same hledger.wallets hledger.entries
  · intro entry hentry account hfound
    rw [hledger.entries] at hentry
    have hsame : books.glAccount entry.accountNumber =
        before.books.glAccount entry.accountNumber := by
      rw [Books.glAccount, hledger.glCode, hledger.accounts, Books.glAccount]
    rw [hsame] at hfound
    exact hagreeing.sided entry hentry account hfound
  · intro next hnext wallet closing hclosing
    by_cases hcompleted : completed
    · rw [decide_eq_true hcompleted] at hnext
      have hday : next = date + 1 := hnext
      have htaken := Continued.taken hattempted hcompleted
      -- the wallet had a row, so it is still mapped, and the snapshot has one of the date
      obtain ⟨prior, hprior, _⟩ := Option.map_eq_some_iff.mp hclosing
      obtain ⟨hmem, hfacts⟩ := List.mem_filter.mp (latest_mem hprior)
      obtain ⟨hcurrency, hmsisdn, _⟩ := of_decide_eq_true hfacts
      obtain ⟨code, hmember⟩ := hcontinued.listed prior hmem hcurrency
      rw [hmsisdn, hledger.members] at hmember
      obtain ⟨found, hfound, hkey, hcode⟩ := Books.mem_members.mp hmember
      obtain ⟨mapping, hmapping, _⟩ := Option.map_eq_some_iff.mp hcode
      have hrow : before.books.walletSnapshot date currency found mapping ∈
          books.dayBalances date currency := by
        rw [htaken.dayBalances, Books.dayBalances_snapshot]
        exact (before.books.mem_walletSnapshots _ _).mpr ⟨found, hfound, mapping, hmapping, rfl⟩
      have hlast := Books.previousClosing_of_row hrow
      rw [show (before.books.walletSnapshot date currency found mapping).walletMsisdn = wallet
        from hkey, ← hday] at hlast
      rw [hlast] at hclosing
      cases hclosing
      rw [hagreeing.continued.sound.closing_eq hagreeing.accounted hfound
        (hclosable.sequence found hfound (by simp [hmapping]))
        (hagreeing.wallets date hadmits found.walletMsisdn), hkey, hledger.moved, hday]
      simp only [Int.lt_add_one_iff]
    · rw [decide_eq_false hcompleted] at hnext
      cases hstanding : before.standing with
      | untried | tried first =>
        rw [hstanding, decide_eq_false hcompleted] at hcontinued
        rw [hstanding] at hnext
        obtain ⟨hnone, _⟩ := hcontinued.nothingBefore rfl next hnext
        rw [Books.previousClosing_eq_none hnone] at hclosing
        cases hclosing
      | closed last =>
        rw [hstanding] at hnext
        have hsame : next = date := by
          rw [hstanding] at hadmits
          rw [show next = last + 1 from hnext, show date = last + 1 from hadmits]
        rw [hsame] at hclosing ⊢
        have hprevious : before.books.previousClosing date currency wallet = some closing := by
          rw [← hclosing]
          rcases hattempted.balances with ⟨hbalances, _⟩ | htaken
          · rw [Books.previousClosing, Books.previousBalance, Books.previousClosing,
              Books.previousBalance, hbalances.wallets]
          · rw [← before.books.previousClosing_snapshot, Books.previousClosing,
              Books.previousBalance, Books.previousClosing, Books.previousBalance,
              htaken.wallets]
        rw [hledger.moved]
        exact hagreeing.wallets date hadmits wallet closing hprevious
  · intro last hlast row hrow
    rw [hposition]
    rcases Standing.closed_of_afterClose hadmits hlast with ⟨hcompleted, rfl⟩ | ⟨hstanding, hless⟩
    · have hcompleted := of_decide_eq_true hcompleted
      rw [(Continued.taken hattempted hcompleted).dayGlBalances] at hrow
      obtain ⟨account, haccount, hactive, hsnapshot⟩ :=
        Books.mem_dayGlBalances_snapshot.mp hrow
      rw [← hsnapshot]
      exact hagreeing.glClosing_eq hadmits hclosable (hattempted.ready hcompleted) haccount
        hactive
    · rw [Continued.dayGlBalances_attempted hattempted hless.ne] at hrow
      exact hagreeing.accounts last hstanding row hrow
  · intro run hrun hcloses
    have hopens := hcontinued.opens run hrun hcloses
    rw [hruns] at hrun
    rcases List.mem_append.mp hrun with hold | hnew
    · have hne := (hagreeing.continued.ne_of_closes hadmits hold hcloses).ne
      have hcurrency := (hagreeing.continued.closed run hold hcloses).1
      have hagrees := hagreeing.agreements run hold hcloses
      have hgl : books.dayGlBalances run.businessDate run.currency =
          before.books.dayGlBalances run.businessDate run.currency := by
        rw [hcurrency]
        exact Continued.dayGlBalances_attempted hattempted hne
      have hwallets : books.dayBalances run.businessDate run.currency =
          before.books.dayBalances run.businessDate run.currency := by
        rw [hcurrency]
        exact Continued.dayBalances_attempted hattempted hne
      constructor
      · rw [hgl]
        exact hagrees.debits
      · rw [hgl]
        exact hagrees.credits
      · exact hagrees.balanced
      · exact hopens
      · rw [hgl, hwallets, hledger.mappings]
        exact hagrees.subledger
    · have hof := hadded run hnew
      exact hagreeing.agreement hadmits hclosable hattempted (hof.figures hcloses).1 hof hcloses
        hopens

/-- Every step that meets the condition keeps the two ledgers in agreement. -/
theorem step {after : Diary} {event : Diary.Event} (hagreeing : Agreeing currency before)
    (hguard : InStep currency before event)
    (hstep : Diary.step currency before event = some after) : Agreeing currency after := by
  cases event with
  | write writer status movement => exact hagreeing.write status hguard hstep
  | fund msisdn change => exact hguard.elim
  | mark journalId status =>
    have hcontinued := hagreeing.continued.step hstep
    cases hstep
    have haccounted : Accounted (before.books.markJournal journalId status) :=
      hagreeing.accounted.of_same rfl rfl
    exact hagreeing.of_same hcontinued haccounted hagreeing.sided rfl ⟨rfl, rfl⟩ rfl rfl
      (fun _ _ _ => rfl) (fun _ _ _ => rfl)
  | openWallet msisdn code walletCurrency => exact hagreeing.openWallet hstep
  | close request =>
    obtain ⟨date, hdate, hadmits, hattempted, rfl⟩ := hagreeing.continued.closed_of_step hstep
    exact hagreeing.attempt hadmits (hguard date hdate) hattempted

end Agreeing

/-! ## Runs -/

/-- In every run from empty wallets in which the lines of a transaction move their wallets as
the accounts count them and come after the last closed date, and a close finds the entries of
its wallets in sequence and their accounts active, general ledger and wallets agree at every
completed close. -/
theorem ledgers_agree {currency : String} {start diary : Diary}
    (hfounded : Diary.Founded start)
    (hrun : ReachesUnder (Diary.step currency) (InStep currency) start diary) :
    ∀ run ∈ diary.books.runs.rows, run.Closes → Agreement diary.books run := by
  have hstart : Agreeing currency start := by
    have hcontinued : Continued currency start := .of_founded hfounded
    constructor
    · exact hcontinued
    · exact .of_founded hfounded
    · simp [hfounded.entries]
    · intro date hadmits wallet closing hclosing
      obtain ⟨hnone, _⟩ := hcontinued.nothingBefore (by rw [hfounded.standing]; rfl) date hadmits
      rw [Books.previousClosing_eq_none hnone] at hclosing
      cases hclosing
    · intro last hlast
      rw [hfounded.standing] at hlast
      cases hlast
    · simp [hfounded.runs]
  have hagreeing : Agreeing currency diary := by
    apply ReachesUnder.preserves (Agreeing currency) _ hrun hstart
    intro before event after hbefore hguard hstep
    exact hbefore.step hguard hstep
  exact hagreeing.agreements

/-- A safeguarding wallet, its funding source, a customer and the commission wallet, all
empty. -/
def emptyWallets : Diary where
  books :=
    { wallets := ⟨[{ walletMsisdn := 110, walletCode := 110, amount := 0, currency := "GBP" },
        { walletMsisdn := 115, walletCode := 115, amount := 0, currency := "GBP" },
        { walletMsisdn := 7, walletCode := 1, amount := 0, currency := "GBP" },
        { walletMsisdn := 114, walletCode := 114, amount := 0, currency := "GBP" }], by decide⟩
      mappings := ⟨[{ walletCode := 110, glAccountCode := "1000-SAFEGUARDING" },
        { walletCode := 115, glAccountCode := "2910-TREASURY-FUNDING" },
        { walletCode := 1, glAccountCode := "2000-CUSTOMER-WALLET", isSafeguarded := true },
        { walletCode := 114, glAccountCode := "5000-COMMISSION-EXPENSE" }], by decide⟩
      accounts := ⟨[
        { accountCode := "1000-SAFEGUARDING", accountType := .asset, normalBalance := .debit },
        { accountCode := "2910-TREASURY-FUNDING", accountType := .liability,
          normalBalance := .credit },
        { accountCode := "2000-CUSTOMER-WALLET", accountType := .liability,
          normalBalance := .credit },
        { accountCode := "5000-COMMISSION-EXPENSE", accountType := .expense,
          normalBalance := .debit }], by decide⟩
      configurations := [{ currency := "GBP", masterWallet := 110, effectiveFrom := 1 }]
      journals := .empty
      entries := .empty
      periods := .empty
      batches := .empty
      runs := .empty
      walletBalances := .empty
      glBalances := .empty }

theorem emptyWallets_founded : Diary.Founded emptyWallets :=
  ⟨rfl, by decide, rfl, rfl, rfl, rfl⟩

def closeOf (date : Date) : Diary.Event :=
  .close { businessDate := some date, currency := some "GBP" }

/-- On day 5 the safeguarding wallet is funded with 100, of which a customer receives 30; on
day 6 the customer sends 10 to a wallet that was opened in between.  Both days are closed. -/
def fundedCustomers : List Diary.Event :=
  [.write (.treasury 9 5 "GBP" 5) .completed (.treasury 110 115 .credit 100),
    .write (.posting 10 5 "GBP") .completed (.posting [(115, .debit, 30), (7, .credit, 30)]),
    closeOf 5, .openWallet 8 1 "GBP",
    .write (.posting 20 6 "GBP") .completed (.posting [(7, .debit, 10), (8, .credit, 10)]),
    closeOf 6]

/-- Both closes of this run leave the ledgers in agreement. -/
theorem ledgers_agree_funded :
    ∃ diary, ReachesUnder (Diary.step "GBP") (InStep "GBP") emptyWallets diary ∧
      (∃ run ∈ diary.books.runs.rows, run.businessDate = 6 ∧ run.Closes) ∧
      ∀ run ∈ diary.books.runs.rows, run.Closes → Agreement diary.books run := by
  have hany : (runInputs (guardedStep (Diary.step "GBP") (InStep "GBP")) emptyWallets
      fundedCustomers).any (fun diary => ∃ run ∈ diary.books.runs.rows, run.businessDate = 6 ∧
        run.status = .completed ∧ run.dryRun = false) := by
    decide +kernel
  obtain ⟨diary, hrun, hfacts⟩ := (Option.any_eq_true _ _).mp hany
  have hreach := (Reaches.of_runInputs hrun).under
  obtain ⟨run, hmem, hdate, hcloses⟩ := of_decide_eq_true hfacts
  exact ⟨diary, hreach, ⟨run, hmem, hdate, hcloses⟩, ledgers_agree emptyWallets_founded hreach⟩

/-- On day 5 the commission wallet receives 40: by an approved request for commission funding,
or by a posting from a funding source. -/
def commissionFunded (byPosting : Bool) : List Diary.Event :=
  (if byPosting then
    [.write (.treasury 9 5 "GBP" 5) .completed (.treasury 110 115 .credit 100),
      .write (.posting 10 5 "GBP") .completed (.posting [(115, .debit, 40), (114, .credit, 40)])]
  else [.fund 114 40]) ++ [closeOf 5]

/-- Either way day 5 is closed with 40 for the commission wallet; its account closes with 0 in
the first case and with -40 in the second. -/
theorem commission_disagrees :
    Diary.Founded emptyWallets ∧
      ∀ byPosting : Bool, ∃ diary, Reaches (Diary.step "GBP") emptyWallets diary ∧
        diary.books.balance 114 = some 40 ∧
        ∃ run ∈ diary.books.runs.rows, run.Closes ∧
          (∃ row ∈ diary.books.dayGlBalances 5 "GBP",
            row.glAccountCode = "5000-COMMISSION-EXPENSE" ∧
              row.closingBalance = if byPosting then -40 else 0) ∧
          ¬ Agreement diary.books run := by
  refine ⟨emptyWallets_founded, fun byPosting => ?_⟩
  have hany : (runInputs (Diary.step "GBP") emptyWallets (commissionFunded byPosting)).any
      (fun diary => diary.books.balance 114 = some 40 ∧
        ∃ run ∈ diary.books.runs.rows, (run.status = .completed ∧ run.dryRun = false) ∧
          (∃ row ∈ diary.books.dayGlBalances 5 "GBP",
            row.glAccountCode = "5000-COMMISSION-EXPENSE" ∧
              row.closingBalance = if byPosting then -40 else 0) ∧
          ∃ mapping ∈ diary.books.mappings.rows, mapping.isActive ∧
            ∀ row ∈ diary.books.dayGlBalances run.businessDate run.currency,
              row.glAccountCode = mapping.glAccountCode →
                row.closingBalance ≠
                  (((diary.books.dayBalances run.businessDate run.currency).filter
                    fun balance => balance.glAccountCode = row.glAccountCode).map
                      WalletBalance.closingBalance).sum) := by
    cases byPosting <;> decide +kernel
  obtain ⟨diary, hrun, hfacts⟩ := (Option.any_eq_true _ _).mp hany
  obtain ⟨hbalance, run, hmem, hcloses, hrow, mapping, hmapping, hon, hdiffers⟩ :=
    of_decide_eq_true hfacts
  refine ⟨diary, Reaches.of_runInputs hrun, hbalance, run, hmem, hcloses, hrow,
    fun hagrees => ?_⟩
  obtain ⟨row, hday, hcode, hclosing⟩ := hagrees.subledger mapping hmapping hon
  exact hdiffers row hday hcode hclosing

end Finify.Eod
