/-
# From one closed day to the next

The daily tables in the runs of the diary.  A close writes the rows of its own day only, and
every completed close finds those of the day before.  The module proves that in every run the
general ledger opens each day with what it closed the day before.
-/

import Finify.Eod.Diary

namespace Finify.Eod

open Finify.Foundations

/-! ## The daily tables -/

namespace Books

variable {books : Books} {date day : Date} {currency : String}

/-- What is selected of the GL balances of other dates stays as it was. -/
theorem filter_glBalances_snapshot {selected : GlBalance → Bool}
    (hselected : ∀ balance : GlBalance, balance.businessDate = date →
      selected balance = false) :
    (books.snapshot date currency).glBalances.rows.filter selected =
      books.glBalances.rows.filter selected := by
  show List.filter _ (List.filter _ _ ++ _) = _
  have hnone : ((books.snapshotWallets date currency).glSnapshots date currency).filter
      selected = [] := by
    apply List.filter_eq_nil_iff.mpr
    intro row hrow hchosen
    obtain ⟨_, _, rfl⟩ := List.mem_map.mp hrow
    rw [hselected _ rfl] at hchosen
    cases hchosen
  rw [List.filter_append, hnone, List.append_nil, List.filter_filter]
  apply List.filter_congr
  intro row _
  by_cases hday : row.businessDate = date
  · simp [hselected row hday]
  · simp [GlBalance.key, hday]

/-- The balances of other dates stay as they were closed. -/
theorem dayGlBalances_snapshot_of_ne (hne : day ≠ date) :
    (books.snapshot date currency).dayGlBalances day currency =
      books.dayGlBalances day currency := by
  apply filter_glBalances_snapshot
  intro balance hdate
  simp [hdate, hne.symm]

theorem dayBalances_snapshot_of_ne (hne : day ≠ date) :
    (books.snapshot date currency).dayBalances day currency =
      books.dayBalances day currency := by
  show List.filter _ (List.filter _ _ ++ _) = _
  have hnone : ((books.walletSnapshots date currency).filter
      fun balance => balance.businessDate = day ∧ balance.currency = currency) = [] := by
    apply List.filter_eq_nil_iff.mpr
    intro row hrow hday
    obtain ⟨_, _, _, _, rfl⟩ := (books.mem_walletSnapshots _ _).mp hrow
    exact hne (of_decide_eq_true hday).1.symm
  rw [List.filter_append, hnone, List.append_nil, List.filter_filter, dayBalances]
  apply List.filter_congr
  intro row _
  by_cases hday : row.businessDate = day
  · simp [WalletBalance.key, hday, hne]
  · simp [hday]

/-- A row of the day before is the last one before a date. -/
theorem previousGlClosing_of_row {row : GlBalance}
    (hrow : row ∈ books.dayGlBalances day currency) :
    books.previousGlClosing (day + 1) currency row.glAccountCode = some row.closingBalance := by
  obtain ⟨hmem, hday⟩ := List.mem_filter.mp hrow
  obtain ⟨hdate, hcurrency⟩ := of_decide_eq_true hday
  have hprior : row ∈ books.glBalances.rows.filter fun prior =>
      prior.currency = currency ∧ prior.glAccountCode = row.glAccountCode ∧
        prior.businessDate < day + 1 :=
    List.mem_filter.mpr ⟨hmem, decide_eq_true
      ⟨hcurrency, rfl, by rw [hdate]; exact Int.lt_succ day⟩⟩
  rw [previousGlClosing]
  cases hlatest : latest GlBalance.businessDate (books.glBalances.rows.filter fun prior =>
      prior.currency = currency ∧ prior.glAccountCode = row.glAccountCode ∧
        prior.businessDate < day + 1) with
  | none =>
    rw [latest_eq_none.mp hlatest] at hprior
    cases hprior
  | some last =>
    obtain ⟨hlast, hfacts⟩ := List.mem_filter.mp (latest_mem hlatest)
    obtain ⟨hlastCurrency, hcode, hbefore⟩ := of_decide_eq_true hfacts
    have hle := le_latest hlatest hprior
    have hsame : last = row := by
      apply books.glBalances.eq_of_key_eq hlast hmem
      have hday : last.businessDate = row.businessDate :=
        le_antisymm (by rw [hdate]; exact Int.lt_add_one_iff.mp hbefore) hle
      simp [GlBalance.key, hday, hlastCurrency, hcurrency, hcode]
    rw [hsame, Option.map_some]

theorem previousClosing_of_row {row : WalletBalance}
    (hrow : row ∈ books.dayBalances day currency) :
    books.previousClosing (day + 1) currency row.walletMsisdn = some row.closingBalance := by
  obtain ⟨hmem, hday⟩ := List.mem_filter.mp hrow
  obtain ⟨hdate, hcurrency⟩ := of_decide_eq_true hday
  have hprior : row ∈ books.walletBalances.rows.filter fun prior =>
      prior.currency = currency ∧ prior.walletMsisdn = row.walletMsisdn ∧
        prior.businessDate < day + 1 :=
    List.mem_filter.mpr ⟨hmem, decide_eq_true
      ⟨hcurrency, rfl, by rw [hdate]; exact Int.lt_succ day⟩⟩
  rw [previousClosing, previousBalance]
  cases hlatest : latest WalletBalance.businessDate (books.walletBalances.rows.filter fun prior =>
      prior.currency = currency ∧ prior.walletMsisdn = row.walletMsisdn ∧
        prior.businessDate < day + 1) with
  | none =>
    rw [latest_eq_none.mp hlatest] at hprior
    cases hprior
  | some last =>
    obtain ⟨hlast, hfacts⟩ := List.mem_filter.mp (latest_mem hlatest)
    obtain ⟨hlastCurrency, hmsisdn, hbefore⟩ := of_decide_eq_true hfacts
    have hle := le_latest hlatest hprior
    have hsame : last = row := by
      apply books.walletBalances.eq_of_key_eq hlast hmem
      have hday : last.businessDate = row.businessDate :=
        le_antisymm (by rw [hdate]; exact Int.lt_add_one_iff.mp hbefore) hle
      simp [WalletBalance.key, hday, hlastCurrency, hcurrency, hmsisdn]
    rw [hsame, Option.map_some]

/-- Taking the balances of a date leaves the closing balances before it. -/
theorem previousClosing_snapshot (wallet : ℤ) :
    (books.snapshot date currency).previousClosing date currency wallet =
      books.previousClosing date currency wallet := by
  have hrows : (books.snapshot date currency).walletBalances.rows.filter (fun prior =>
      prior.currency = currency ∧ prior.walletMsisdn = wallet ∧ prior.businessDate < date) =
      books.walletBalances.rows.filter fun prior =>
        prior.currency = currency ∧ prior.walletMsisdn = wallet ∧ prior.businessDate < date := by
    show List.filter _ (List.filter _ _ ++ _) = _
    have hnone : ((books.walletSnapshots date currency).filter fun prior =>
        prior.currency = currency ∧ prior.walletMsisdn = wallet ∧ prior.businessDate < date) =
        [] := by
      apply List.filter_eq_nil_iff.mpr
      intro row hrow hprior
      obtain ⟨_, _, _, _, rfl⟩ := (books.mem_walletSnapshots _ _).mp hrow
      exact lt_irrefl date (of_decide_eq_true hprior).2.2
    rw [List.filter_append, hnone, List.append_nil, List.filter_filter]
    apply List.filter_congr
    intro row _
    by_cases hbefore : row.businessDate < date
    · simp [WalletBalance.key, hbefore.ne]
    · simp [hbefore]
  rw [previousClosing, previousBalance, hrows, previousClosing, previousBalance]

/-- A GL account that has a row of the day before opens with what it closed with. -/
theorem glOpening_of_row {row : GlBalance} {account : GlAccount}
    (hrow : row ∈ books.dayGlBalances day currency)
    (hcode : row.glAccountCode = account.accountCode) :
    (books.snapshotWallets (day + 1) currency).glOpening (day + 1) currency account =
      row.closingBalance := by
  show ((books.previousGlClosing (day + 1) currency account.accountCode).getD _) = _
  rw [← hcode, previousGlClosing_of_row hrow, Option.getD_some]

/-- Without rows before a date there is nothing to open with. -/
theorem previousGlClosing_eq_none {code : String}
    (hnone : ∀ row ∈ books.glBalances.rows, row.currency = currency →
      ¬ row.businessDate < date) :
    books.previousGlClosing date currency code = none := by
  rw [previousGlClosing, Option.map_eq_none_iff, latest_eq_none, List.filter_eq_nil_iff]
  intro row hrow hprior
  obtain ⟨hcurrency, _, hbefore⟩ := of_decide_eq_true hprior
  exact hnone row hrow hcurrency hbefore

theorem previousClosing_eq_none {wallet : ℤ}
    (hnone : ∀ row ∈ books.walletBalances.rows, row.currency = currency →
      ¬ row.businessDate < date) :
    books.previousClosing date currency wallet = none := by
  rw [previousClosing, previousBalance, Option.map_eq_none_iff, latest_eq_none,
    List.filter_eq_nil_iff]
  intro row hrow hprior
  obtain ⟨hcurrency, _, hbefore⟩ := of_decide_eq_true hprior
  exact hnone row hrow hcurrency hbefore

/-- The rows of the GL accounts just taken. -/
theorem mem_dayGlBalances_snapshot {row : GlBalance} :
    row ∈ (books.snapshot date currency).dayGlBalances date currency ↔
      ∃ account ∈ books.accounts.rows, account.isActive ∧
        (books.snapshotWallets date currency).glSnapshot date currency account = row := by
  rw [dayGlBalances_snapshot, glSnapshots, List.mem_map]
  simp only [List.mem_filter, and_assoc]
  rfl

end Books

/-! ## One day after the other -/

/-- A completed close opens each GL account with what the close of the day before left. -/
def OpensAsClosed (books : Books) (run : Run) : Prop :=
  ∀ prior ∈ books.runs.rows, prior.Closes → prior.currency = run.currency →
    prior.businessDate + 1 = run.businessDate →
      ∀ row ∈ books.dayGlBalances run.businessDate run.currency,
        ∃ previous ∈ books.dayGlBalances prior.businessDate run.currency,
          previous.glAccountCode = row.glAccountCode ∧
            row.openingBalance = previous.closingBalance

/-- The tables of the closes go with the standing: no rows before the first date, then rows
of every active GL account up to the last closed date, each opened as it was closed. -/
structure Continued (currency : String) (diary : Diary) : Prop where
  sound : Sound currency diary.books
  listed : ∀ row ∈ diary.books.walletBalances.rows, row.currency = currency →
    ∃ code, row.walletMsisdn ∈ diary.books.members currency code
  nothingBefore : diary.standing.begun = false → ∀ date, diary.standing.Admits date →
    (∀ row ∈ diary.books.walletBalances.rows, row.currency = currency →
      ¬ row.businessDate < date) ∧
    ∀ row ∈ diary.books.glBalances.rows, row.currency = currency → ¬ row.businessDate < date
  rows : ∀ last, diary.standing = .closed last → ∃ row : GlAccount → GlBalance,
    (∀ account, (row account).glAccountCode = account.accountCode) ∧
      diary.books.dayGlBalances last currency =
        (diary.books.accounts.rows.filter GlAccount.isActive).map row
  iso : ∀ run ∈ diary.books.runs.rows, run.Closes → isCurrency currency
  closed : ∀ run ∈ diary.books.runs.rows, run.Closes → run.currency = currency ∧
    ∃ last, diary.standing = .closed last ∧ run.businessDate ≤ last
  opens : ∀ run ∈ diary.books.runs.rows, run.Closes → OpensAsClosed diary.books run

section

variable {before after : Books}

theorem SameBalances.dayGlBalances (hsame : SameBalances before after) (date : Date)
    (currency : String) :
    after.dayGlBalances date currency = before.dayGlBalances date currency := by
  rw [Books.dayGlBalances, hsame.gl, Books.dayGlBalances]

theorem SameBalances.dayBalances (hsame : SameBalances before after) (date : Date)
    (currency : String) : after.dayBalances date currency = before.dayBalances date currency := by
  rw [Books.dayBalances, hsame.wallets, Books.dayBalances]

theorem OpensAsClosed.of_same {run : Run} (hopens : OpensAsClosed before run)
    (hsame : SameBalances before after) (hruns : after.runs = before.runs) :
    OpensAsClosed after run := by
  intro prior hprior
  rw [hruns] at hprior
  rw [hsame.dayGlBalances, hsame.dayGlBalances]
  exact hopens prior hprior

theorem SameLedger.members (hsame : SameLedger before after) (currency code : String) :
    after.members currency code = before.members currency code := by
  simp only [Books.members, Books.walletsOf, Books.activeMapping, hsame.wallets, hsame.mappings]
  rfl

theorem SameLedger.glCode (hsame : SameLedger before after) (msisdn : ℤ) :
    after.glCode msisdn = before.glCode msisdn := by
  simp only [Books.glCode, Books.activeMapping, hsame.wallets, hsame.mappings]

theorem SameLedger.moved (hsame : SameLedger before after) (wallet : ℤ)
    (selected : Entry → Bool) : after.moved wallet selected = before.moved wallet selected := by
  rw [Books.moved, Books.history, hsame.entries, Books.moved, Books.history]

theorem SameLedger.sound (hsame : SameLedger before after) {currency : String}
    (hsound : Sound currency before) : Sound currency after := by
  have hknown : ∀ wallet, before.balance wallet ≠ none → after.balance wallet ≠ none := by
    intro wallet hold
    rw [Books.balance, hsame.wallets]
    exact hold
  apply hsound.of_same hknown hsame.entries
  intro journal hjournal
  rw [hsame.journals]
  exact ⟨journal, hjournal, rfl, rfl, rfl⟩

end

theorem mem_members_of_snapshot {books : Books} {date : Date} {currency : String}
    {row : WalletBalance} (hrow : row ∈ books.walletSnapshots date currency) :
    row.walletMsisdn ∈ books.members currency row.glAccountCode := by
  obtain ⟨wallet, hwallet, mapping, hmapping, rfl⟩ := (books.mem_walletSnapshots _ _).mp hrow
  apply List.mem_map.mpr
  refine ⟨wallet, List.mem_filter.mpr ⟨hwallet, ?_⟩, rfl⟩
  rw [hmapping]
  exact decide_eq_true rfl

namespace Continued

variable {currency : String} {before after : Diary}

/-- What leaves the tables of the closes alone keeps them in step. -/
theorem of_same (hcontinued : Continued currency before) (hsound : Sound currency after.books)
    (hstanding : after.standing = before.standing)
    (hbalances : SameBalances before.books after.books)
    (hruns : after.books.runs = before.books.runs)
    (haccounts : after.books.accounts = before.books.accounts)
    (hmembers : ∀ code, ∀ wallet ∈ before.books.members currency code,
      wallet ∈ after.books.members currency code) : Continued currency after where
  sound := hsound
  listed := by
    intro row hrow hcurrency
    rw [hbalances.wallets] at hrow
    obtain ⟨code, hmember⟩ := hcontinued.listed row hrow hcurrency
    exact ⟨code, hmembers code _ hmember⟩
  nothingBefore := by
    rw [hstanding, hbalances.wallets, hbalances.gl]
    exact hcontinued.nothingBefore
  rows := by
    intro last hlast
    rw [hstanding] at hlast
    rw [haccounts, hbalances.dayGlBalances]
    exact hcontinued.rows last hlast
  iso := by
    rw [hruns]
    exact hcontinued.iso
  closed := by
    rw [hruns, hstanding]
    exact hcontinued.closed
  opens := by
    intro run hrun hcloses
    rw [hruns] at hrun
    exact (hcontinued.opens run hrun hcloses).of_same hbalances hruns

/-- Every active account has a row of the last closed date. -/
theorem complete (hcontinued : Continued currency before) {last : Date}
    (hlast : before.standing = .closed last) {account : GlAccount}
    (haccount : account ∈ before.books.accounts.rows) (hactive : account.isActive) :
    ∃ row ∈ before.books.dayGlBalances last currency,
      row.glAccountCode = account.accountCode := by
  obtain ⟨row, hcode, hrows⟩ := hcontinued.rows last hlast
  refine ⟨row account, ?_, hcode account⟩
  rw [hrows]
  exact List.mem_map_of_mem (List.mem_filter.mpr ⟨haccount, hactive⟩)

theorem completedRun_eq_none (hcontinued : Continued currency before) {date : Date}
    (hadmits : before.standing.Admits date) :
    before.books.completedRun date currency = none := by
  apply Books.completedRun_eq_none.mpr
  intro run hrun hcompleted
  obtain ⟨hdate, _, hcloses⟩ := hcompleted
  obtain ⟨_, last, hlast, hle⟩ := hcontinued.closed run hrun hcloses
  rw [hlast] at hadmits
  rw [hdate, show date = last + 1 from hadmits] at hle
  exact absurd hle (not_le.mpr (Int.lt_succ last))

/-- A run that has completed a date is not of the next one. -/
theorem ne_of_closes (hcontinued : Continued currency before) {date : Date} {run : Run}
    (hadmits : before.standing.Admits date) (hrun : run ∈ before.books.runs.rows)
    (hcloses : run.Closes) : run.businessDate < date := by
  obtain ⟨_, last, hlast, hle⟩ := hcontinued.closed run hrun hcloses
  rw [hlast] at hadmits
  rw [show date = last + 1 from hadmits]
  exact Int.lt_add_one_iff.mpr hle

/-- An attempt on the next date leaves the balances of other dates alone. -/
theorem dayGlBalances_attempted {books : Books} {date day : Date} {completed : Prop}
    (hattempted : Attempted before.books books date currency completed) (hne : day ≠ date) :
    books.dayGlBalances day currency = before.books.dayGlBalances day currency := by
  rcases hattempted.balances with ⟨hsame, _⟩ | htaken
  · exact hsame.dayGlBalances day currency
  · rw [htaken.dayGlBalances, Books.dayGlBalances_snapshot_of_ne hne]

theorem dayBalances_attempted {books : Books} {date day : Date} {completed : Prop}
    (hattempted : Attempted before.books books date currency completed) (hne : day ≠ date) :
    books.dayBalances day currency = before.books.dayBalances day currency := by
  rcases hattempted.balances with ⟨hsame, _⟩ | htaken
  · exact hsame.dayBalances day currency
  · rw [htaken.dayBalances, Books.dayBalances_snapshot_of_ne hne]

/-- The balances of a completed date are those taken. -/
theorem taken {books : Books} {date : Date} {completed : Prop}
    (hattempted : Attempted before.books books date currency completed) (hcompleted : completed) :
    SameBalances (before.books.snapshot date currency) books := by
  rcases hattempted.balances with ⟨_, hnot⟩ | htaken
  · exact absurd hcompleted hnot
  · exact htaken

/-- An attempt on the next date keeps the tables in step. -/
theorem attempt (hcontinued : Continued currency before) {books : Books} {date : Date}
    {completed : Prop} [Decidable completed] (hadmits : before.standing.Admits date)
    (hattempted : Attempted before.books books date currency completed) :
    Continued currency
      { books := books, standing := before.standing.afterClose date completed } := by
  obtain ⟨added, hruns, hadded⟩ := hattempted.runs
  have hrun : ∀ run ∈ books.runs.rows, run.Closes →
      run ∈ before.books.runs.rows ∨ completed ∧ run.businessDate = date ∧
        run.currency = currency := by
    intro run hrun hcloses
    rw [hruns] at hrun
    rcases List.mem_append.mp hrun with hold | hnew
    · exact .inl hold
    · have hof := hadded run hnew
      exact .inr ⟨(hof.figures hcloses).1, hof.ofDate, hof.ofCurrency⟩
  have hrows : (∀ row ∈ books.walletBalances.rows, row ∈ before.books.walletBalances.rows ∨
        row ∈ before.books.walletSnapshots date currency) ∧
      ∀ row ∈ books.glBalances.rows, row ∈ before.books.glBalances.rows ∨
        row.businessDate = date := by
    rcases hattempted.balances with ⟨hsame, _⟩ | htaken
    · rw [hsame.wallets, hsame.gl]
      exact ⟨fun _ => .inl, fun _ => .inl⟩
    · rw [htaken.wallets, htaken.gl]
      constructor
      · intro row hrow
        exact (List.mem_append.mp hrow).imp_left List.mem_of_mem_filter
      · intro row hrow
        rcases List.mem_append.mp hrow with hold | hnew
        · exact .inl (List.mem_of_mem_filter hold)
        · obtain ⟨_, _, hsnapshot⟩ := List.mem_map.mp hnew
          rw [← hsnapshot]
          exact .inr rfl
  constructor
  · exact hattempted.ledger.sound hcontinued.sound
  · intro row hrow hcurrency
    rcases hrows.1 row hrow with hold | hnew
    · obtain ⟨code, hmember⟩ := hcontinued.listed row hold hcurrency
      refine ⟨code, ?_⟩
      rw [hattempted.ledger.members]
      exact hmember
    · refine ⟨row.glAccountCode, ?_⟩
      rw [hattempted.ledger.members]
      exact mem_members_of_snapshot hnew
  · intro hbegun next hnext
    -- only a failed attempt on a first date leaves the closes unbegun
    have hunbegun : before.standing.begun = false ∧ next = date := by
      unfold Standing.afterClose at hbegun hnext
      split at hbegun
      · cases hbegun
      · rename_i hnot
        rw [if_neg hnot] at hnext
        cases hstanding : before.standing with
        | untried | tried first =>
          rw [hstanding] at hnext
          exact ⟨rfl, hnext⟩
        | closed last =>
          rw [hstanding] at hbegun
          cases hbegun
    rw [hunbegun.2]
    obtain ⟨hwallets, hgl⟩ := hcontinued.nothingBefore hunbegun.1 date hadmits
    constructor
    · intro row hrow hcurrency
      rcases hrows.1 row hrow with hold | hnew
      · exact hwallets row hold hcurrency
      · obtain ⟨_, _, _, _, hsnapshot⟩ := (before.books.mem_walletSnapshots _ _).mp hnew
        rw [← hsnapshot]
        exact lt_irrefl date
    · intro row hrow hcurrency
      rcases hrows.2 row hrow with hold | hnew
      · exact hgl row hold hcurrency
      · rw [hnew]
        exact lt_irrefl date
  · intro last hlast
    rw [hattempted.ledger.accounts]
    rcases Standing.closed_of_afterClose hadmits hlast with ⟨hcompleted, rfl⟩ | ⟨hstanding, hless⟩
    · rw [(taken hattempted (of_decide_eq_true hcompleted)).dayGlBalances,
        Books.dayGlBalances_snapshot]
      exact ⟨_, fun _ => rfl, rfl⟩
    · rw [dayGlBalances_attempted hattempted hless.ne]
      exact hcontinued.rows last hstanding
  · intro run hmem hcloses
    rcases hrun run hmem hcloses with hold | hnew
    · exact hcontinued.iso run hold hcloses
    · exact hattempted.iso hnew.1
  · intro run hmem hcloses
    rcases hrun run hmem hcloses with hold | ⟨hcompleted, hdate, hcurrency⟩
    · obtain ⟨hcurrency, last, hlast, hle⟩ := hcontinued.closed run hold hcloses
      refine ⟨hcurrency, ?_⟩
      by_cases hcompleted : completed
      · rw [decide_eq_true hcompleted]
        exact ⟨date, Standing.afterClose_completed before.standing date,
          (hcontinued.ne_of_closes hadmits hold hcloses).le⟩
      · rw [decide_eq_false hcompleted, hlast]
        exact ⟨last, Standing.afterClose_closed last date, hle⟩
    · rw [decide_eq_true hcompleted]
      exact ⟨hcurrency, date, Standing.afterClose_completed before.standing date, hdate.le⟩
  · intro run hmem hcloses prior hprior hpriorCloses hsame hnext row hrow
    rcases hrun run hmem hcloses with hold | ⟨hcompleted, hdate, hcurrency⟩
    · -- an earlier run: both of its days are earlier ones
      have hbefore := hcontinued.ne_of_closes hadmits hold hcloses
      have hpriorBefore : prior.businessDate < date := by
        rw [← hnext] at hbefore
        exact (Int.lt_succ _).trans hbefore
      have hpriorOld : prior ∈ before.books.runs.rows := by
        rcases hrun prior hprior hpriorCloses with hpriorOld | ⟨_, hpriorDate, _⟩
        · exact hpriorOld
        · exact absurd hpriorDate hpriorBefore.ne
      have hcurrency := (hcontinued.closed run hold hcloses).1
      rw [hcurrency] at hrow ⊢
      rw [dayGlBalances_attempted hattempted hbefore.ne] at hrow
      rw [dayGlBalances_attempted hattempted hpriorBefore.ne]
      have hopens := hcontinued.opens run hold hcloses prior hpriorOld hpriorCloses hsame hnext row
      rw [hcurrency] at hopens
      exact hopens hrow
    · -- the new run: the day before is the last closed one
      have hpriorOld : prior ∈ before.books.runs.rows := by
        rcases hrun prior hprior hpriorCloses with hpriorOld | ⟨_, hpriorDate, _⟩
        · exact hpriorOld
        · rw [hpriorDate, hdate] at hnext
          exact absurd hnext.symm (Int.lt_succ date).ne
      obtain ⟨_, last, hlast, hle⟩ := hcontinued.closed prior hpriorOld hpriorCloses
      have hpriorDate : prior.businessDate = last := by
        rw [hlast, ← hdate, ← hnext] at hadmits
        exact add_right_cancel hadmits
      have hday : date = last + 1 := by
        rw [hlast] at hadmits
        exact hadmits
      have hne : last ≠ date := by
        rw [hday]
        exact (Int.lt_succ last).ne
      rw [hdate, hcurrency, (taken hattempted hcompleted).dayGlBalances] at hrow
      obtain ⟨account, haccount, hactive, hsnapshot⟩ :=
        Books.mem_dayGlBalances_snapshot.mp hrow
      obtain ⟨previous, hprevious, hcode⟩ :=
        hcontinued.complete hlast haccount hactive
      rw [hcurrency, hpriorDate, dayGlBalances_attempted hattempted hne]
      refine ⟨previous, hprevious, ?_, ?_⟩
      · rw [hcode, ← hsnapshot]
        rfl
      · rw [← hsnapshot, hday]
        exact Books.glOpening_of_row hprevious hcode

/-- A close that is a step has been attempted. -/
theorem closed_of_step (hcontinued : Continued currency before) {after : Diary}
    {request : CloseRequest} (hstep : Diary.step currency before (.close request) = some after) :
    ∃ date, request.businessDate = some date ∧ before.standing.Admits date ∧
      Attempted before.books (closeEod before.books request).1 date currency
        ((closeEod before.books request).2.statusCode = .closed) ∧
      after =
        { books := (closeEod before.books request).1
          standing := before.standing.afterClose date
            ((closeEod before.books request).2.statusCode = .closed) } := by
  simp only [Diary.step] at hstep
  cases hdate : request.businessDate with
  | none =>
    rw [hdate] at hstep
    cases hstep
  | some date =>
    simp only [hdate, Option.ite_none_right_eq_some, Option.some.injEq] at hstep
    obtain ⟨⟨hcurrency, hreal, hadmits⟩, hafter⟩ := hstep
    exact ⟨date, rfl, hadmits, closeEod_attempted hdate hcurrency hreal
      (hcontinued.completedRun_eq_none hadmits), hafter.symm⟩

/-- Every event keeps the tables in step. -/
theorem step {event : Diary.Event} (hcontinued : Continued currency before)
    (hstep : Diary.step currency before event = some after) : Continued currency after := by
  cases event with
  | write writer status movement =>
    simp only [Diary.step, Option.ite_none_right_eq_some, Option.some.injEq] at hstep
    obtain ⟨⟨hwriter, hknown⟩, rfl⟩ := hstep
    have hsame := before.books.write_sameCloses writer status movement.lines
    obtain ⟨_, hmembers, _⟩ := write_accounts before.books writer status movement.lines
    have hstays : ∀ code, ∀ wallet ∈ before.books.members currency code,
        wallet ∈ (before.books.write writer status movement.lines).members currency code := by
      intro code wallet hwallet
      rw [hmembers]
      exact hwallet
    exact hcontinued.of_same (hcontinued.sound.write status hwriter hknown) rfl
      ⟨hsame.walletBalances, hsame.glBalances⟩ hsame.runs hsame.accounts hstays
  | fund msisdn change =>
    simp only [Diary.step, Option.ite_none_right_eq_some, Option.some.injEq] at hstep
    obtain ⟨_, rfl⟩ := hstep
    have hstays : ∀ code, ∀ wallet ∈ before.books.members currency code,
        wallet ∈ (before.books.changeAmount msisdn change).members currency code := by
      intro code wallet hwallet
      rw [Books.members_changeAmount]
      exact hwallet
    exact hcontinued.of_same (hcontinued.sound.changeAmount msisdn change) rfl ⟨rfl, rfl⟩ rfl
      rfl hstays
  | mark journalId status =>
    cases hstep
    exact hcontinued.of_same (hcontinued.sound.markJournal journalId status) rfl ⟨rfl, rfl⟩ rfl
      rfl fun _ _ => id
  | openWallet msisdn code walletCurrency =>
    simp only [Diary.step, Option.map_eq_some_iff] at hstep
    obtain ⟨wallets, hinsert, rfl⟩ := hstep
    refine hcontinued.of_same (hcontinued.sound.openWallet hinsert) rfl ⟨rfl, rfl⟩ rfl rfl
      fun code wallet hwallet => ?_
    obtain ⟨found, hfound, hkey⟩ := List.mem_map.mp hwallet
    obtain ⟨hlisted, hcode⟩ := List.mem_filter.mp hfound
    obtain ⟨hmem, hcurrency⟩ := List.mem_filter.mp hlisted
    refine List.mem_map.mpr ⟨found, List.mem_filter.mpr ⟨List.mem_filter.mpr ⟨?_, hcurrency⟩,
      hcode⟩, hkey⟩
    rw [(Table.insert?_eq_some hinsert).2]
    exact List.mem_append_left _ hmem
  | close request =>
    obtain ⟨date, _, hadmits, hattempted, rfl⟩ := hcontinued.closed_of_step hstep
    exact hcontinued.attempt hadmits hattempted

/-- Where nothing was written or closed, the tables are in step. -/
theorem of_founded {diary : Diary} (hfounded : Diary.Founded diary) :
    Continued currency diary := by
  constructor
  · constructor
    · simp [hfounded.entries]
    · simp [hfounded.entries]
    · simp [hfounded.entries]
  · simp [hfounded.walletBalances]
  · simp [hfounded.walletBalances, hfounded.glBalances]
  · simp [hfounded.standing]
  · simp [hfounded.runs]
  · simp [hfounded.runs]
  · simp [hfounded.runs]

end Continued

end Finify.Eod
