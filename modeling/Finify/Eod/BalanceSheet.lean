/-
# The balance sheet

`BalanceSheetService.get` sets the closing balances of assets, liabilities and equity of a
closed date against the profit since 1 January.  No close carries the profit of a year into
equity.  The module proves by how much the sheet of a closed date misses zero in every run
from empty tables: by the profit of the years before, and by twice what was moved on accounts
whose normal side is not that of their type.
-/

import Finify.Eod.Agreement
import Finify.Foundations.Calendar
import Mathlib.Algebra.BigOperators.Ring.List

namespace Finify.Eod

open Finify.Foundations
open Finify.Posting (JournalStatus)

/-! ## The statements -/

/-- A row of `sw_fn_balance_sheet` or `sw_fn_income_statement`. -/
structure StatementRow where
  accountCode : String
  accountType : AccountType
  amount : ℤ
  deriving DecidableEq, Repr

namespace Books

variable (books : Books)

/-- `sw_fn_balance_sheet`. -/
def balanceSheet (businessDate : Date) (currency : String) : List StatementRow :=
  (books.dayGlBalances businessDate currency.toUpper).filterMap fun balance =>
    ((books.accounts.find? balance.glAccountCode).filter fun account =>
      account.accountType.carriesBalance).map fun account =>
        { accountCode := account.accountCode
          accountType := account.accountType
          amount := balance.closingBalance }

def periodBalances (accountCode currency : String) (dateFrom dateTo : Date) : List GlBalance :=
  books.glBalances.rows.filter fun balance =>
    balance.glAccountCode = accountCode ∧ balance.currency = currency ∧
      dateFrom ≤ balance.businessDate ∧ balance.businessDate ≤ dateTo

/-- `sw_fn_income_statement`: one row for each account that has balances of the period. -/
def incomeStatement (dateFrom dateTo : Date) (currency : String) : List StatementRow :=
  books.accounts.rows.filterMap fun account =>
    let balances := books.periodBalances account.accountCode currency.toUpper dateFrom dateTo
    if account.accountType.carriesBalance ∨ balances = [] then none
    else
      some
        { accountCode := account.accountCode
          accountType := account.accountType
          amount := (balances.map fun balance =>
            account.signed balance.totalDebit balance.totalCredit).sum }

end Books

/-- The answer of `BalanceSheetService.get`, with exact amounts. -/
structure BalanceSheet where
  asOfDate : Date
  currency : String
  totalAssets : ℤ
  totalLiabilities : ℤ
  totalEquity : ℤ
  currentPeriodProfit : ℤ
  difference : ℤ
  balanced : Bool
  accounts : List StatementRow
  deriving DecidableEq

namespace BalanceSheetService

/-- `total`. -/
def total (rows : List StatementRow) (accountType : AccountType) : ℤ :=
  ((rows.filter fun row => row.accountType = accountType).map StatementRow.amount).sum

/-- `BalanceSheetService.get`. -/
def get (books : Books) (date : Date) (currency : String) : BalanceSheet :=
  let rows := books.balanceSheet date currency.toUpper
  let startOfYear := yearStart (yearOf date)
  let profitRows := books.incomeStatement startOfYear date currency.toUpper
  let assets := total rows .asset
  let liabilities := total rows .liability
  let equity := total rows .equity
  let income := total profitRows .income
  let expenses := total profitRows .expense
  let currentProfit := income - expenses
  { asOfDate := date
    currency := currency.toUpper
    totalAssets := assets
    totalLiabilities := liabilities
    totalEquity := equity
    currentPeriodProfit := currentProfit
    difference := assets - liabilities - equity - currentProfit
    balanced := assets - liabilities - equity - currentProfit = 0
    accounts := rows }

end BalanceSheetService

/-! ## What the sheet misses -/

def AccountType.usualSide : AccountType → NormalBalance
  | asset | expense => .debit
  | liability | equity | income => .credit

/-- The sign of an account type in `assets - liabilities - equity`. -/
def AccountType.weight : AccountType → ℤ
  | asset => 1
  | liability | equity => -1
  | income | expense => 0

/-- The normal side of the account is not that of its type. -/
def GlAccount.isContra (account : GlAccount) : Bool :=
  account.normalBalance ≠ account.accountType.usualSide

/-- What a day brought to an account, as a credit. -/
def GlBalance.credited (balance : GlBalance) : ℤ := balance.totalCredit - balance.totalDebit

namespace Books

variable (books : Books)

def onAccount (test : GlAccount → Bool) (balance : GlBalance) : Bool :=
  (books.accounts.find? balance.glAccountCode).any test

/-- What the selected daily balances of a currency brought, as credits. -/
def creditedOf (currency : String) (selected : GlBalance → Bool) : ℤ :=
  ((books.glBalances.rows.filter fun balance =>
    balance.currency = currency ∧ selected balance).map GlBalance.credited).sum

/-- The profit of the closed days before the year of a date. -/
def earlierProfit (date : Date) (currency : String) : ℤ :=
  books.creditedOf currency fun balance =>
    balance.businessDate < yearStart (yearOf date) &&
      books.onAccount (fun account => !account.accountType.carriesBalance) balance

/-- What was credited to accounts on the unusual side: up to the date where they carry a
balance, and within its year where they do not. -/
def contraCredits (date : Date) (currency : String) : ℤ :=
  books.creditedOf currency fun balance =>
    balance.businessDate ≤ date &&
      books.onAccount (fun account => account.isContra &&
        (account.accountType.carriesBalance ||
          yearStart (yearOf date) ≤ balance.businessDate)) balance

end Books

/-! ## Runs -/

/-- The wallet held nothing when the date began, as a close of the date sees it. -/
def OpensEmpty (books : Books) (date : Date) (currency : String) (wallet : ℤ) : Prop :=
  (match earliest Entry.stamp (books.walletActivity date currency wallet) with
    | some first => first.balanceBefore
    | none => books.balance wallet) = some 0

/-- What the next close needs for its general ledger to balance: active accounts, and on the
first date wallets that held nothing, where their account carries a balance. -/
structure Balanceable (diary : Diary) (date : Date) (currency : String) : Prop where
  active : diary.books.AccountsActive
  empty : diary.standing.begun = false → ∀ wallet ∈ diary.books.walletsOf currency,
    ∀ account ∈ diary.books.glAccount wallet.walletMsisdn, account.accountType.carriesBalance →
      OpensEmpty diary.books date currency wallet.walletMsisdn

/-- What the steps of a run meet: each close is of a balanceable date. -/
def ClosesBalanced (currency : String) (diary : Diary) : Diary.Event → Prop
  | .close request => ∀ date ∈ request.businessDate, Balanceable diary date currency
  | _ => True

instance (books : Books) (date : Date) (currency : String) (wallet : ℤ) :
    Decidable (OpensEmpty books date currency wallet) :=
  (inferInstance : DecidableEq (Option ℤ)) _ _

instance (diary : Diary) (date : Date) (currency : String) :
    Decidable (Balanceable diary date currency) :=
  decidable_of_iff
    (diary.books.AccountsActive ∧
      (diary.standing.begun = false → ∀ wallet ∈ diary.books.walletsOf currency,
        ∀ account ∈ diary.books.glAccount wallet.walletMsisdn,
          account.accountType.carriesBalance →
            OpensEmpty diary.books date currency wallet.walletMsisdn))
    ⟨fun h => ⟨h.1, h.2⟩, fun h => ⟨h.1, h.2⟩⟩

instance (currency : String) (diary : Diary) :
    (event : Diary.Event) → Decidable (ClosesBalanced currency diary event)
  | .write _ _ _ => .isTrue trivial
  | .fund _ _ => .isTrue trivial
  | .mark _ _ => .isTrue trivial
  | .openWallet _ _ _ => .isTrue trivial
  | .close request => inferInstanceAs (Decidable (∀ date ∈ request.businessDate,
      Balanceable diary date currency))

/-! ## The sheet as a sum over daily balances -/

def AccountType.profitSign : AccountType → ℤ
  | income => 1
  | expense => -1
  | asset | liability | equity => 0

namespace Books

variable (books : Books)

/-- What an account makes of a daily balance of its own, nothing for an unknown account. -/
def readBalance (read : GlAccount → GlBalance → ℤ) (balance : GlBalance) : ℤ :=
  (books.accounts.find? balance.glAccountCode).elim 0 fun account => read account balance

/-- Assets less liabilities and equity at the close of a date. -/
def netAssets (date : Date) (currency : String) : ℤ :=
  ((books.dayGlBalances date currency).map (books.readBalance fun account balance =>
    account.accountType.weight * balance.closingBalance)).sum

/-- The selected daily balances of a currency, summed as their accounts read them. -/
def sumOf (currency : String) (selected : GlBalance → Bool)
    (read : GlAccount → GlBalance → ℤ) : ℤ :=
  ((books.glBalances.rows.filter fun balance =>
    balance.currency = currency ∧ selected balance).map (books.readBalance read)).sum

variable {books}

theorem total_balanceSheet (date : Date) {currency : String}
    (hcurrency : currency.toUpper = currency) :
    BalanceSheetService.total (books.balanceSheet date currency) .asset -
        BalanceSheetService.total (books.balanceSheet date currency) .liability -
        BalanceSheetService.total (books.balanceSheet date currency) .equity =
      books.netAssets date currency := by
  rw [balanceSheet, hcurrency, netAssets]
  induction books.dayGlBalances date currency with
  | nil => rfl
  | cons balance balances ih =>
    rw [List.map_cons, List.sum_cons, ← ih]
    unfold BalanceSheetService.total
    rw [readBalance]
    cases hfound : books.accounts.find? balance.glAccountCode with
    | none => simp [hfound]
    | some account =>
      cases htype : account.accountType with
      | asset | liability | equity =>
        simp [hfound, htype, AccountType.carriesBalance, AccountType.weight]
        abel
      | income => simp [hfound, htype, AccountType.carriesBalance, AccountType.weight]
      | expense => simp [hfound, htype, AccountType.carriesBalance, AccountType.weight]

theorem total_incomeStatement (dateFrom dateTo : Date) {currency : String}
    (hcurrency : currency.toUpper = currency) :
    BalanceSheetService.total (books.incomeStatement dateFrom dateTo currency) .income -
        BalanceSheetService.total (books.incomeStatement dateFrom dateTo currency) .expense =
      (books.accounts.rows.map fun account =>
        ((books.periodBalances account.accountCode currency dateFrom dateTo).map fun balance =>
          account.accountType.profitSign *
            account.signed balance.totalDebit balance.totalCredit).sum).sum := by
  rw [incomeStatement, hcurrency]
  induction books.accounts.rows with
  | nil => rfl
  | cons account accounts ih =>
    rw [List.map_cons, List.sum_cons, ← ih, List.sum_map_mul_left]
    unfold BalanceSheetService.total
    by_cases hnone : books.periodBalances account.accountCode currency dateFrom dateTo = []
    · simp [hnone]
    · cases htype : account.accountType with
      | asset => simp [htype, AccountType.carriesBalance, AccountType.profitSign]
      | liability => simp [htype, AccountType.carriesBalance, AccountType.profitSign]
      | equity => simp [htype, AccountType.carriesBalance, AccountType.profitSign]
      | income | expense =>
        simp [htype, hnone, AccountType.carriesBalance, AccountType.profitSign]
        abel

/-- The profit of a period, balance by balance. -/
theorem profit_eq (dateFrom dateTo : Date) {currency : String}
    (hcurrency : currency.toUpper = currency) :
    BalanceSheetService.total (books.incomeStatement dateFrom dateTo currency) .income -
        BalanceSheetService.total (books.incomeStatement dateFrom dateTo currency) .expense =
      books.sumOf currency
        (fun balance => dateFrom ≤ balance.businessDate ∧ balance.businessDate ≤ dateTo)
        fun account balance => account.accountType.profitSign *
          account.signed balance.totalDebit balance.totalCredit := by
  rw [total_incomeStatement dateFrom dateTo hcurrency]
  unfold sumOf readBalance
  rw [← books.accounts.sum_join GlBalance.glAccountCode fun account balance =>
    account.accountType.profitSign * account.signed balance.totalDebit balance.totalCredit]
  apply congrArg
  apply List.map_congr_left
  intro account _
  apply congrArg
  apply congrArg
  rw [periodBalances, List.filter_filter]
  apply List.filter_congr
  intro balance _
  simp only [Bool.decide_and, Bool.decide_eq_true]

end Books

/-! ## One day more -/

/-- What a daily balance adds to the net assets in excess of its share in the balance of the
day: a profit what it credits, an account on the unusual side twice that. -/
def GlAccount.surplus (account : GlAccount) (balance : GlBalance) : ℤ :=
  if account.accountType.carriesBalance then
    (if account.isContra then 2 * balance.credited else 0)
  else balance.credited

/-- What an account adds to the net assets on a day. -/
theorem GlAccount.weight_mul_signed (account : GlAccount) (balance : GlBalance) :
    account.accountType.weight * account.signed balance.totalDebit balance.totalCredit =
      account.surplus balance - balance.credited := by
  unfold GlAccount.surplus GlAccount.isContra GlAccount.signed GlBalance.credited
  cases account.accountType <;> cases account.normalBalance <;>
    simp [AccountType.weight, AccountType.carriesBalance, AccountType.usualSide]
  all_goals omega

namespace Books

variable {books : Books} {date : Date} {currency : String}

/-- The balances of a date are read by the accounts that they were taken of. -/
theorem readBalance_glSnapshot (read : GlAccount → GlBalance → ℤ) {account : GlAccount}
    (haccount : account ∈ books.accounts.rows) {balance : GlBalance}
    (hcode : balance.glAccountCode = account.accountCode) :
    books.readBalance read balance = read account balance := by
  have hfound : books.accounts.find? account.accountCode = some account :=
    Table.find?_key haccount
  rw [readBalance, hcode, hfound]
  rfl

/-- A sum over the balances up to a date, by the days before and the date itself. -/
theorem sumOf_upTo (read : GlAccount → GlBalance → ℤ) :
    books.sumOf currency (fun balance => balance.businessDate ≤ date) read =
      books.sumOf currency (fun balance => balance.businessDate < date) read +
        ((books.dayGlBalances date currency).map (books.readBalance read)).sum := by
  unfold sumOf dayGlBalances
  induction books.glBalances.rows with
  | nil => rfl
  | cons balance balances ih =>
    by_cases hcurrency : balance.currency = currency
    · rcases lt_trichotomy balance.businessDate date with hlt | heq | hgt
      · simp only [List.filter_cons, hcurrency, hlt, hlt.le, hlt.ne, decide_true, decide_false,
          if_true, Bool.false_eq_true, if_false, List.map_cons, List.sum_cons, ih, add_assoc,
          false_and, and_self]
      · simp only [List.filter_cons, hcurrency, heq, le_refl, lt_irrefl, decide_true,
          decide_false, if_true, Bool.false_eq_true, if_false, List.map_cons, List.sum_cons, ih,
          and_self, and_false]
        exact add_left_comm _ _ _
      · simp only [List.filter_cons, hcurrency, hgt.not_ge, hgt.le.not_gt, hgt.ne',
          decide_false, Bool.false_eq_true, if_false, ih, and_false, false_and]
    · simp only [List.filter_cons, hcurrency, decide_false, Bool.false_eq_true, if_false, ih,
        false_and, and_false]

end Books

section

variable {currency : String} {before : Diary} {date : Date}

/-- At the first close every account that carries a balance opens with nothing. -/
theorem Balanceable.glOpening_eq_zero (hbalanceable : Balanceable before date currency)
    (hcontinued : Continued currency before) (hadmits : before.standing.Admits date)
    (hbegun : before.standing.begun = false) {account : GlAccount}
    (haccount : account ∈ before.books.accounts.rows) :
    (before.books.snapshotWallets date currency).glOpening date currency account = 0 := by
  obtain ⟨hnoWallets, hnoGl⟩ := hcontinued.nothingBefore hbegun date hadmits
  have hnone : (before.books.snapshotWallets date currency).previousGlClosing date currency
      account.accountCode = none := Books.previousGlClosing_eq_none hnoGl
  have hbalances : (before.books.snapshotWallets date currency).dayBalances date currency =
      before.books.walletSnapshots date currency := before.books.dayBalances_snapshot date currency
  rw [Books.glOpening, hnone, Option.getD_none, hbalances]
  cases hcarries : account.accountType.carriesBalance with
  | false => rfl
  | true =>
    rw [if_pos rfl]
    apply List.sum_eq_zero
    intro value hvalue
    obtain ⟨row, hrow, hopening⟩ := List.mem_map.mp hvalue
    obtain ⟨htaken, hcode⟩ := List.mem_filter.mp hrow
    obtain ⟨wallet, hwallet, mapping, hmapping, hsnapshot⟩ :=
      (before.books.mem_walletSnapshots _ _).mp htaken
    have hmapped : before.books.glAccount wallet.walletMsisdn = some account := by
      have hmember : wallet.walletMsisdn ∈
          before.books.members currency account.accountCode := by
        have hrowCode := of_decide_eq_true hcode
        rw [← hsnapshot] at hrowCode
        exact Books.mem_members.mpr ⟨wallet, hwallet, rfl, by
          rw [hmapping, Option.map_some]
          exact congrArg some hrowCode⟩
      rw [Books.glAccount, Books.glCode_of_member hmember, Option.bind_some]
      exact Table.find?_key haccount
    have hempty := hbalanceable.empty hbegun wallet hwallet account hmapped hcarries
    rw [← hopening, ← hsnapshot]
    show (openingOf _).getD _ = 0
    rw [openingOf]
    unfold OpensEmpty at hempty
    cases hfirst : earliest Entry.stamp
        (before.books.walletActivity date currency wallet.walletMsisdn) with
    | some first =>
      simp only [hfirst] at hempty
      rw [Option.bind_some, hempty, Option.getD_some]
    | none =>
      simp only [hfirst] at hempty
      have hfound : before.books.wallets.find? wallet.walletMsisdn = some wallet :=
        Table.find?_key (List.mem_of_mem_filter hwallet)
      rw [Books.balance, hfound] at hempty
      rw [Option.bind_none, Option.getD_none, Books.carried,
        Books.previousClosing_eq_none hnoWallets, Option.getD_none]
      exact Option.some.inj hempty

/-- The net assets that a date opens with: those of the last closed date, or nothing. -/
def openingAssets (currency : String) (diary : Diary) : ℤ :=
  match diary.standing with
  | .closed last => diary.books.netAssets last currency
  | _ => 0

/-- The accounts together open with the net assets that the last closed date left. -/
theorem Balanceable.sum_glOpening (hbalanceable : Balanceable before date currency)
    (hcontinued : Continued currency before) (hadmits : before.standing.Admits date) :
    ((before.books.accounts.rows.filter GlAccount.isActive).map fun account =>
      account.accountType.weight *
        (before.books.snapshotWallets date currency).glOpening date currency account).sum =
      openingAssets currency before := by
  have hnothing : before.standing.begun = false →
      ((before.books.accounts.rows.filter GlAccount.isActive).map fun account =>
        account.accountType.weight *
          (before.books.snapshotWallets date currency).glOpening date currency account).sum =
        0 := by
    intro hbegun
    apply List.sum_eq_zero
    intro value hvalue
    obtain ⟨account, haccount, rfl⟩ := List.mem_map.mp hvalue
    rw [hbalanceable.glOpening_eq_zero hcontinued hadmits hbegun
      (List.mem_of_mem_filter haccount), mul_zero]
  unfold openingAssets
  cases hstanding : before.standing with
  | untried => exact hnothing (by rw [hstanding]; rfl)
  | tried next => exact hnothing (by rw [hstanding]; rfl)
  | closed last =>
    have hnext : date = last + 1 := by
      rw [hstanding] at hadmits
      exact hadmits
    obtain ⟨row, hcode, hrows⟩ := hcontinued.rows last hstanding
    show _ = before.books.netAssets last currency
    rw [Books.netAssets, hrows, List.map_map]
    apply congrArg
    apply List.map_congr_left
    intro account haccount
    have hrow : row account ∈ before.books.dayGlBalances last currency := by
      rw [hrows]
      exact List.mem_map_of_mem haccount
    rw [hnext, Books.glOpening_of_row hrow (hcode account), Function.comp_apply,
      Books.readBalance_glSnapshot _ (List.mem_of_mem_filter haccount) (hcode account)]

/-- A completed close adds the surplus of its day to the net assets. -/
theorem Balanceable.netAssets_eq (hbalanceable : Balanceable before date currency)
    (hcontinued : Continued currency before) (hadmits : before.standing.Admits date)
    {books : Books} {completed : Prop}
    (hattempted : Attempted before.books books date currency completed) (hcompleted : completed) :
    books.netAssets date currency = openingAssets currency before +
      ((books.dayGlBalances date currency).map (books.readBalance GlAccount.surplus)).sum := by
  have hready := hattempted.ready hcompleted
  have hrows : books.dayGlBalances date currency =
      (before.books.accounts.rows.filter GlAccount.isActive).map
        ((before.books.snapshotWallets date currency).glSnapshot date currency) := by
    rw [(Continued.taken hattempted hcompleted).dayGlBalances, Books.dayGlBalances_snapshot]
    rfl
  have hread : ∀ read : GlAccount → GlBalance → ℤ,
      ((books.dayGlBalances date currency).map (books.readBalance read)).sum =
        ((before.books.accounts.rows.filter GlAccount.isActive).map fun account => read account
          ((before.books.snapshotWallets date currency).glSnapshot date currency account)).sum := by
    intro read
    rw [hrows, List.map_map]
    apply congrArg
    apply List.map_congr_left
    intro account haccount
    apply Books.readBalance_glSnapshot read
    · rw [hattempted.ledger.accounts]
      exact List.mem_of_mem_filter haccount
    · rfl
  -- debits and credits of the day are equal
  have hbalanced : ((before.books.accounts.rows.filter GlAccount.isActive).map fun account =>
      ((before.books.snapshotWallets date currency).glSnapshot date currency
        account).credited).sum = 0 := by
    have hdebits := hcontinued.sound.sum_glActivity hready hbalanceable.active Entry.debit
    have hcredits := hcontinued.sound.sum_glActivity hready hbalanceable.active Entry.credit
    rw [hcontinued.sound.sum_dayEntries hready, ← hcredits] at hdebits
    show (List.map (fun account : GlAccount =>
      ((before.books.glActivity date currency account.accountCode).map Entry.credit).sum -
        ((before.books.glActivity date currency account.accountCode).map Entry.debit).sum) _).sum =
      0
    rw [sum_map_sub, hdebits, sub_self]
  have hclosing : ∀ account : GlAccount, account.accountType.weight *
      ((before.books.snapshotWallets date currency).glSnapshot date currency
        account).closingBalance =
      account.accountType.weight *
          (before.books.snapshotWallets date currency).glOpening date currency account +
        (account.surplus
          ((before.books.snapshotWallets date currency).glSnapshot date currency account) -
        ((before.books.snapshotWallets date currency).glSnapshot date currency
          account).credited) := by
    intro account
    rw [← account.weight_mul_signed, ← mul_add]
    apply congrArg
    unfold GlAccount.signed
    simp only [Books.glSnapshot]
    cases account.normalBalance
    · exact add_sub_assoc _ _ _
    · exact add_sub_assoc _ _ _
  rw [Books.netAssets, hread, hread]
  simp only [hclosing]
  rw [List.sum_map_add, sum_map_sub, hbalanced, sub_zero,
    hbalanceable.sum_glOpening hcontinued hadmits]

end

/-! ## What every run keeps -/

section

variable {before after : Books}

/-- Daily balances are read by the accounts, which writes leave alone. -/
theorem Books.readBalance_congr (haccounts : after.accounts = before.accounts)
    (read : GlAccount → GlBalance → ℤ) : after.readBalance read = before.readBalance read := by
  funext balance
  rw [Books.readBalance, haccounts, Books.readBalance]

theorem SameBalances.sumOf (hsame : SameBalances before after)
    (haccounts : after.accounts = before.accounts) (currency : String)
    (selected : GlBalance → Bool) (read : GlAccount → GlBalance → ℤ) :
    after.sumOf currency selected read = before.sumOf currency selected read := by
  rw [Books.sumOf, Books.sumOf, hsame.gl, Books.readBalance_congr haccounts]

theorem SameBalances.netAssets (hsame : SameBalances before after)
    (haccounts : after.accounts = before.accounts) (date : Date) (currency : String) :
    after.netAssets date currency = before.netAssets date currency := by
  rw [Books.netAssets, hsame.dayGlBalances, Books.netAssets, Books.readBalance_congr haccounts]

end

/-- The net assets of closed dates are the surpluses of the days up to them. -/
structure Accumulated (currency : String) (diary : Diary) : Prop where
  continued : Continued currency diary
  last : ∀ last, diary.standing = .closed last → diary.books.netAssets last currency =
    diary.books.sumOf currency (fun balance => balance.businessDate ≤ last) GlAccount.surplus
  closed : ∀ run ∈ diary.books.runs.rows, run.Closes →
    diary.books.netAssets run.businessDate currency = diary.books.sumOf currency
      (fun balance => balance.businessDate ≤ run.businessDate) GlAccount.surplus

namespace Accumulated

variable {currency : String} {before after : Diary} {date : Date}

/-- What leaves the tables of the closes alone keeps the sheets of closed dates. -/
theorem of_same (haccumulated : Accumulated currency before)
    (hcontinued : Continued currency after) (hstanding : after.standing = before.standing)
    (hsame : SameBalances before.books after.books)
    (haccounts : after.books.accounts = before.books.accounts)
    (hruns : after.books.runs = before.books.runs) : Accumulated currency after where
  continued := hcontinued
  last := by
    intro last hlast
    rw [hstanding] at hlast
    rw [hsame.netAssets haccounts, hsame.sumOf haccounts]
    exact haccumulated.last last hlast
  closed := by
    intro run hrun hcloses
    rw [hruns] at hrun
    rw [hsame.netAssets haccounts, hsame.sumOf haccounts]
    exact haccumulated.closed run hrun hcloses

/-- An attempt on a later date leaves the sheet of a date alone. -/
theorem earlier {books : Books} {completed : Prop} {day : Date}
    (hattempted : Attempted before.books books date currency completed) (hbefore : day < date)
    (hday : before.books.netAssets day currency = before.books.sumOf currency
      (fun balance => balance.businessDate ≤ day) GlAccount.surplus) :
    books.netAssets day currency = books.sumOf currency
      (fun balance => balance.businessDate ≤ day) GlAccount.surplus := by
  have haccounts := hattempted.ledger.accounts
  rcases hattempted.balances with ⟨hsame, _⟩ | htaken
  · rw [hsame.netAssets haccounts, hsame.sumOf haccounts, hday]
  · have hassets : (before.books.snapshot date currency).netAssets day currency =
        before.books.netAssets day currency := by
      rw [Books.netAssets, Books.dayGlBalances_snapshot_of_ne hbefore.ne]
      rfl
    have hrows : (before.books.snapshot date currency).glBalances.rows.filter (fun balance =>
        balance.currency = currency ∧ decide (balance.businessDate ≤ day) = true) =
        before.books.glBalances.rows.filter fun balance =>
          balance.currency = currency ∧ decide (balance.businessDate ≤ day) = true := by
      apply Books.filter_glBalances_snapshot
      intro balance hdate
      simp [hdate, hbefore]
    rw [htaken.netAssets haccounts, htaken.sumOf haccounts, hassets, hday, Books.sumOf, Books.sumOf,
      hrows]
    rfl

/-- The net assets that a date opens with are the surpluses of the days before. -/
theorem openingAssets_eq (haccumulated : Accumulated currency before)
    (hadmits : before.standing.Admits date) :
    openingAssets currency before = before.books.sumOf currency
      (fun balance => balance.businessDate < date) GlAccount.surplus := by
  have hnothing : before.standing.begun = false → before.books.sumOf currency
      (fun balance => balance.businessDate < date) GlAccount.surplus = 0 := by
    intro hbegun
    obtain ⟨_, hnoGl⟩ := haccumulated.continued.nothingBefore hbegun date hadmits
    rw [Books.sumOf, List.filter_eq_nil_iff.mpr]
    · rfl
    · intro balance hbalance hselected
      obtain ⟨hcurrency, hearlier⟩ := of_decide_eq_true hselected
      exact hnoGl balance hbalance hcurrency (of_decide_eq_true hearlier)
  unfold openingAssets
  cases hstanding : before.standing with
  | untried => exact (hnothing (by rw [hstanding]; rfl)).symm
  | tried next => exact (hnothing (by rw [hstanding]; rfl)).symm
  | closed last =>
    have hnext : date = last + 1 := by
      rw [hstanding] at hadmits
      exact hadmits
    simp only [hnext, Int.lt_add_one_iff]
    exact haccumulated.last last hstanding

/-- A completed close of a balanceable date adds its sheet. -/
theorem added (haccumulated : Accumulated currency before)
    (hbalanceable : Balanceable before date currency) (hadmits : before.standing.Admits date)
    {books : Books} {completed : Prop}
    (hattempted : Attempted before.books books date currency completed) (hcompleted : completed) :
    books.netAssets date currency = books.sumOf currency
      (fun balance => balance.businessDate ≤ date) GlAccount.surplus := by
  have htaken := Continued.taken hattempted hcompleted
  have hrows : (before.books.snapshot date currency).glBalances.rows.filter (fun balance =>
      balance.currency = currency ∧ decide (balance.businessDate < date) = true) =
      before.books.glBalances.rows.filter fun balance =>
        balance.currency = currency ∧ decide (balance.businessDate < date) = true := by
    apply Books.filter_glBalances_snapshot
    intro balance hdate
    simp [hdate]
  have hbefore : books.sumOf currency (fun balance => balance.businessDate < date)
      GlAccount.surplus = before.books.sumOf currency
        (fun balance => balance.businessDate < date) GlAccount.surplus := by
    rw [htaken.sumOf hattempted.ledger.accounts, Books.sumOf, Books.sumOf, hrows]
    rfl
  rw [hbalanceable.netAssets_eq haccumulated.continued hadmits hattempted hcompleted,
    haccumulated.openingAssets_eq hadmits, Books.sumOf_upTo, hbefore]

/-- An attempt on a balanceable date keeps the sheets of closed dates. -/
theorem attempt (haccumulated : Accumulated currency before) {books : Books} {completed : Prop}
    [Decidable completed] (hbalanceable : Balanceable before date currency)
    (hadmits : before.standing.Admits date)
    (hattempted : Attempted before.books books date currency completed) :
    Accumulated currency
      { books := books, standing := before.standing.afterClose date completed } := by
  obtain ⟨added, hruns, hadded⟩ := hattempted.runs
  constructor
  · exact haccumulated.continued.attempt hadmits hattempted
  · intro last hlast
    rcases Standing.closed_of_afterClose hadmits hlast with ⟨hcompleted, rfl⟩ | ⟨hstanding, hless⟩
    · exact haccumulated.added hbalanceable hadmits hattempted (of_decide_eq_true hcompleted)
    · exact earlier hattempted hless (haccumulated.last last hstanding)
  · intro run hrun hcloses
    rw [hruns] at hrun
    rcases List.mem_append.mp hrun with hold | hnew
    · exact earlier hattempted (haccumulated.continued.ne_of_closes hadmits hold hcloses)
        (haccumulated.closed run hold hcloses)
    · have hof := hadded run hnew
      rw [hof.ofDate]
      exact haccumulated.added hbalanceable hadmits hattempted (hof.figures hcloses).1

/-- Every step whose close is of a balanceable date keeps the sheets of closed dates. -/
theorem step {event : Diary.Event} (haccumulated : Accumulated currency before)
    (hguard : ClosesBalanced currency before event)
    (hstep : Diary.step currency before event = some after) : Accumulated currency after := by
  have hcontinued := haccumulated.continued.step hstep
  cases event with
  | write writer status movement =>
    simp only [Diary.step, Option.ite_none_right_eq_some, Option.some.injEq] at hstep
    obtain ⟨_, rfl⟩ := hstep
    have hsame := before.books.write_sameCloses writer status movement.lines
    exact haccumulated.of_same hcontinued rfl ⟨hsame.walletBalances, hsame.glBalances⟩
      hsame.accounts hsame.runs
  | fund msisdn change =>
    simp only [Diary.step, Option.ite_none_right_eq_some, Option.some.injEq] at hstep
    obtain ⟨_, rfl⟩ := hstep
    exact haccumulated.of_same hcontinued rfl ⟨rfl, rfl⟩ rfl rfl
  | mark journalId status =>
    cases hstep
    exact haccumulated.of_same hcontinued rfl ⟨rfl, rfl⟩ rfl rfl
  | openWallet msisdn code walletCurrency =>
    simp only [Diary.step, Option.map_eq_some_iff] at hstep
    obtain ⟨_, _, rfl⟩ := hstep
    exact haccumulated.of_same hcontinued rfl ⟨rfl, rfl⟩ rfl rfl
  | close request =>
    obtain ⟨date, hdate, hadmits, hattempted, rfl⟩ := haccumulated.continued.closed_of_step hstep
    exact haccumulated.attempt (hguard date hdate) hadmits hattempted

end Accumulated

/-! ## The sheet of a closed date -/

/-- A surplus is a profit, but for what was credited on the unusual side. -/
theorem GlAccount.surplus_eq (account : GlAccount) (balance : GlBalance) :
    account.surplus balance =
      account.accountType.profitSign * account.signed balance.totalDebit balance.totalCredit +
        2 * if account.isContra then balance.credited else 0 := by
  unfold GlAccount.surplus GlAccount.isContra GlAccount.signed GlBalance.credited
  cases account.accountType <;> cases account.normalBalance <;>
    simp [AccountType.profitSign, AccountType.carriesBalance, AccountType.usualSide]
  all_goals omega

namespace Books

variable {books : Books}

/-- The surpluses up to a date are the profit of its year, the profit of the years before, and
twice what was credited on the unusual side. -/
theorem sumOf_surplus (date : Date) (currency : String) :
    books.sumOf currency (fun balance => balance.businessDate ≤ date) GlAccount.surplus =
      books.sumOf currency (fun balance =>
          yearStart (yearOf date) ≤ balance.businessDate ∧ balance.businessDate ≤ date)
        (fun account balance => account.accountType.profitSign *
          account.signed balance.totalDebit balance.totalCredit) +
      (books.earlierProfit date currency + 2 * books.contraCredits date currency) := by
  have hstart := (yearOf_spec date).1
  unfold sumOf earlierProfit contraCredits creditedOf
  simp only [sum_map_filter]
  rw [← List.sum_map_mul_left, ← List.sum_map_add, ← List.sum_map_add]
  apply congrArg
  apply List.map_congr_left
  intro balance _
  by_cases hcurrency : balance.currency = currency
  · simp only [hcurrency, true_and, Bool.decide_eq_true, readBalance, onAccount]
    cases hfound : books.accounts.find? balance.glAccountCode with
    | none => simp
    | some account =>
      simp only [Option.elim_some, Option.any_some]
      by_cases hdate : balance.businessDate ≤ date
      · by_cases hyear : yearStart (yearOf date) ≤ balance.businessDate
        · have hlater : ¬ balance.businessDate < yearStart (yearOf date) := not_lt.mpr hyear
          simp [hdate, hyear, hlater, account.surplus_eq]
        · have hearlier : balance.businessDate < yearStart (yearOf date) := not_le.mp hyear
          rw [GlAccount.surplus]
          by_cases hcarries : account.accountType.carriesBalance
          · simp [hdate, hyear, hearlier, hcarries]
          · simp [hdate, hyear, hearlier, hcarries]
      · have hlater : ¬ balance.businessDate < yearStart (yearOf date) :=
          not_lt.mpr (hstart.trans (not_le.mp hdate).le)
        simp [hdate, hlater]
  · simp [hcurrency]

end Books

/-- In every run from empty tables whose closes are of balanceable dates, the sheet of a
closed date is balanced exactly when the profit of the years before and twice what was
credited on the unusual side cancel out. -/
theorem balanced_iff {currency : String} {start diary : Diary}
    (hfounded : Diary.Founded start)
    (hrun : ReachesUnder (Diary.step currency) (ClosesBalanced currency) start diary) :
    ∀ run ∈ diary.books.runs.rows, run.Closes →
      ((BalanceSheetService.get diary.books run.businessDate run.currency).difference = 0 ↔
        diary.books.earlierProfit run.businessDate currency +
          2 * diary.books.contraCredits run.businessDate currency = 0) := by
  have hstart : Accumulated currency start := by
    constructor
    · exact .of_founded hfounded
    · intro last hlast
      rw [hfounded.standing] at hlast
      cases hlast
    · simp [hfounded.runs]
  have haccumulated : Accumulated currency diary := by
    apply ReachesUnder.preserves (Accumulated currency) _ hrun hstart
    intro before event after hbefore hguard hstep
    exact hbefore.step hguard hstep
  intro run hmem hcloses
  have hupper := toUpper_of_isCurrency (haccumulated.continued.iso run hmem hcloses)
  have hcurrency := (haccumulated.continued.closed run hmem hcloses).1
  have hdifference :
      (BalanceSheetService.get diary.books run.businessDate run.currency).difference =
        diary.books.earlierProfit run.businessDate currency +
          2 * diary.books.contraCredits run.businessDate currency := by
    simp only [BalanceSheetService.get, hcurrency, hupper]
    rw [Books.total_balanceSheet _ hupper, Books.profit_eq _ _ hupper,
      haccumulated.closed run hmem hcloses, Books.sumOf_surplus, add_sub_cancel_left]
  rw [hdifference]

/-- A safeguarding wallet, its funding source, two customers and the charge revenue wallet,
all empty. -/
def unfundedWallets : Diary where
  books :=
    { wallets := ⟨[{ walletMsisdn := 110, walletCode := 110, amount := 0, currency := "GBP" },
        { walletMsisdn := 115, walletCode := 115, amount := 0, currency := "GBP" },
        { walletMsisdn := 113, walletCode := 113, amount := 0, currency := "GBP" },
        { walletMsisdn := 7, walletCode := 1, amount := 0, currency := "GBP" },
        { walletMsisdn := 8, walletCode := 1, amount := 0, currency := "GBP" }], by decide⟩
      mappings := ⟨[{ walletCode := 110, glAccountCode := "1000-SAFEGUARDING" },
        { walletCode := 115, glAccountCode := "2910-TREASURY-FUNDING" },
        { walletCode := 113, glAccountCode := "4000-TRANSACTION-REVENUE" },
        { walletCode := 1, glAccountCode := "2000-CUSTOMER-WALLET", isSafeguarded := true }],
        by decide⟩
      accounts := ⟨[
        { accountCode := "1000-SAFEGUARDING", accountType := .asset, normalBalance := .debit },
        { accountCode := "2910-TREASURY-FUNDING", accountType := .liability,
          normalBalance := .credit },
        { accountCode := "4000-TRANSACTION-REVENUE", accountType := .income,
          normalBalance := .credit },
        { accountCode := "2000-CUSTOMER-WALLET", accountType := .liability,
          normalBalance := .credit }], by decide⟩
      configurations := [{ currency := "GBP", masterWallet := 110, effectiveFrom := 1 }]
      journals := .empty
      entries := .empty
      periods := .empty
      batches := .empty
      runs := .empty
      walletBalances := .empty
      glBalances := .empty }

theorem unfundedWallets_founded : Diary.Founded unfundedWallets :=
  ⟨rfl, by decide, rfl, rfl, rfl, rfl⟩

/-- On 31 December 2025 the safeguarding wallet is funded with 100, of which a customer
receives 30 and sends 10 at a charge of 2.  The day and the next are closed. -/
def yearEnd : List Diary.Event :=
  [.write (.treasury 9 739615 "GBP" 739615) .completed (.treasury 110 115 .credit 100),
    .write (.posting 10 739615 "GBP") .completed (.posting [(115, .debit, 30), (7, .credit, 30)]),
    .write (.posting 20 739615 "GBP") .completed
      (.posting [(7, .debit, 12), (8, .credit, 10), (113, .credit, 2)]),
    closeOf 739615, closeOf 739616]

/-- This run is one of balanceable dates. -/
theorem balanced_iff_yearEnd :
    ∃ diary, ReachesUnder (Diary.step "GBP") (ClosesBalanced "GBP") unfundedWallets diary ∧
      (∃ run ∈ diary.books.runs.rows, run.businessDate = 739616 ∧ run.Closes) ∧
      ∀ run ∈ diary.books.runs.rows, run.Closes →
        ((BalanceSheetService.get diary.books run.businessDate run.currency).difference = 0 ↔
          diary.books.earlierProfit run.businessDate "GBP" +
            2 * diary.books.contraCredits run.businessDate "GBP" = 0) := by
  have hany : (runInputs (guardedStep (Diary.step "GBP") (ClosesBalanced "GBP"))
      unfundedWallets yearEnd).any (fun diary => ∃ run ∈ diary.books.runs.rows,
        run.businessDate = 739616 ∧ run.status = .completed ∧ run.dryRun = false) := by
    decide +kernel
  obtain ⟨diary, hrun, hfacts⟩ := (Option.any_eq_true _ _).mp hany
  have hreach := (Reaches.of_runInputs hrun).under
  obtain ⟨run, hmem, hdate, hcloses⟩ := of_decide_eq_true hfacts
  exact ⟨diary, hreach, ⟨run, hmem, hdate, hcloses⟩,
    balanced_iff unfundedWallets_founded hreach⟩

/-- The sheet of 31 December is balanced; on 1 January the charge of 2 is no profit of the year
and nobody's equity. -/
theorem yearEnd_unbalanced :
    Diary.Founded unfundedWallets ∧
      ∃ diary, ReachesUnder (Diary.step "GBP") (ClosesBalanced "GBP") unfundedWallets diary ∧
        (∃ run ∈ diary.books.runs.rows, run.Closes ∧ run.businessDate = 739615 ∧
          (BalanceSheetService.get diary.books 739615 "GBP").difference = 0) ∧
        ∃ run ∈ diary.books.runs.rows, run.Closes ∧ run.businessDate = 739616 ∧
          (BalanceSheetService.get diary.books 739616 "GBP").totalEquity = 0 ∧
          (BalanceSheetService.get diary.books 739616 "GBP").difference = 2 := by
  refine ⟨unfundedWallets_founded, ?_⟩
  have hany : (runInputs (guardedStep (Diary.step "GBP") (ClosesBalanced "GBP"))
      unfundedWallets yearEnd).any (fun diary =>
        (∃ run ∈ diary.books.runs.rows, (run.status = .completed ∧ run.dryRun = false) ∧
          run.businessDate = 739615 ∧
          (BalanceSheetService.get diary.books 739615 "GBP").difference = 0) ∧
        ∃ run ∈ diary.books.runs.rows, (run.status = .completed ∧ run.dryRun = false) ∧
          run.businessDate = 739616 ∧
          (BalanceSheetService.get diary.books 739616 "GBP").totalEquity = 0 ∧
          (BalanceSheetService.get diary.books 739616 "GBP").difference = 2) := by
    decide +kernel
  obtain ⟨diary, hrun, hfacts⟩ := (Option.any_eq_true _ _).mp hany
  obtain ⟨hyear, hnext⟩ := of_decide_eq_true hfacts
  exact ⟨diary, (Reaches.of_runInputs hrun).under, hyear, hnext⟩

end Finify.Eod
