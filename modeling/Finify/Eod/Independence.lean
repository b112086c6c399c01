/-
# What a close reads of later days

Two databases that agree on everything up to a day differ for a close of that day only
through the amounts the wallets hold now.  The module lists the amounts that a close reads
and shows that its results agree exactly when these do.
-/

import Finify.Eod.Close

namespace Finify.Eod

open Finify.Foundations

/-! ## Databases that agree up to a day -/

def upTo {ρ : Type*} (date : Date) (day : ρ → Date) (rows : List ρ) : List ρ :=
  rows.filter fun row => day row ≤ date

/-- Rows that agree up to a day agree on every selection of rows of earlier days. -/
theorem filter_of_upTo {ρ : Type*} {date : Date} {day : ρ → Date} {first second : List ρ}
    (hsame : upTo date day second = upTo date day first) {select : ρ → Bool}
    (hselect : ∀ row, select row → day row ≤ date) :
    second.filter select = first.filter select := by
  have hrestrict : ∀ rows : List ρ, rows.filter select = (upTo date day rows).filter select := by
    intro rows
    rw [upTo, List.filter_filter]
    apply List.filter_congr
    intro row _
    cases hrow : select row with
    | false => rfl
    | true => simp [hselect row hrow]
  rw [hrestrict second, hrestrict first, hsame]

def Wallet.withAmount (amounts : ℤ → ℤ) (wallet : Wallet) : Wallet :=
  { wallet with amount := amounts wallet.walletMsisdn }

@[simp] theorem Wallet.walletMsisdn_withAmount (amounts : ℤ → ℤ) (wallet : Wallet) :
    (wallet.withAmount amounts).walletMsisdn = wallet.walletMsisdn := rfl

/-- The databases agree on everything dated up to a day, and on all that has no date but
the amounts of the wallets. -/
structure AgreeUpTo (date : Date) (first second : Books) : Prop where
  wallets : ∃ amounts : ℤ → ℤ,
    second.wallets =
      first.wallets.map (Wallet.withAmount amounts) (Wallet.walletMsisdn_withAmount amounts)
  mappings : second.mappings = first.mappings
  accounts : second.accounts = first.accounts
  configurations : second.configurations = first.configurations
  journals : upTo date Journal.businessDate second.journals.rows =
    upTo date Journal.businessDate first.journals.rows
  lines : ∀ journal ∈ first.journals.rows, journal.businessDate ≤ date →
    second.journalEntries journal.id = first.journalEntries journal.id
  entries : upTo date Entry.businessDate second.entries.rows =
    upTo date Entry.businessDate first.entries.rows
  periods : upTo date Period.businessDate second.periods.rows =
    upTo date Period.businessDate first.periods.rows
  batches : upTo date Batch.businessDate second.batches.rows =
    upTo date Batch.businessDate first.batches.rows
  runs : upTo date Run.businessDate second.runs.rows =
    upTo date Run.businessDate first.runs.rows
  walletBalances : upTo date WalletBalance.businessDate second.walletBalances.rows =
    upTo date WalletBalance.businessDate first.walletBalances.rows
  glBalances : upTo date GlBalance.businessDate second.glBalances.rows =
    upTo date GlBalance.businessDate first.glBalances.rows

/-- Two closes of a day have the same balances, figures and status. -/
structure SameClose (date : Date) (currency : String) (first second : Books × CloseResult) :
    Prop where
  walletSnapshots : second.1.dayBalances date currency = first.1.dayBalances date currency
  glSnapshots : second.1.dayGlBalances date currency = first.1.dayGlBalances date currency
  figures : second.2.totals = first.2.totals
  status : second.2.runStatus = first.2.runStatus

/-- A wallet whose balance of the day is nowhere recorded: it has no entry balance of the
day and no earlier closing balance. -/
def Books.Unrecorded (books : Books) (date : Date) (currency : String) (wallet : Wallet) : Prop :=
  books.previousClosing date currency wallet.walletMsisdn = none ∧
    (openingOf (books.walletActivity date currency wallet.walletMsisdn) = none ∨
      closingOf (books.walletActivity date currency wallet.walletMsisdn) = none)

/-- The live balances that a close of the day reads agree. -/
structure LiveReadsAgree (date : Date) (currency : String) (config : Configuration)
    (dryRun : Bool) (first second : Books) : Prop where
  master : second.balance config.masterWallet = first.balance config.masterWallet
  rehearsed : dryRun = true → second.liveLiability currency = first.liveLiability currency
  closed : dryRun = false → ∀ wallet ∈ first.walletsOf currency,
    first.activeMapping wallet.walletCode ≠ none → first.Unrecorded date currency wallet →
      second.balance wallet.walletMsisdn = some wallet.amount

namespace AgreeUpTo

variable {date : Date} {currency : String} {first second : Books}
  (hagree : AgreeUpTo date first second)

include hagree

/-! ## What agrees -/

theorem dayJournals : second.dayJournals date currency = first.dayJournals date currency :=
  filter_of_upTo hagree.journals fun _ hrow => (of_decide_eq_true hrow).1.le

theorem dayEntries : second.dayEntries date currency = first.dayEntries date currency :=
  filter_of_upTo hagree.entries fun _ hrow => (of_decide_eq_true hrow).1.le

theorem walletActivity (wallet : ℤ) :
    second.walletActivity date currency wallet = first.walletActivity date currency wallet := by
  rw [Books.walletActivity, hagree.dayEntries, Books.walletActivity]

theorem activity : second.activity date currency = first.activity date currency := by
  rw [Books.activity, hagree.dayEntries, Books.activity]

theorem completedRun : second.completedRun date currency = first.completedRun date currency :=
  congrArg (latest Run.runVersion)
    (filter_of_upTo hagree.runs fun _ hrow => (of_decide_eq_true hrow).1.le)

theorem nextVersion : second.nextVersion date currency = first.nextVersion date currency :=
  congrArg (fun rows : List Run => (rows.map Run.runVersion).foldr max 0 + 1)
    (filter_of_upTo hagree.runs fun _ hrow => (of_decide_eq_true hrow).1.le)

theorem dayBalances : second.dayBalances date currency = first.dayBalances date currency :=
  filter_of_upTo hagree.walletBalances fun _ hrow => (of_decide_eq_true hrow).1.le

theorem dayGlBalances : second.dayGlBalances date currency = first.dayGlBalances date currency :=
  filter_of_upTo hagree.glBalances fun _ hrow => (of_decide_eq_true hrow).1.le

theorem previousClosing (wallet : ℤ) :
    second.previousClosing date currency wallet = first.previousClosing date currency wallet :=
  congrArg (fun rows : List WalletBalance =>
      (latest WalletBalance.businessDate rows).map WalletBalance.closingBalance)
    (filter_of_upTo hagree.walletBalances fun _ hrow => (of_decide_eq_true hrow).2.2.le)

theorem previousGlClosing (accountCode : String) :
    second.previousGlClosing date currency accountCode =
      first.previousGlClosing date currency accountCode :=
  congrArg (fun rows : List GlBalance =>
      (latest GlBalance.businessDate rows).map GlBalance.closingBalance)
    (filter_of_upTo hagree.glBalances fun _ hrow => (of_decide_eq_true hrow).2.2.le)

theorem activeMapping (walletCode : ℤ) :
    second.activeMapping walletCode = first.activeMapping walletCode := by
  rw [Books.activeMapping, hagree.mappings, Books.activeMapping]

theorem isLiability (accountCode : String) :
    second.isLiability accountCode = first.isLiability accountCode := by
  rw [Books.isLiability, hagree.accounts, Books.isLiability]

theorem target (request : CloseRequest) : second.target request = first.target request := by
  unfold Books.target Books.configuration
  rw [hagree.configurations]

/-- What is read of the wallet of an entry agrees, unless it is its amount. -/
theorem any_wallet (msisdn : ℤ) (read : Wallet → Bool)
    (hread : ∀ amounts wallet, read (Wallet.withAmount amounts wallet) = read wallet) :
    (second.wallets.find? msisdn).any read = (first.wallets.find? msisdn).any read := by
  obtain ⟨amounts, hwallets⟩ := hagree.wallets
  rw [hwallets, Table.find?_map, Option.any_map]
  cases first.wallets.find? msisdn with
  | none => rfl
  | some wallet => exact hread amounts wallet

/-- The day is ready in both databases or in neither. -/
theorem journalValidation :
    second.journalValidation date currency = first.journalValidation date currency := by
  have hprocessing : second.processing date currency = first.processing date currency := by
    rw [Books.processing, hagree.dayJournals, Books.processing]
  have hunbalanced : second.unbalanced date currency = first.unbalanced date currency := by
    rw [Books.unbalanced, hagree.dayJournals, Books.unbalanced]
    apply List.countP_congr
    intro journal hjournal
    obtain ⟨hmem, hday⟩ := List.mem_filter.mp hjournal
    rw [hagree.lines journal hmem (of_decide_eq_true hday).1.le]
  have hunmapped : second.unmapped date currency = first.unmapped date currency := by
    rw [Books.unmapped, hagree.dayEntries, Books.unmapped]
    apply List.countP_congr
    intro entry _
    simp only [hagree.activeMapping]
    rw [hagree.any_wallet entry.accountNumber _ fun _ _ => rfl]
  have hmismatch : second.currencyMismatch date currency =
      first.currencyMismatch date currency := by
    rw [Books.currencyMismatch, hagree.dayEntries, Books.currencyMismatch]
    apply List.countP_congr
    intro entry _
    rw [hagree.any_wallet entry.accountNumber _ fun _ _ => rfl]
  rw [Books.journalValidation, hprocessing, hunbalanced, hunmapped, hmismatch,
    Books.journalValidation]

theorem ready : second.Ready date currency ↔ first.Ready date currency := by
  rw [← Books.blockingCount_journalValidation, hagree.journalValidation,
    Books.blockingCount_journalValidation]

theorem glActivity (accountCode : String) :
    second.glActivity date currency accountCode = first.glActivity date currency accountCode := by
  rw [Books.glActivity, hagree.dayEntries, Books.glActivity]
  apply List.filter_congr
  intro entry _
  simp only [hagree.activeMapping]
  rw [hagree.any_wallet entry.accountNumber _ fun _ _ => rfl]

/-- The wallets of the currency are the same, with other amounts. -/
theorem walletsOf (currency : String) : ∃ amounts : ℤ → ℤ,
    second.walletsOf currency = (first.walletsOf currency).map (Wallet.withAmount amounts) ∧
      ∀ msisdn, second.balance msisdn =
        (first.wallets.find? msisdn).map fun _ => amounts msisdn := by
  obtain ⟨amounts, hwallets⟩ := hagree.wallets
  refine ⟨amounts, ?_, fun msisdn => ?_⟩
  · rw [Books.walletsOf, hwallets, Table.rows_map, List.filter_map]
    rfl
  · rw [Books.balance, hwallets, Table.find?_map, Option.map_map]
    cases hfind : first.wallets.find? msisdn with
    | none => rfl
    | some wallet => simp [Wallet.withAmount, (Table.find?_eq_some.mp hfind).2]

/-! ## The balances of the day -/

/-- Two closes take the same balance of a wallet exactly when its amount is not read or
agrees. -/
theorem walletSnapshot_iff (amounts : ℤ → ℤ) (wallet : Wallet) (mapping : Mapping) :
    second.walletSnapshot date currency (wallet.withAmount amounts) mapping =
        first.walletSnapshot date currency wallet mapping ↔
      (first.Unrecorded date currency wallet → amounts wallet.walletMsisdn = wallet.amount) := by
  have hcarried : second.carried date currency (wallet.withAmount amounts) =
      (first.previousClosing date currency wallet.walletMsisdn).getD
        (amounts wallet.walletMsisdn) := by
    rw [Books.carried, hagree.previousClosing]
    rfl
  have hpair : second.walletSnapshot date currency (wallet.withAmount amounts) mapping =
      first.walletSnapshot date currency wallet mapping ↔
        (openingOf (first.walletActivity date currency wallet.walletMsisdn)).getD
            (second.carried date currency (wallet.withAmount amounts)) =
          (openingOf (first.walletActivity date currency wallet.walletMsisdn)).getD
            (first.carried date currency wallet) ∧
        (closingOf (first.walletActivity date currency wallet.walletMsisdn)).getD
            (second.carried date currency (wallet.withAmount amounts)) =
          (closingOf (first.walletActivity date currency wallet.walletMsisdn)).getD
            (first.carried date currency wallet) := by
    simp [Books.walletSnapshot, hagree.walletActivity, hagree.nextVersion, Wallet.withAmount]
  rw [hpair, hcarried, Books.carried, Books.Unrecorded]
  cases first.previousClosing date currency wallet.walletMsisdn <;>
    cases openingOf (first.walletActivity date currency wallet.walletMsisdn) <;>
    cases closingOf (first.walletActivity date currency wallet.walletMsisdn) <;> simp

/-- Two closes take the same balances exactly when the amounts they read agree. -/
theorem walletSnapshots_iff :
    second.walletSnapshots date currency = first.walletSnapshots date currency ↔
      ∀ wallet ∈ first.walletsOf currency, first.activeMapping wallet.walletCode ≠ none →
        first.Unrecorded date currency wallet →
          second.balance wallet.walletMsisdn = some wallet.amount := by
  obtain ⟨amounts, hwallets, hbalance⟩ := hagree.walletsOf currency
  have hfound : ∀ wallet ∈ first.walletsOf currency,
      second.balance wallet.walletMsisdn = some (amounts wallet.walletMsisdn) := by
    intro wallet hwallet
    rw [hbalance, Table.find?_key (List.mem_filter.mp hwallet).1, Option.map_some]
  constructor
  · intro hsame wallet hwallet hmapped hunrecorded
    obtain ⟨mapping, hmapping⟩ := Option.ne_none_iff_exists'.mp hmapped
    have hrow : second.walletSnapshot date currency (wallet.withAmount amounts) mapping ∈
        second.walletSnapshots date currency :=
      (second.mem_walletSnapshots date currency).mpr ⟨wallet.withAmount amounts,
        by rw [hwallets]; exact List.mem_map_of_mem hwallet, mapping,
        (hagree.activeMapping _).trans hmapping, rfl⟩
    rw [hsame] at hrow
    obtain ⟨other, hother, mapping', hmapping', hsnapshot⟩ :=
      (first.mem_walletSnapshots date currency).mp hrow
    have hkey : other.walletMsisdn = wallet.walletMsisdn :=
      congrArg WalletBalance.walletMsisdn hsnapshot
    have hself : other = wallet := first.wallets.eq_of_key_eq (List.mem_filter.mp hother).1
      (List.mem_filter.mp hwallet).1 hkey
    subst hself
    rw [hmapping] at hmapping'
    cases hmapping'
    have hamount := (hagree.walletSnapshot_iff amounts other mapping).mp hsnapshot.symm
    rw [hfound other hwallet, hamount hunrecorded]
  · intro hamounts
    rw [Books.walletSnapshots, hwallets, List.filterMap_map, Books.walletSnapshots]
    apply List.filterMap_congr
    intro wallet hwallet
    show (second.activeMapping wallet.walletCode).map _ = _
    rw [hagree.activeMapping]
    cases hmapping : first.activeMapping wallet.walletCode with
    | none => rfl
    | some mapping =>
      rw [Option.map_some, Option.map_some]
      apply congrArg some
      apply (hagree.walletSnapshot_iff amounts wallet mapping).mpr
      intro hunrecorded
      have hlive := hamounts wallet hwallet (by simp [hmapping]) hunrecorded
      rw [hfound wallet hwallet] at hlive
      exact Option.some.inj hlive

/-- With the same balances of the wallets the GL balances are the same. -/
theorem glSnapshots (hsame : second.walletSnapshots date currency =
    first.walletSnapshots date currency) :
    (second.snapshotWallets date currency).glSnapshots date currency =
      (first.snapshotWallets date currency).glSnapshots date currency := by
  have htaken : (second.snapshotWallets date currency).dayBalances date currency =
      (first.snapshotWallets date currency).dayBalances date currency := by
    show (second.snapshot date currency).dayBalances date currency =
      (first.snapshot date currency).dayBalances date currency
    rw [Books.dayBalances_snapshot, Books.dayBalances_snapshot, hsame]
  show (second.accounts.rows.filter GlAccount.isActive).map _ =
    (first.accounts.rows.filter GlAccount.isActive).map _
  rw [hagree.accounts]
  apply List.map_congr_left
  intro account _
  have hopening : (second.snapshotWallets date currency).glOpening date currency account =
      (first.snapshotWallets date currency).glOpening date currency account := by
    rw [Books.glOpening, Books.glOpening, htaken]
    show (second.previousGlClosing date currency account.accountCode).getD _ =
      (first.previousGlClosing date currency account.accountCode).getD _
    rw [hagree.previousGlClosing]
  have hactivity : (second.snapshotWallets date currency).glActivity date currency
      account.accountCode = (first.snapshotWallets date currency).glActivity date currency
        account.accountCode := hagree.glActivity account.accountCode
  have hversion : (second.snapshotWallets date currency).nextVersion date currency =
      (first.snapshotWallets date currency).nextVersion date currency := hagree.nextVersion
  rw [Books.glSnapshot, Books.glSnapshot, hopening, hactivity, hversion]

/-! ## The two closes -/

variable {config : Configuration} {request : CloseRequest}

/-- Two rehearsals of a ready day agree exactly when the live balances do. -/
theorem sameClose_dryRun (hready : first.Ready date currency) (hdry : request.dryRun = true) :
    SameClose date currency (first.closeDay date currency request config)
        (second.closeDay date currency request config) ↔
      LiveReadsAgree date currency config request.dryRun first second := by
  rw [Books.closeDay_of_dryRun hready hdry,
    Books.closeDay_of_dryRun (hagree.ready.mpr hready) hdry]
  obtain ⟨_, hwallets, _⟩ := hagree.walletsOf currency
  constructor
  · intro hsame
    refine ⟨congrArg Totals.masterBalance hsame.figures, fun _ => ?_, fun hreal => ?_⟩
    · exact Option.some.inj (congrArg Totals.safeguardedLiability hsame.figures)
    · rw [hdry] at hreal
      cases hreal
  · intro hlive
    have hreport : second.rehearsal date currency config = first.rehearsal date currency config := by
      rw [Books.rehearsal, hagree.activity, hwallets, List.length_map, hlive.master,
        hlive.rehearsed hdry, Books.rehearsal]
    rw [hreport]
    exact ⟨hagree.dayBalances, hagree.dayGlBalances, rfl, rfl⟩

/-- Two closes of a ready day agree exactly when the live balances that they read do. -/
theorem sameClose_real (hready : first.Ready date currency) (hreal : request.dryRun = false) :
    SameClose date currency (first.closeDay date currency request config)
        (second.closeDay date currency request config) ↔
      LiveReadsAgree date currency config request.dryRun first second := by
  rw [Books.closeDay_of_real hready hreal,
    Books.closeDay_of_real (hagree.ready.mpr hready) hreal]
  have hsnapshots : second.walletSnapshots date currency = first.walletSnapshots date currency →
      (second.snapshot date currency).dayBalances date currency =
        (first.snapshot date currency).dayBalances date currency := by
    intro hsame
    rw [Books.dayBalances_snapshot, hsame, Books.dayBalances_snapshot]
  constructor
  · intro hsame
    have htaken : second.walletSnapshots date currency = first.walletSnapshots date currency := by
      rw [← Books.dayBalances_snapshot, ← Books.dayBalances_snapshot]
      exact hsame.walletSnapshots
    refine ⟨congrArg Totals.masterBalance hsame.figures, fun hdry => ?_, fun _ => ?_⟩
    · rw [hreal] at hdry
      cases hdry
    · exact hagree.walletSnapshots_iff.mp htaken
  · intro hlive
    have htaken := hagree.walletSnapshots_iff.mpr (hlive.closed hreal)
    have hbalances := hsnapshots htaken
    have hliability : (second.snapshot date currency).snapshotLiability date currency =
        (first.snapshot date currency).snapshotLiability date currency := by
      rw [Books.snapshotLiability, hbalances, Books.snapshotLiability]
      show (List.map _ (List.filter (fun balance : WalletBalance =>
        (second.mappings.find? balance.walletCode).any Mapping.isSafeguarded &&
          second.isLiability balance.glAccountCode) _)).sum = _
      simp only [hagree.mappings, hagree.isLiability]
      rfl
    have hreport : (second.snapshot date currency).settlement date currency config =
        (first.snapshot date currency).settlement date currency config := by
      show Report.compared _ _ (second.activity date currency) _
        (second.balance config.masterWallet) _ = _
      rw [hbalances, hliability, hagree.activity, hlive.master]
      rfl
    rw [hreport]
    refine ⟨hbalances, ?_, rfl, rfl⟩
    show (second.snapshot date currency).dayGlBalances date currency =
      (first.snapshot date currency).dayGlBalances date currency
    rw [Books.dayGlBalances_snapshot, Books.dayGlBalances_snapshot, hagree.glSnapshots htaken]

end AgreeUpTo

/-! ## The exact condition -/

def CloseRequest.forDay (request : CloseRequest) (date : Date) (currency : String) :
    CloseRequest :=
  { request with businessDate := some date, currency := some currency }

/-- Two databases that agree up to a day have the same close of it exactly when the call
is refused, the day is closed or not ready, or the live balances that the close reads
agree. -/
theorem close_depends_on_past_iff {date : Date} {first second : Books}
    (hagree : AgreeUpTo date first second) (currency : String) (request : CloseRequest) :
    SameClose date currency (closeEod first (request.forDay date currency))
        (closeEod second (request.forDay date currency)) ↔
      ∀ config, first.target (request.forDay date currency) = some (date, currency, config) →
        first.Ready date currency →
        (request.dryRun = true ∨ first.completedRun date currency = none) →
        LiveReadsAgree date currency config request.dryRun first second := by
  have hsecond := hagree.target (request.forDay date currency)
  cases htarget : first.target (request.forDay date currency) with
  | none =>
    rw [htarget] at hsecond
    have hrefused : ∀ books : Books, books.target (request.forDay date currency) = none →
        ∃ code, code.success = false ∧
          closeEod books (request.forDay date currency) = (books, refused code) :=
      fun _ => closeEod_of_none
    obtain ⟨firstCode, _, hfirst⟩ := hrefused first htarget
    obtain ⟨secondCode, _, hsecond⟩ := hrefused second hsecond
    simp only [reduceCtorEq, false_implies, implies_true, iff_true]
    rw [hfirst, hsecond]
    exact ⟨hagree.dayBalances, hagree.dayGlBalances, rfl, rfl⟩
  | some about =>
    obtain ⟨date', currency', config⟩ := about
    obtain ⟨hdate, hcurrency, _, _⟩ := Books.target_eq_some.mp htarget
    cases hdate
    cases hcurrency
    rw [htarget] at hsecond
    by_cases hopen : request.dryRun = true ∨ first.completedRun date currency = none
    · rw [closeEod_of_open htarget hopen,
        closeEod_of_open hsecond (by rw [hagree.completedRun]; exact hopen)]
      have honly : (∀ config', some (date, currency, config) = some (date, currency, config') →
          first.Ready date currency →
          (request.dryRun = true ∨ first.completedRun date currency = none) →
          LiveReadsAgree date currency config' request.dryRun first second) ↔
            (first.Ready date currency →
              LiveReadsAgree date currency config request.dryRun first second) :=
        ⟨fun hall hready => hall config rfl hready hopen,
          fun hready config' hsame hday _ => by cases hsame; exact hready hday⟩
      rw [honly]
      by_cases hready : first.Ready date currency
      · have hclose : SameClose date currency
            (first.closeDay date currency (request.forDay date currency) config)
            (second.closeDay date currency (request.forDay date currency) config) ↔
              LiveReadsAgree date currency config request.dryRun first second := by
          cases hdry : request.dryRun with
          | true =>
            rw [← hdry]
            exact hagree.sameClose_dryRun hready hdry
          | false =>
            rw [← hdry]
            exact hagree.sameClose_real hready hdry
        rw [hclose]
        exact ⟨fun hlive _ => hlive, fun hlive => hlive hready⟩
      · rw [Books.closeDay_of_not_ready hready,
          Books.closeDay_of_not_ready (mt hagree.ready.mp hready)]
        exact ⟨fun _ hday => absurd hday hready, fun _ =>
          ⟨hagree.dayBalances, hagree.dayGlBalances, rfl, rfl⟩⟩
    · have hreal : request.dryRun = false := by
        simpa using fun hdry => hopen (.inl hdry)
      obtain ⟨existing, hrun⟩ := Option.ne_none_iff_exists'.mp fun hnone => hopen (.inr hnone)
      rw [closeEod_of_completed htarget hreal hrun,
        closeEod_of_completed hsecond hreal (hagree.completedRun.trans hrun)]
      exact ⟨fun _ _ _ _ hday => absurd hday hopen, fun _ =>
        ⟨hagree.dayBalances, hagree.dayGlBalances, rfl, rfl⟩⟩

/-! ## A transfer on the day after -/

/-- Wallet 7 holds 100 on day 5; in one of the two databases it gave them to wallet 8 on
day 6.  `earlier` are the balances of the days closed before. -/
def transferBooks (later : Bool) (earlier : Table WalletBalance.key) : Books where
  wallets := ⟨[{ walletMsisdn := 110, walletCode := 110, amount := 100, currency := "GBP" },
    { walletMsisdn := 7, walletCode := 1, amount := if later then 0 else 100, currency := "GBP" },
    { walletMsisdn := 8, walletCode := 1, amount := if later then 100 else 0, currency := "GBP" }],
    by simp⟩
  mappings := ⟨[{ walletCode := 110, glAccountCode := "1000-SAFEGUARDING" },
    { walletCode := 1, glAccountCode := "2000-CUSTOMER-WALLET", isSafeguarded := true }],
    by simp⟩
  accounts := ⟨[
    { accountCode := "1000-SAFEGUARDING", accountType := .asset, normalBalance := .debit },
    { accountCode := "2000-CUSTOMER-WALLET", accountType := .liability,
      normalBalance := .credit }], by simp⟩
  configurations := [{ currency := "GBP", masterWallet := 110, effectiveFrom := 1 }]
  journals :=
    if later then
      ⟨[{ id := 1, businessDate := 6, currency := "GBP", status := .completed }], 2,
        List.pairwise_singleton _ _, by decide⟩
    else .empty
  entries :=
    if later then
      ⟨[{ id := 1, journalId := 1, businessDate := 6, currency := "GBP", debit := 100,
          credit := 0, entryDate := 60, accountNumber := 7, balanceBefore := some 100,
          balanceAfter := some 0 },
        { id := 2, journalId := 1, businessDate := 6, currency := "GBP", debit := 0,
          credit := 100, entryDate := 60, accountNumber := 8, balanceBefore := some 0,
          balanceAfter := some 100 }], 3, by decide, by decide⟩
    else .empty
  periods := .empty
  batches := .empty
  runs := .empty
  walletBalances := earlier
  glBalances := .empty

/-- The two databases agree up to day 5. -/
theorem transferBooks_agree (earlier : Table WalletBalance.key) :
    AgreeUpTo 5 (transferBooks false earlier) (transferBooks true earlier) where
  wallets := ⟨fun msisdn => if msisdn = 7 then 0 else 100, rfl⟩
  mappings := rfl
  accounts := rfl
  configurations := rfl
  journals := rfl
  lines := fun journal hjournal => by simp [transferBooks] at hjournal
  entries := rfl
  periods := rfl
  batches := rfl
  runs := rfl
  walletBalances := rfl
  glBalances := rfl

def fourthDay : Table WalletBalance.key where
  rows := [(110, 110, 100, "1000-SAFEGUARDING"), (7, 1, 100, "2000-CUSTOMER-WALLET"),
      (8, 1, 0, "2000-CUSTOMER-WALLET")].map
    fun row =>
      { businessDate := 4, currency := "GBP", walletMsisdn := row.1, walletCode := row.2.1,
        glAccountCode := row.2.2.2, openingBalance := row.2.2.1, totalDebit := 0,
        totalCredit := 0, closingBalance := row.2.2.1, transactionCount := 0, runVersion := 1 }
  nodup := by simp [WalletBalance.key]

def fifthDay : CloseRequest := { businessDate := some 5, currency := some "GBP" }

/-- With the balances of day 4 on record, the transfer of day 6 does not show in the close
of day 5. -/
theorem transfer_invisible :
    SameClose 5 "GBP" (closeEod (transferBooks false fourthDay) (fifthDay.forDay 5 "GBP"))
      (closeEod (transferBooks true fourthDay) (fifthDay.forDay 5 "GBP")) := by
  apply (close_depends_on_past_iff (transferBooks_agree fourthDay) "GBP" fifthDay).mpr
  intro config htarget _ _
  have hrecorded : ∀ wallet ∈ (transferBooks false fourthDay).walletsOf "GBP",
      (transferBooks false fourthDay).previousClosing 5 "GBP" wallet.walletMsisdn ≠ none := by
    decide +kernel
  refine ⟨?_, fun hdry => absurd hdry (by simp [fifthDay]), fun _ wallet hwallet _ hunrecorded => ?_⟩
  · have hconfig := (Books.target_eq_some.mp htarget).2.2.2
    have hmaster : ((transferBooks false fourthDay).configuration 5 "GBP").map
        Configuration.masterWallet = some 110 := by
      decide
    rw [hconfig] at hmaster
    rw [Option.some.inj hmaster]
    rfl
  · exact absurd hunrecorded.1 (hrecorded wallet hwallet)

/-- Without earlier balances on record, the close of day 5 depends on a transfer made on
day 6. -/
theorem close_depends_on_transfer :
    AgreeUpTo 5 (transferBooks false .empty) (transferBooks true .empty) ∧
      (closeEod (transferBooks false .empty) fifthDay).2.runStatus = .completed ∧
      ¬ SameClose 5 "GBP"
        (closeEod (transferBooks false .empty) fifthDay)
        (closeEod (transferBooks true .empty) fifthDay) := by
  refine ⟨transferBooks_agree .empty, by decide +kernel, fun hsame => ?_⟩
  have hbalances := hsame.walletSnapshots
  revert hbalances
  decide +kernel

end Finify.Eod
