/-
# The balances of closed days

What a closed day says about a wallet, against the entries that moved it.  Entries are
applied in the order of their numbers, while a close orders those of its day by the time
their transactions started, carries a quiet wallet's balance over from its last closed day,
and otherwise takes the amount it holds now.  The module proves the balances right in every
run in which these three agree with the order of application.
-/

import Finify.Eod.ClosedDays
import Finify.Foundations.Trail

namespace Finify.Eod

open Finify.Foundations
open Finify.Posting (JournalStatus)

/-! ## The history of a wallet -/

/-- What the entry did to its wallet. -/
def Entry.change (entry : Entry) : ℤ := entry.balanceAfter.getD 0 - entry.balanceBefore.getD 0

/-- The entry takes the wallet from one balance to the next. -/
def Entry.Moves (before : ℤ) (entry : Entry) (after : ℤ) : Prop :=
  entry.balanceBefore = some before ∧ entry.balanceAfter = some after

def Entry.dated (entry : Entry) : ℤ ×ₗ ℤ := toLex (entry.businessDate, entry.entryDate)

def Writer.dated (writer : Writer) : ℤ ×ₗ ℤ := toLex (writer.businessDate, writer.startedAt)

namespace Books

variable (books : Books) (wallet : ℤ) (date : Date)

/-- The entries of a wallet, in the order in which they were applied. -/
def history : List Entry :=
  books.entries.rows.filter fun entry => entry.accountNumber = wallet

/-- Those of one business date. -/
def historyOf : List Entry :=
  (books.history wallet).filter fun entry => entry.businessDate = date

/-- Those of the business dates up to one. -/
def historyUpTo : List Entry :=
  (books.history wallet).filter fun entry => entry.businessDate ≤ date

/-- The balance of a wallet after the last entry applied on or before a date; before its
first entry if that is later; and what it holds if it has none. -/
def recordedBalance : Option ℤ :=
  match (books.historyUpTo wallet date).getLast? with
  | some last => last.balanceAfter
  | none =>
    match (books.history wallet).head? with
    | some first => first.balanceBefore
    | none => books.balance wallet

end Books

/-- The balance row of a wallet is right: it closes with the balance that the history gives,
and between opening and closing lie the movements of the date. -/
structure RightBalance (books : Books) (row : WalletBalance) : Prop where
  closing : books.recordedBalance row.walletMsisdn row.businessDate = some row.closingBalance
  movement : row.closingBalance = row.openingBalance +
    ((books.historyOf row.walletMsisdn row.businessDate).map Entry.change).sum

/-! ## Orderly runs -/

/-- A writer comes after all that a wallet has: after its entries by business date and start
of the transaction, after its closed days, and on a date on which the wallet has entries
with the balance these left. -/
structure MayWrite (books : Books) (writer : Writer) (wallet : ℤ) : Prop where
  inOrder : ∀ entry ∈ books.history wallet, entry.dated ≤ writer.dated
  notTaken : ∀ row ∈ books.walletBalances.rows, row.walletMsisdn = wallet →
    row.businessDate < writer.businessDate
  unbroken : ∀ last ∈ (books.historyOf wallet writer.businessDate).getLast?,
    last.balanceAfter = books.balance wallet
  currency : (books.wallets.find? wallet).any fun found =>
    found.currency.toUpper = writer.currency

/-- Maintenance leaves a wallet the currency of its entries, and the amount of a wallet that
has been closed but never written. -/
structure MayMaintain (books : Books) (wallets : Table Wallet.walletMsisdn) : Prop where
  currencies : ∀ wallet ∈ wallets.rows, ∀ entry ∈ books.history wallet.walletMsisdn,
    entry.currency = wallet.currency.toUpper
  amounts : ∀ row ∈ books.walletBalances.rows, books.history row.walletMsisdn = [] →
    (wallets.find? row.walletMsisdn).map Wallet.amount = books.balance row.walletMsisdn

/-- A wallet without an entry of the day has none since its last closed day, and none at all
if it has no closed day. -/
def Books.CarriedOver (books : Books) (date : Date) (currency : String) (wallet : ℤ) : Prop :=
  (∀ prior ∈ books.previousBalance date currency wallet, ∀ entry ∈ books.history wallet,
      entry.businessDate < date → entry.businessDate ≤ prior.businessDate) ∧
    (books.previousBalance date currency wallet = none → books.history wallet = [])

/-- A day may be closed when each wallet that is closed with it has an entry of the day or
has been quiet since its last closed day. -/
def MayClose (books : Books) (date : Date) (currency : String) : Prop :=
  ∀ wallet ∈ books.walletsOf currency, books.activeMapping wallet.walletCode ≠ none →
    books.historyOf wallet.walletMsisdn date = [] →
      books.CarriedOver date currency wallet.walletMsisdn

/-- What the steps of an orderly run meet. -/
def Orderly (state : Accounting) : Event → Prop
  | .commit writer _ lines => ∀ line ∈ lines, MayWrite state.books writer line.accountNumber
  | .maintain wallets _ _ _ => MayMaintain state.books wallets
  | .finishClose date currency => MayClose state.books date currency
  | _ => True

instance (books : Books) (writer : Writer) (wallet : ℤ) :
    Decidable (MayWrite books writer wallet) :=
  decidable_of_iff
    ((∀ entry ∈ books.history wallet, entry.dated ≤ writer.dated) ∧
      (∀ row ∈ books.walletBalances.rows, row.walletMsisdn = wallet →
        row.businessDate < writer.businessDate) ∧
      (∀ last ∈ (books.historyOf wallet writer.businessDate).getLast?,
        last.balanceAfter = books.balance wallet) ∧
      (books.wallets.find? wallet).any fun found => found.currency.toUpper = writer.currency)
    ⟨fun h => ⟨h.1, h.2.1, h.2.2.1, h.2.2.2⟩, fun h => ⟨h.1, h.2, h.3, h.4⟩⟩

instance (books : Books) (wallets : Table Wallet.walletMsisdn) :
    Decidable (MayMaintain books wallets) :=
  decidable_of_iff
    ((∀ wallet ∈ wallets.rows, ∀ entry ∈ books.history wallet.walletMsisdn,
        entry.currency = wallet.currency.toUpper) ∧
      ∀ row ∈ books.walletBalances.rows, books.history row.walletMsisdn = [] →
        (wallets.find? row.walletMsisdn).map Wallet.amount = books.balance row.walletMsisdn)
    ⟨fun h => ⟨h.1, h.2⟩, fun h => ⟨h.1, h.2⟩⟩

instance (books : Books) (date : Date) (currency : String) (wallet : ℤ) :
    Decidable (books.CarriedOver date currency wallet) :=
  inferInstanceAs (Decidable (_ ∧ _))

instance (books : Books) (date : Date) (currency : String) :
    Decidable (MayClose books date currency) :=
  inferInstanceAs (Decidable (∀ wallet ∈ books.walletsOf currency,
    books.activeMapping wallet.walletCode ≠ none →
      books.historyOf wallet.walletMsisdn date = [] →
        books.CarriedOver date currency wallet.walletMsisdn))

instance (state : Accounting) : (event : Event) → Decidable (Orderly state event)
  | .start _ => .isTrue trivial
  | .commit writer _ lines => inferInstanceAs (Decidable (∀ line ∈ lines,
      MayWrite state.books writer line.accountNumber))
  | .rollBack _ => .isTrue trivial
  | .mark _ _ => .isTrue trivial
  | .maintain wallets _ _ _ => inferInstanceAs (Decidable (MayMaintain state.books wallets))
  | .rehearse _ => .isTrue trivial
  | .beginClose _ => .isTrue trivial
  | .finishClose date currency => inferInstanceAs (Decidable (MayClose state.books date currency))
  | .abandonClose _ _ => .isTrue trivial

/-! ## What orderly runs keep -/

/-- Histories are ordered and linked day by day, and the balances of closed days are right. -/
structure Kept (books : Books) : Prop where
  sorted : ∀ wallet, (books.history wallet).Pairwise fun earlier later =>
    earlier.dated ≤ later.dated
  linked : ∀ wallet date, ∃ a b, Trail Entry.Moves a (books.historyOf wallet date) b
  currencies : ∀ wallet ∈ books.wallets.rows, ∀ entry ∈ books.history wallet.walletMsisdn,
    entry.currency = wallet.currency.toUpper
  right : ∀ row ∈ books.walletBalances.rows, RightBalance books row

section

variable {before after : Books}

/-- A row stays right while the entries of its wallet do, and its amount if it has none. -/
theorem RightBalance.of_same {row : WalletBalance} (hright : RightBalance before row)
    (hhistory : after.history row.walletMsisdn = before.history row.walletMsisdn)
    (hbalance : before.history row.walletMsisdn = [] →
      after.balance row.walletMsisdn = before.balance row.walletMsisdn) :
    RightBalance after row := by
  refine ⟨?_, ?_⟩
  · rw [← hright.closing, Books.recordedBalance, Books.recordedBalance, Books.historyUpTo,
      Books.historyUpTo, hhistory]
    cases hfirst : (before.history row.walletMsisdn).head? with
    | none => rw [hbalance (List.head?_eq_none_iff.mp hfirst)]
    | some first => rfl
  · rw [Books.historyOf, hhistory]
    exact hright.movement

/-- What changes neither entries nor wallets nor the balances of closed days keeps them. -/
theorem Kept.of_same (hkept : Kept before) (hentries : after.entries = before.entries)
    (hwallets : after.wallets = before.wallets)
    (hrows : after.walletBalances = before.walletBalances) : Kept after := by
  have hhistory : ∀ wallet, after.history wallet = before.history wallet := by
    intro wallet
    rw [Books.history, hentries, Books.history]
  have hbalance : ∀ wallet, after.balance wallet = before.balance wallet := by
    intro wallet
    rw [Books.balance, hwallets, Books.balance]
  refine ⟨fun wallet => ?_, fun wallet date => ?_, fun wallet hwallet => ?_, fun row hrow => ?_⟩
  · rw [hhistory]
    exact hkept.sorted wallet
  · rw [Books.historyOf, hhistory]
    exact hkept.linked wallet date
  · rw [hwallets] at hwallet
    rw [hhistory]
    exact hkept.currencies wallet hwallet
  · rw [hrows] at hrow
    exact (hkept.right row hrow).of_same (hhistory _) fun _ => hbalance _

/-- Maintenance that leaves currencies and unwritten amounts keeps the balances right. -/
theorem Kept.maintain (hkept : Kept before) (hentries : after.entries = before.entries)
    (hmay : MayMaintain before after.wallets)
    (hrows : after.walletBalances = before.walletBalances) : Kept after := by
  have hhistory : ∀ wallet, after.history wallet = before.history wallet := by
    intro wallet
    rw [Books.history, hentries, Books.history]
  refine ⟨fun wallet => ?_, fun wallet date => ?_, fun wallet hwallet => ?_, fun row hrow => ?_⟩
  · rw [hhistory]
    exact hkept.sorted wallet
  · rw [Books.historyOf, hhistory]
    exact hkept.linked wallet date
  · rw [hhistory]
    exact hmay.currencies wallet hwallet
  · rw [hrows] at hrow
    exact (hkept.right row hrow).of_same (hhistory _) (hmay.amounts row hrow)

end

/-! ## Writing a line -/

section

variable {books : Books} {writer : Writer} {journalId : ℕ} {line : Line}

theorem balance_writeLine_of_ne {wallet : ℤ} (hne : wallet ≠ line.accountNumber) :
    (books.writeLine writer journalId line).balance wallet = books.balance wallet :=
  books.balance_changeAmount_of_ne line.change hne

theorem balance_writeLine_self :
    (books.writeLine writer journalId line).balance line.accountNumber =
      (books.balance line.accountNumber).map (· + line.change) :=
  books.balance_changeAmount_self line.accountNumber line.change

/-- The history of a written wallet ends with the new entry. -/
theorem history_writeLine_self :
    (books.writeLine writer journalId line).history line.accountNumber =
      books.history line.accountNumber ++
        [books.entryOf writer journalId line books.entries.next] := by
  show (books.entries.rows ++ [books.entryOf writer journalId line books.entries.next]).filter _ = _
  rw [List.filter_append, List.filter_cons_of_pos, List.filter_nil]
  · rfl
  · exact decide_eq_true rfl

theorem historyOf_writeLine_self (date : Date) :
    (books.writeLine writer journalId line).historyOf line.accountNumber date =
      books.historyOf line.accountNumber date ++
        if writer.businessDate = date then
          [books.entryOf writer journalId line books.entries.next]
        else [] := by
  rw [Books.historyOf, history_writeLine_self, List.filter_append, List.filter_cons,
    List.filter_nil]
  show _ ++ (if decide (writer.businessDate = date) = true then _ else _) = _
  simp only [decide_eq_true_eq]
  rfl

theorem history_writeLine_of_ne {wallet : ℤ} (hne : wallet ≠ line.accountNumber) :
    (books.writeLine writer journalId line).history wallet = books.history wallet := by
  show (books.entries.rows ++ [books.entryOf writer journalId line books.entries.next]).filter _ = _
  rw [List.filter_append, List.filter_cons_of_neg, List.filter_nil, List.append_nil]
  · rfl
  · exact fun hsame => hne (of_decide_eq_true hsame).symm

/-- The amount of a wallet that may be written. -/
theorem MayWrite.balance {wallet : ℤ} (hmay : MayWrite books writer wallet) :
    ∃ amount, books.balance wallet = some amount := by
  obtain ⟨found, hfind, _⟩ := (Option.any_eq_true _ _).mp hmay.currency
  exact ⟨found.amount, by rw [Books.balance, hfind, Option.map_some]⟩

/-- A row of an earlier date stays right when its wallet is written. -/
theorem RightBalance.writeLine {row : WalletBalance} (hright : RightBalance books row)
    (hmay : MayWrite books writer line.accountNumber) (hrow : row ∈ books.walletBalances.rows) :
    RightBalance (books.writeLine writer journalId line) row := by
  by_cases hwallet : row.walletMsisdn = line.accountNumber
  · have hearlier := hmay.notTaken row hrow hwallet
    have hhistory : (books.writeLine writer journalId line).history line.accountNumber =
        books.history line.accountNumber ++
          [books.entryOf writer journalId line books.entries.next] := history_writeLine_self
    refine ⟨?_, ?_⟩
    · rw [← hright.closing, Books.recordedBalance, Books.recordedBalance, Books.historyUpTo,
        Books.historyUpTo, hwallet, hhistory, List.filter_append, List.filter_cons_of_neg,
        List.filter_nil, List.append_nil]
      · cases hlast : ((books.history line.accountNumber).filter fun entry =>
            entry.businessDate ≤ row.businessDate).getLast? with
        | some last => rfl
        | none =>
          cases hfirst : books.history line.accountNumber with
          | nil => rfl
          | cons first rest => rfl
      · exact fun hle => not_le.mpr hearlier (of_decide_eq_true hle)
    · rw [hwallet, historyOf_writeLine_self, if_neg hearlier.ne', List.append_nil, ← hwallet]
      exact hright.movement
  · apply hright.of_same
    · exact history_writeLine_of_ne hwallet
    · intro _
      exact balance_writeLine_of_ne hwallet

/-- A line that may be written keeps histories ordered and linked, and balances right. -/
theorem Kept.writeLine (hkept : Kept books) (hmay : MayWrite books writer line.accountNumber) :
    Kept (books.writeLine writer journalId line) := by
  obtain ⟨amount, hamount⟩ := hmay.balance
  refine ⟨fun wallet => ?_, fun wallet date => ?_, fun wallet hwallet entry hentry => ?_,
    fun row hrow => (hkept.right row hrow).writeLine hmay hrow⟩
  · by_cases hwritten : wallet = line.accountNumber
    · rw [hwritten, history_writeLine_self]
      refine List.pairwise_append.mpr ⟨hkept.sorted _, List.pairwise_singleton _ _, ?_⟩
      intro earlier hearlier later hlater
      rw [List.mem_singleton.mp hlater]
      exact hmay.inOrder earlier hearlier
    · rw [history_writeLine_of_ne hwritten]
      exact hkept.sorted wallet
  · by_cases hwritten : wallet = line.accountNumber
    · obtain ⟨a, b, htrail⟩ := hkept.linked line.accountNumber date
      rw [hwritten, historyOf_writeLine_self]
      by_cases hdate : writer.businessDate = date
      · rw [if_pos hdate]
        have hmove : Entry.Moves amount
            (books.entryOf writer journalId line books.entries.next) (amount + line.change) := by
          refine ⟨hamount, ?_⟩
          show (books.balance line.accountNumber).map _ = _
          rw [hamount, Option.map_some]
        rcases List.eq_nil_or_concat (books.historyOf line.accountNumber date) with
          hnone | ⟨earlier, last, hlast⟩
        · rw [hnone, List.nil_append]
          exact ⟨amount, _, .singleton hmove⟩
        · rw [List.concat_eq_append] at hlast
          -- the last entry of the date left the balance that the new one finds
          have hfound : last.balanceAfter = some amount := by
            rw [← hamount]
            apply hmay.unbroken
            rw [hdate, hlast]
            simp
          rw [hlast] at htrail
          obtain ⟨x, _, hend⟩ := htrail.last
          rw [hfound] at hend
          cases hend
          rw [← hlast] at htrail
          exact ⟨a, _, htrail.append (.singleton hmove)⟩
      · rw [if_neg hdate, List.append_nil]
        exact ⟨a, b, htrail⟩
    · rw [Books.historyOf, history_writeLine_of_ne hwritten]
      exact hkept.linked wallet date
  · obtain ⟨old, hold, hsame⟩ := List.mem_map.mp hwallet
    have hkey : old.walletMsisdn = wallet.walletMsisdn := by
      rw [← hsame]
      split <;> rfl
    have hcurrency : old.currency = wallet.currency := by
      rw [← hsame]
      split <;> rfl
    rw [← hcurrency]
    by_cases hwritten : wallet.walletMsisdn = line.accountNumber
    · rw [hwritten, history_writeLine_self] at hentry
      rcases List.mem_append.mp hentry with hbefore | hnew
      · rw [← hwritten, ← hkey] at hbefore
        exact hkept.currencies old hold entry hbefore
      · rw [List.mem_singleton.mp hnew]
        obtain ⟨found, hfind, hfound⟩ := (Option.any_eq_true _ _).mp hmay.currency
        have hself : books.wallets.find? old.walletMsisdn = some old := Table.find?_key hold
        rw [hkey, hwritten, hfind] at hself
        cases hself
        exact (of_decide_eq_true hfound).symm
    · rw [history_writeLine_of_ne hwritten, ← hkey] at hentry
      exact hkept.currencies old hold entry hentry

theorem MayWrite.writeLine {wallet : ℤ} (hmay : MayWrite books writer wallet) :
    MayWrite (books.writeLine writer journalId line) writer wallet := by
  refine ⟨fun entry hentry => ?_, hmay.notTaken, fun last hlast => ?_, ?_⟩
  · by_cases hwritten : wallet = line.accountNumber
    · rw [hwritten, history_writeLine_self] at hentry
      rcases List.mem_append.mp hentry with hold | hnew
      · rw [← hwritten] at hold
        exact hmay.inOrder entry hold
      · rw [List.mem_singleton.mp hnew]
        exact le_rfl
    · rw [history_writeLine_of_ne hwritten] at hentry
      exact hmay.inOrder entry hentry
  · by_cases hwritten : wallet = line.accountNumber
    · rw [hwritten, historyOf_writeLine_self, if_pos rfl, List.getLast?_concat] at hlast
      cases hlast
      rw [hwritten, balance_writeLine_self]
      rfl
    · rw [Books.historyOf, history_writeLine_of_ne hwritten] at hlast
      rw [balance_writeLine_of_ne hwritten]
      exact hmay.unbroken last hlast
  · show ((books.wallets.modify _ (Wallet.moved line.change)
      (Wallet.walletMsisdn_moved line.change)).find? wallet).any _ = _
    rw [Table.find?_modify]
    split
    · rw [Option.any_map]
      exact hmay.currency
    · exact hmay.currency

/-- Lines that may be written keep histories ordered and linked, and balances right. -/
theorem Kept.write (hkept : Kept books) (status : JournalStatus) {lines : List Line}
    (hmay : ∀ line ∈ lines, MayWrite books writer line.accountNumber) :
    Kept (books.write writer status lines) := by
  have hlines : ∀ (journalId : ℕ) (lines : List Line) (books : Books), Kept books →
      (∀ line ∈ lines, MayWrite books writer line.accountNumber) →
        Kept (lines.foldl (Books.writeLine writer journalId) books) := by
    intro journalId lines
    induction lines with
    | nil => exact fun _ hbooks _ => hbooks
    | cons line lines ih =>
      intro books hbooks hall
      apply ih (books.writeLine writer journalId line)
      · exact hbooks.writeLine (hall line (by simp))
      · exact fun other hother => (hall other (by simp [hother])).writeLine
  apply hlines
  · exact hkept.of_same rfl rfl rfl
  · intro line hline
    have hold := hmay line hline
    exact ⟨hold.inOrder, hold.notTaken, hold.unbroken, hold.currency⟩

end

/-! ## Closing a day -/

section

variable {books : Books} {date : Date} {currency : String} {wallet : Wallet} {mapping : Mapping}

/-- In an ordered history the stamps of one date increase. -/
theorem Kept.stamps (hkept : Kept books) (msisdn : ℤ) (date : Date) :
    (books.historyOf msisdn date).Pairwise fun earlier later => earlier.stamp < later.stamp := by
  have hids : (books.historyOf msisdn date).Pairwise fun earlier later => earlier.id < later.id :=
    (books.entries.increasing.filter _).filter _
  have hdates : (books.historyOf msisdn date).Pairwise fun earlier later =>
      earlier.dated ≤ later.dated := (hkept.sorted msisdn).filter _
  apply (hids.and hdates).imp_of_mem
  intro earlier later hearlier hlater hboth
  have hsame : earlier.businessDate = later.businessDate :=
    (of_decide_eq_true (List.mem_filter.mp hearlier).2).trans
      (of_decide_eq_true (List.mem_filter.mp hlater).2).symm
  have hstarted : earlier.entryDate ≤ later.entryDate := by
    rcases Prod.Lex.toLex_le_toLex.mp hboth.2 with hless | hequal
    · exact absurd hsame hless.ne
    · exact hequal.2
  apply Prod.Lex.toLex_lt_toLex.mpr
  rcases hstarted.lt_or_eq with hless | hequal
  · exact .inl hless
  · exact .inr ⟨hequal, hboth.1⟩

/-- The entries that a close finds for a wallet of the currency are its history of the day. -/
theorem Kept.walletActivity (hkept : Kept books) (hwallet : wallet ∈ books.walletsOf currency) :
    books.walletActivity date currency wallet.walletMsisdn =
      books.historyOf wallet.walletMsisdn date := by
  obtain ⟨hmem, hcurrency⟩ := List.mem_filter.mp hwallet
  rw [Books.walletActivity, Books.dayEntries, Books.historyOf, Books.history, List.filter_filter,
    List.filter_filter]
  apply List.filter_congr
  intro entry hentry
  by_cases haccount : entry.accountNumber = wallet.walletMsisdn
  · have hentryCurrency : entry.currency = currency :=
      (hkept.currencies wallet hmem entry
        (List.mem_filter.mpr ⟨hentry, decide_eq_true haccount⟩)).trans
        (of_decide_eq_true hcurrency)
    simp [haccount, hentryCurrency]
  · simp [haccount]

/-- A carried balance is the recorded one. -/
theorem Kept.carried (hkept : Kept books) (hwallet : wallet ∈ books.walletsOf currency)
    (hquiet : books.historyOf wallet.walletMsisdn date = [])
    (hover : books.CarriedOver date currency wallet.walletMsisdn) :
    books.recordedBalance wallet.walletMsisdn date =
      some (books.carried date currency wallet) := by
  rw [Books.carried, Books.previousClosing]
  cases hprior : books.previousBalance date currency wallet.walletMsisdn with
  | none =>
    have hnever := hover.2 hprior
    have hfound : books.wallets.find? wallet.walletMsisdn = some wallet :=
      Table.find?_key (List.mem_filter.mp hwallet).1
    simp [Books.recordedBalance, Books.historyUpTo, hnever, Books.balance, hfound]
  | some prior =>
    have hmem := List.mem_filter.mp (latest_mem hprior)
    obtain ⟨_, hmsisdn, hearlier⟩ := of_decide_eq_true hmem.2
    have hclosing := (hkept.right prior hmem.1).closing
    rw [hmsisdn] at hclosing
    rw [Option.map_some, Option.getD_some, ← hclosing]
    have hsame : books.historyUpTo wallet.walletMsisdn date =
        books.historyUpTo wallet.walletMsisdn prior.businessDate := by
      apply List.filter_congr
      intro entry hentry
      have hnot : entry.businessDate ≠ date := by
        intro hdate
        have hin : entry ∈ books.historyOf wallet.walletMsisdn date :=
          List.mem_filter.mpr ⟨hentry, decide_eq_true hdate⟩
        rw [hquiet] at hin
        cases hin
      apply decide_eq_decide.mpr
      constructor
      · intro hle
        exact hover.1 prior hprior entry hentry (lt_of_le_of_ne hle hnot)
      · intro hle
        exact hle.trans hearlier.le
    rw [Books.recordedBalance, hsame, Books.recordedBalance]

/-- The balance that a close takes of a wallet is right. -/
theorem Kept.walletSnapshot (hkept : Kept books) (hwallet : wallet ∈ books.walletsOf currency)
    (hover : books.historyOf wallet.walletMsisdn date = [] →
      books.CarriedOver date currency wallet.walletMsisdn) :
    RightBalance books (books.walletSnapshot date currency wallet mapping) := by
  have hactivity : books.walletActivity date currency wallet.walletMsisdn =
      books.historyOf wallet.walletMsisdn date := hkept.walletActivity hwallet
  have hstamps := hkept.stamps wallet.walletMsisdn date
  have hopening : (books.walletSnapshot date currency wallet mapping).openingBalance =
      (((books.historyOf wallet.walletMsisdn date).head?).bind Entry.balanceBefore).getD
        (books.carried date currency wallet) := by
    rw [← earliest_of_increasing hstamps, ← hactivity]
    rfl
  have hclosing : (books.walletSnapshot date currency wallet mapping).closingBalance =
      (((books.historyOf wallet.walletMsisdn date).getLast?).bind Entry.balanceAfter).getD
        (books.carried date currency wallet) := by
    rw [← latest_of_increasing hstamps, ← hactivity]
    rfl
  obtain ⟨a, b, htrail⟩ := hkept.linked wallet.walletMsisdn date
  rcases List.eq_nil_or_concat (books.historyOf wallet.walletMsisdn date) with
    hquiet | ⟨earlier, last, hlast⟩
  · rw [hquiet] at hopening hclosing
    refine ⟨?_, ?_⟩
    · rw [hclosing]
      exact hkept.carried hwallet hquiet (hover hquiet)
    · show _ = _ + ((books.historyOf wallet.walletMsisdn date).map Entry.change).sum
      rw [hopening, hclosing, hquiet]
      simp
  · rw [List.concat_eq_append] at hlast
    have hafter : last.balanceAfter = some b := by
      rw [hlast] at htrail
      obtain ⟨x, hmove⟩ := htrail.last
      exact hmove.2
    have hend : (books.walletSnapshot date currency wallet mapping).closingBalance = b := by
      rw [hclosing, hlast, List.getLast?_concat, Option.bind_some, hafter, Option.getD_some]
    have hstart : (books.walletSnapshot date currency wallet mapping).openingBalance = a := by
      rw [hopening]
      cases hhistory : books.historyOf wallet.walletMsisdn date with
      | nil =>
        rw [hhistory] at hlast
        simp at hlast
      | cons first rest =>
        rw [hhistory] at htrail
        obtain ⟨x, hmove⟩ := htrail.first
        rw [List.head?_cons, Option.bind_some, hmove.1, Option.getD_some]
    refine ⟨?_, ?_⟩
    · have hdates : (books.history wallet.walletMsisdn).Pairwise fun earlier later =>
          earlier.businessDate ≤ later.businessDate :=
        (hkept.sorted wallet.walletMsisdn).imp fun hle => Prod.Lex.monotone_fst _ _ hle
      have hupTo := filter_le_eq_append date hdates
      rw [hend, ← hafter]
      show books.recordedBalance wallet.walletMsisdn date = last.balanceAfter
      rw [Books.recordedBalance, Books.historyUpTo, hupTo]
      rw [show (books.history wallet.walletMsisdn).filter (fun entry =>
        entry.businessDate = date) = earlier ++ [last] from hlast, ← List.append_assoc,
        List.getLast?_concat]
    · rw [hend, hstart]
      apply htrail.displacement
      intro x entry y hmove
      simp [Entry.change, hmove.1, hmove.2]

/-- A close of a day that may be closed keeps the balances right. -/
theorem Kept.finishClose (hkept : Kept books) {pending : PendingClose}
    (hmay : MayClose books pending.date pending.currency) :
    Kept (books.finishClose pending) := by
  unfold Books.finishClose
  split
  · exact hkept.of_same rfl rfl rfl
  · refine ⟨hkept.sorted, hkept.linked, hkept.currencies, fun row hrow => ?_⟩
    have hright : RightBalance books row := by
      rcases List.mem_append.mp hrow with hold | hnew
      · exact hkept.right row (List.mem_of_mem_filter hold)
      · obtain ⟨wallet, hwallet, mapping, hmapping, rfl⟩ :=
          (books.mem_walletSnapshots _ _).mp hnew
        apply hkept.walletSnapshot hwallet
        exact hmay wallet hwallet (by simp [hmapping])
    exact ⟨hright.closing, hright.movement⟩

end

/-! ## Runs -/

/-- Every orderly step keeps the balances right. -/
theorem Kept.step {state after : Accounting} {event : Event} (hkept : Kept state.books)
    (horderly : Orderly state event) (hstep : step state event = some after) :
    Kept after.books := by
  cases event with
  | start writer | rollBack writer | abandonClose date currency =>
    cases hstep
    exact hkept
  | commit writer status lines =>
    simp only [Eod.step, Option.ite_none_right_eq_some, Option.some.injEq] at hstep
    obtain ⟨_, rfl⟩ := hstep
    exact hkept.write status horderly
  | mark journalId status =>
    cases hstep
    exact hkept.of_same rfl rfl rfl
  | maintain wallets mappings accounts configurations =>
    cases hstep
    exact hkept.maintain rfl horderly rfl
  | rehearse request =>
    cases hstep
    rcases state.books.rehearse_eq_record request with hsame | ⟨date, currency, report, hrecord⟩
    · rw [show (rehearse state.books request).1 = state.books from hsame]
      exact hkept
    · have hrecorded : Kept (rehearse state.books request).1 := by
        rw [hrecord]
        exact hkept.of_same rfl rfl rfl
      exact hrecorded
  | beginClose request =>
    obtain ⟨_, _, _, rfl⟩ := step_beginClose hstep
    exact hkept
  | finishClose date currency =>
    obtain ⟨_, _, rfl, rfl, rfl⟩ := step_finishClose hstep
    exact hkept.finishClose horderly

/-- In every orderly run that starts without entries and closed days, the balances of all
closed days are right. -/
theorem wallet_balances_right {start state : Accounting}
    (hentries : start.books.entries.rows = []) (hrows : start.books.walletBalances.rows = [])
    (hrun : ReachesUnder step Orderly start state) :
    ∀ row ∈ state.books.walletBalances.rows, RightBalance state.books row := by
  have hstart : Kept start.books := by
    have hhistory : ∀ wallet, start.books.history wallet = [] := by
      intro wallet
      rw [Books.history, hentries, List.filter_nil]
    refine ⟨fun wallet => ?_, fun wallet date => ?_, fun wallet _ entry hentry => ?_,
      fun row hrow => ?_⟩
    · rw [hhistory]
      exact .nil
    · rw [Books.historyOf, hhistory]
      exact ⟨0, 0, .nil 0⟩
    · rw [hhistory] at hentry
      cases hentry
    · rw [hrows] at hrow
      cases hrow
  have hkept : Kept state.books := by
    apply ReachesUnder.preserves (fun state => Kept state.books) _ hrun hstart
    intro before event after hbefore horderly hstep
    exact hbefore.step horderly hstep
  exact hkept.right

/-- A safeguarding wallet and two customers, of whom the second holds 200. -/
def twoCustomers : Accounting where
  books :=
    { wallets := ⟨[{ walletMsisdn := 110, walletCode := 110, amount := 200, currency := "GBP" },
        { walletMsisdn := 7, walletCode := 1, amount := 0, currency := "GBP" },
        { walletMsisdn := 8, walletCode := 1, amount := 200, currency := "GBP" }], by decide⟩
      mappings := ⟨[
        { walletCode := 1, glAccountCode := "2000-CUSTOMER-WALLET", isSafeguarded := true },
        { walletCode := 110, glAccountCode := "1000-SAFEGUARDING" }], by decide⟩
      accounts := ⟨[
        { accountCode := "2000-CUSTOMER-WALLET", accountType := .liability,
          normalBalance := .credit },
        { accountCode := "1000-SAFEGUARDING", accountType := .asset, normalBalance := .debit }],
        by decide⟩
      configurations := [{ currency := "GBP", masterWallet := 110, effectiveFrom := 1 }]
      journals := .empty
      entries := .empty
      periods := .empty
      batches := .empty
      runs := .empty
      walletBalances := .empty
      glBalances := .empty }

/-- On day 5 one transfer from wallet 8 to wallet 7 starts at 10, over 30, and one at 11, over
100; they commit in the order given, and the day is closed. -/
def closeAfterTransfers (inOrder : Bool) : List Event :=
  let early : Event := .commit (.posting 10 5 "GBP") .completed
    [.posted 8 .debit 30, .posted 7 .credit 30]
  let late : Event := .commit (.posting 11 5 "GBP") .completed
    [.posted 8 .debit 100, .posted 7 .credit 100]
  [.start (.posting 10 5 "GBP"), .start (.posting 11 5 "GBP")] ++
    (if inOrder then [early, late] else [late, early]) ++
    [.beginClose { businessDate := some 5, currency := some "GBP" }, .finishClose 5 "GBP"]

/-- Committed in the order in which they started, the transfers leave a right balance. -/
theorem transfers_in_order :
    ∃ state, ReachesUnder step Orderly twoCustomers state ∧
      (∃ row ∈ state.books.walletBalances.rows, row.walletMsisdn = 7 ∧
        row.closingBalance = 130) ∧
      ∀ row ∈ state.books.walletBalances.rows, RightBalance state.books row := by
  have hany : (runInputs (guardedStep step Orderly) twoCustomers (closeAfterTransfers true)).any
      (fun state => ∃ row ∈ state.books.walletBalances.rows, row.walletMsisdn = 7 ∧
        row.closingBalance = 130) := by
    decide +kernel
  obtain ⟨state, hrun, hfacts⟩ := (Option.any_eq_true _ _).mp hany
  have hreach := (Reaches.of_runInputs hrun).under
  exact ⟨state, hreach, of_decide_eq_true hfacts, wallet_balances_right rfl rfl hreach⟩

/-- Committed the other way round, they leave wallet 7 with 130, and the close of the day
says 100. -/
theorem transfers_out_of_order :
    ∃ state, Reaches step twoCustomers state ∧ state.books.balance 7 = some 130 ∧
      state.books.periodStatus 5 "GBP" = some .closed ∧
      ∃ row ∈ state.books.walletBalances.rows, row.walletMsisdn = 7 ∧
        row.closingBalance = 100 ∧ ¬ RightBalance state.books row := by
  have hany : (runInputs step twoCustomers (closeAfterTransfers false)).any (fun state =>
      state.books.balance 7 = some 130 ∧ state.books.periodStatus 5 "GBP" = some .closed ∧
        ∃ row ∈ state.books.walletBalances.rows, row.walletMsisdn = 7 ∧
          row.closingBalance = 100 ∧
          state.books.recordedBalance row.walletMsisdn row.businessDate ≠
            some row.closingBalance) := by
    decide +kernel
  obtain ⟨state, hrun, hfacts⟩ := (Option.any_eq_true _ _).mp hany
  obtain ⟨hbalance, hclosed, row, hmem, hwallet, hclosing, hwrong⟩ := of_decide_eq_true hfacts
  exact ⟨state, Reaches.of_runInputs hrun, hbalance, hclosed, row, hmem, hwallet, hclosing,
    fun hright => hwrong hright.closing⟩

end Finify.Eod
