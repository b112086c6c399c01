/-
# The AML tables

Reservations of transaction limits, the rolling totals per wallet and keyword,
and the configured limits.  Names follow the columns.  Left out are the message
coordinates and error texts on reservations, which no decision reads.

Amounts are kept in hundredths.  Limits are numbers: `NaN`, which a `numeric`
column could hold, is not a limit that the configuration service can write.  A
call that names a transaction, a wallet type or a keyword without a row in its
own table violates a foreign key and raises; it is not a call here.
-/

import Finify.Foundations.Calendar
import Finify.Foundations.Table
import Finify.Posting.Numeric
import Mathlib.Algebra.Group.Prod

namespace Finify.Aml

open Finify.Foundations Finify.Posting

/-- `reservation.status`. -/
inductive ReservationStatus
  | pending
  | completed
  | released
  | reversed
  deriving DecidableEq, Repr

/-- `sw_tbl_aml_transaction_reservation`, with its check on the amount. -/
structure Reservation where
  transactionId : ℤ
  walletMsisdn : ℤ
  walletCode : ℤ
  keyword : String
  amount : ℤ
  status : ReservationStatus := .pending
  reservedAt : Stamp
  finalizedAt : Option Stamp := none
  amount_pos : 0 < amount

/-- `SW_TBL_AML_SUMMARY`. -/
structure Summary where
  walletMsisdn : ℤ
  keyword : String
  monthlyAmount : Option ℤ := some 0
  monthlyTransaction : Option ℤ := some 0
  dailyAmount : Option ℤ := some 0
  dailyTransaction : Option ℤ := some 0
  lastUpdateDate : Option Stamp

/-- `SW_TBL_AML`, with its checks. -/
structure Limits where
  maxTxnAmount : ℚ
  dailyMaxAmount : ℚ
  dailyTransactionCount : ℚ
  monthlyMaxAmount : ℚ
  monthlyTransactionCount : ℚ
  positive : 0 < maxTxnAmount ∧ 0 < dailyTransactionCount
  amounts_ordered : maxTxnAmount ≤ dailyMaxAmount ∧ dailyMaxAmount ≤ monthlyMaxAmount
  counts_ordered : dailyTransactionCount ≤ monthlyTransactionCount

/-- What usage is kept for: a wallet and a keyword. -/
abbrev Account := ℤ × String

def Reservation.account (reservation : Reservation) : Account :=
  (reservation.walletMsisdn, reservation.keyword)

def Summary.account (summary : Summary) : Account :=
  (summary.walletMsisdn, summary.keyword)

/-- The database as the AML procedures see it: `walletCode` is read off the view
of wallets, `limits` off the active configurations. -/
structure Db where
  reservations : Table Reservation.transactionId
  summaries : Table Summary.account
  walletCode : ℤ → Option ℤ
  limits : ℤ → String → Option Limits

/-! ## Usage -/

/-- An amount in hundredths and a number of transactions. -/
abbrev Counter := ℤ × ℤ

abbrev Usage := Period → Counter

def Reservation.counter (reservation : Reservation) : Counter := (reservation.amount, 1)

/-- The columns of a summary, with null read as zero. -/
def Summary.counter (summary : Summary) : Usage
  | .daily => (summary.dailyAmount.getD 0, summary.dailyTransaction.getD 0)
  | .monthly => (summary.monthlyAmount.getD 0, summary.monthlyTransaction.getD 0)

/-- The summary was last updated in the period of the timestamp. -/
def Summary.current (summary : Summary) (period : Period) (now : Stamp) : Prop :=
  ∃ updated ∈ summary.lastUpdateDate, period.Same updated now

instance (summary : Summary) (period : Period) (now : Stamp) :
    Decidable (summary.current period now) :=
  decidable_of_iff (summary.lastUpdateDate.any fun updated => period.Same updated now) (by
    cases h : summary.lastUpdateDate <;> simp [Summary.current, h])

/-- The totals of the periods that the timestamp lies in. -/
def Summary.usage (summary : Summary) (now : Stamp) : Usage := fun period =>
  if summary.current period now then summary.counter period else 0

namespace Limits

/-- The largest amount that may be used in a period. -/
def maxAmount (limits : Limits) : Period → ℚ
  | .daily => limits.dailyMaxAmount
  | .monthly => limits.monthlyMaxAmount

def maxCount (limits : Limits) : Period → ℚ
  | .daily => limits.dailyTransactionCount
  | .monthly => limits.monthlyTransactionCount

def Admits (limits : Limits) (period : Period) (counter : Counter) : Prop :=
  (counter.1 : ℚ) / 100 ≤ limits.maxAmount period ∧ (counter.2 : ℚ) ≤ limits.maxCount period

instance (limits : Limits) (period : Period) (counter : Counter) :
    Decidable (limits.Admits period counter) :=
  inferInstanceAs (Decidable (_ ∧ _))

/-- Limits admit whatever is no more than what they admit. -/
theorem Admits.mono {limits : Limits} {period : Period} {smaller larger : Counter}
    (hadmits : limits.Admits period larger) (hle : smaller ≤ larger) :
    limits.Admits period smaller := by
  obtain ⟨hamount, hcount⟩ := Prod.le_def.mp hle
  refine ⟨le_trans ?_ hadmits.1, le_trans ?_ hadmits.2⟩
  · exact div_le_div_of_nonneg_right (by exact_mod_cast hamount) (by norm_num)
  · exact_mod_cast hcount

end Limits

end Finify.Aml
