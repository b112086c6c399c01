/-
# Charge and commission services

`calculate` of `ChargeService` and `CommissionService`: the active pricing flow
where there is one, and else the configuration tables.  How a configuration is
looked up and cached, and what a system wallet resolves to, are arguments: the
amounts depend on what the look-up returns only.  Errors carry the texts of the
source; look-ups that fail bring their own.
-/

import Finify.Posting.Ledger
import Finify.Pricing.Flow

namespace Finify.Pricing

open Finify.Posting

/-! ## The legacy configuration -/

/-- `SW_TBL_CHARGE_DETAILS`, with its type as `detailType` reads it. -/
structure ChargeDetail where
  rowId : ℤ
  type : CalculationType
  value : ℚ
  startRange : Option ℚ := none
  endRange : Option ℚ := none
  minCharge : Option ℚ := none
  maxCharge : Option ℚ := none

/-- A resolved charge configuration. -/
structure ChargeConfiguration where
  payer : Party
  chargeId : ℤ
  headerType : RuleMode
  details : List ChargeDetail

namespace ChargeConfiguration

/-- The row that the amount falls into, when both its ends are given. -/
def rowMatches (amount : ℚ) (row : ChargeDetail) : Bool :=
  match row.startRange, row.endRange with
  | some start, some finish => decide (start ≤ amount) && decide (amount ≤ finish)
  | _, _ => false

/-- A row whose range ends before it starts. -/
def rowInvalid (row : ChargeDetail) : Bool :=
  match row.startRange, row.endRange with
  | some start, some finish => decide (finish < start)
  | _, _ => false

/-- `resolveDetail`. -/
def resolveDetail (configuration : ChargeConfiguration) (amount : ℚ) :
    Except String ChargeDetail :=
  if configuration.details = [] then
    .error ("Charge details not found for charge " ++ toString configuration.chargeId)
  else
    match configuration.headerType with
    | .fixed =>
      match configuration.details with
      | [row] => .ok row
      | _ => .error "Fixed charge must have exactly one detail row"
    | .flexible =>
      match configuration.details.find? rowInvalid with
      | some row => .error ("Invalid range on charge detail " ++ toString row.rowId)
      | none =>
        match configuration.details.filter (rowMatches amount) with
        | [] => .error "No charge range matches the transaction amount"
        | [row] => .ok row
        | _ => .error "Overlapping charge ranges match the transaction amount"

end ChargeConfiguration

/-- `calculateDetail` of a charge, in hundredths. -/
def ChargeDetail.calculate (detail : ChargeDetail) (amount : ℚ) : Except String ℤ :=
  if detail.value < 0 then .error "Charge value cannot be negative"
  else
    match detail.type with
    | .fixed => .ok (toCents detail.value)
    | .percentage =>
      match detail.minCharge, detail.maxCharge with
      | some minimum, some maximum =>
        if minimum < 0 ∨ maximum < 0 ∨ maximum < minimum then
          .error "Invalid percentage charge bounds"
        else
          .ok (toCents (max minimum
            (min maximum (dividedBy (times amount detail.value) 100))))
      | _, _ => .error "Percentage charge requires Min_Charge and Max_Charge"

/-- `SW_TBL_COMMISSION_DETAIL`, with its numbers as `decimal` reads them off their
text; `none` is a text that it refuses. -/
structure CommissionDetail where
  rowId : ℤ
  type : CalculationType
  value : Option ℚ
  startRange : Option ℚ := none
  endRange : Option ℚ := none
  minCommission : Option ℚ := none
  maxCommission : Option ℚ := none

/-- A resolved commission configuration; the receiver is checked when it is used. -/
structure CommissionConfiguration where
  receiver : Option Party
  commissionId : ℤ
  headerType : RuleMode
  details : List CommissionDetail

/-- `decimal` of a column. -/
def decimal (value : Option ℚ) (field : String) : Except String ℚ :=
  match value with
  | some value => .ok value
  | none => .error (field ++ " must be a valid decimal")

/-- The row that the amount falls into; the end is read only where the start does
not decide. -/
def CommissionDetail.matches (row : CommissionDetail) (amount : ℚ) : Except String Bool := do
  let start ← decimal row.startRange "startRange"
  if start ≤ amount then
    let finish ← decimal row.endRange "endRange"
    return decide (amount ≤ finish)
  else
    return false

namespace CommissionConfiguration

/-- `selectDetail`. -/
def selectDetail (configuration : CommissionConfiguration) (amount : ℚ) :
    Except String CommissionDetail :=
  if configuration.details = [] then .error "Commission details not found"
  else
    match configuration.headerType with
    | .fixed =>
      match configuration.details with
      | [row] => .ok row
      | _ => .error "Fixed commission must have exactly one detail"
    | .flexible => do
        let rows ← configuration.details.filterM fun row => row.matches amount
        match rows with
        | [] => .error "No commission range matches the transaction amount"
        | [row] => .ok row
        | _ => .error "Overlapping commission ranges found"

end CommissionConfiguration

/-- `calculateDetail` of a commission, in hundredths. -/
def CommissionDetail.calculate (detail : CommissionDetail) (amount : ℚ) : Except String ℤ := do
  let value ← decimal detail.value "commissionValue"
  match detail.type with
  | .fixed => return toCents value
  | .percentage =>
    let minimum ← decimal detail.minCommission "minCommission"
    let maximum ← decimal detail.maxCommission "maxCommission"
    if maximum < minimum then .error "Invalid commission bounds"
    else return toCents (max minimum (min maximum (dividedBy (times amount value) 100)))

/-! ## The services -/

/-- A system wallet. -/
structure SystemWallet where
  walletMsisdn : ℤ
  walletCode : ℤ

/-- The tables that the services read. -/
structure Tariff where
  flows : List ActiveFlow
  chargeConfiguration : String → ℤ → String → Except String ChargeConfiguration
  commissionConfiguration : String → ℤ → String → Except String CommissionConfiguration
  chargeWallet : ℤ → String → Except String SystemWallet
  commissionWallet : ℤ → String → Except String SystemWallet

/-- What a price is asked for.  `walletId` is the wallet type that the keyword
looks configurations up by. -/
structure PriceRequest where
  keyword : String
  walletId : ℤ
  sourceWalletType : ℤ
  destinationWalletType : ℤ
  currency : String
  cents : ℤ

/-- The result of a charge, with amounts in hundredths. -/
structure ChargeResult where
  payer : Party
  chargeId : ℤ
  chargeDetailId : ℤ
  chargeAmount : ℤ
  sourceDebitAmount : ℤ
  destinationCreditAmount : ℤ
  wallet : SystemWallet

/-- The result of a commission, with amounts in hundredths. -/
structure CommissionResult where
  receiver : Party
  commissionId : ℤ
  commissionDetailId : ℤ
  commissionAmount : ℤ
  sourceCommissionCredit : ℤ
  destinationCommissionCredit : ℤ
  wallet : SystemWallet

namespace Tariff

variable (tariff : Tariff) (request : PriceRequest)

def activeFlow : Option ActiveFlow :=
  findActive tariff.flows request.keyword request.sourceWalletType request.currency
    request.destinationWalletType

/-- A charge by the configuration tables. -/
def legacyCharge : Except String ChargeResult := do
  let amount := ofCents request.cents
  let configuration ←
    tariff.chargeConfiguration request.keyword request.walletId request.currency
  let wallet ← tariff.chargeWallet 113 request.currency
  let detail ← configuration.resolveDetail amount
  let charge ← detail.calculate amount
  if request.cents < charge ∧ configuration.payer = .destination then
    .error "Destination charge cannot exceed the transaction amount"
  else
    .ok
      { payer := configuration.payer
        chargeId := configuration.chargeId
        chargeDetailId := detail.rowId
        chargeAmount := charge
        sourceDebitAmount :=
          match configuration.payer with
          | .source => toCents (plus amount (ofCents charge))
          | .destination => request.cents
        destinationCreditAmount :=
          match configuration.payer with
          | .destination => toCents (minus amount (ofCents charge))
          | .source => request.cents
        wallet := wallet }

/-- `ChargeService.calculate`. -/
def charge : Except String ChargeResult :=
  if request.cents ≤ 0 then .error "Transaction amount must be greater than zero"
  else
    match tariff.activeFlow request with
    | some flow => do
        let result ← flow.definition.simulate (ofCents request.cents)
          (some (request.sourceWalletType, request.destinationWalletType))
        let wallet ← tariff.chargeWallet flow.definition.chargeWalletType request.currency
        return {
          payer := result.chargePayer
          chargeId := flow.id
          chargeDetailId := flow.id
          chargeAmount := result.chargeAmount
          sourceDebitAmount := result.sourceDebitAmount
          destinationCreditAmount := result.destinationCreditAmount
          wallet := wallet }
    | none => tariff.legacyCharge request

def commissionResult (receiver : Party) (commissionId commissionDetailId amount : ℤ)
    (wallet : SystemWallet) : CommissionResult where
  receiver := receiver
  commissionId := commissionId
  commissionDetailId := commissionDetailId
  commissionAmount := amount
  sourceCommissionCredit := if receiver = .source then amount else 0
  destinationCommissionCredit := if receiver = .destination then amount else 0
  wallet := wallet

/-- A commission by the configuration tables. -/
def legacyCommission : Except String CommissionResult := do
  let amount := ofCents request.cents
  let configuration ←
    tariff.commissionConfiguration request.keyword request.walletId request.currency
  let wallet ← tariff.commissionWallet 114 request.currency
  let detail ← configuration.selectDetail amount
  let commission ← detail.calculate amount
  match configuration.receiver with
  | none => .error "Commission receiver must be S or D"
  | some receiver =>
    return commissionResult receiver configuration.commissionId detail.rowId commission wallet

/-- `CommissionService.calculate`. -/
def commission : Except String CommissionResult :=
  if request.cents ≤ 0 then .error "Transaction amount must be greater than zero"
  else
    match tariff.activeFlow request with
    | some flow => do
        let result ← flow.definition.simulate (ofCents request.cents)
          (some (request.sourceWalletType, request.destinationWalletType))
        let wallet ← tariff.commissionWallet flow.definition.commissionWalletType request.currency
        return commissionResult result.commissionReceiver flow.id flow.id result.commissionAmount
          wallet
    | none => tariff.legacyCommission request

end Tariff

/-! ## The message of a payment -/

/-- The amount of a payment, a JavaScript number with at most two decimals: its
exact value, and the hundredths that it prints as. -/
structure PaymentAmount where
  number : ℚ
  cents : ℤ
  cents_pos : 0 < cents
  number_ge : 1 / 200 ≤ number

/-- `toFixed(2)`, in hundredths: the nearest, and the larger of two; from 10^21 on
it prints like the number itself. -/
def PaymentAmount.fixed (amount : PaymentAmount) : ℤ :=
  if (10 : ℚ) ^ 21 ≤ amount.number then amount.cents else ⌊amount.number * 100 + 1 / 2⌋

/-- What the price of a payment depends on.  The look-ups of the keyword say whose
wallet type finds a configuration. -/
structure Payment where
  transactionId : ℤ
  sourceAccount : ℤ
  destinationAccount : ℤ
  amount : PaymentAmount
  keyword : String
  currency : String
  sourceWalletType : ℤ
  destinationWalletType : ℤ
  chargeable : Bool
  chargeLookup : Party
  commissionable : Bool
  commissionLookup : Party

def Payment.walletType (payment : Payment) : Party → ℤ
  | .source => payment.sourceWalletType
  | .destination => payment.destinationWalletType

def Payment.priceRequest (payment : Payment) (lookup : Party) : PriceRequest where
  keyword := payment.keyword
  walletId := payment.walletType lookup
  sourceWalletType := payment.sourceWalletType
  destinationWalletType := payment.destinationWalletType
  currency := payment.currency
  cents := payment.amount.cents

/-- The published message, with amounts in hundredths. -/
structure Message where
  transactionId : ℤ
  source : ℤ
  destination : ℤ
  amount : ℤ
  currency : String
  chargeAmount : ℤ
  chargeWallet : Option ℤ
  chargeWalletCredit : ℤ
  commissionAmount : ℤ
  commissionWallet : Option ℤ
  commissionWalletDebit : ℤ
  sourceCommissionCredit : ℤ
  destinationCommissionCredit : ℤ
  sourceDebitAmount : ℤ
  destinationCreditAmount : ℤ

/-- The hundredths fit a column of type `money`. -/
def fitsMoney (cents : ℤ) : Prop := -2 ^ 63 ≤ cents ∧ cents < 2 ^ 63

instance (cents : ℤ) : Decidable (fitsMoney cents) :=
  inferInstanceAs (Decidable (_ ∧ _))

/-- The message that `transactionprocess` builds from a charge and a commission,
where the keyword asks for them. -/
def Payment.message (payment : Payment) (charge : Option ChargeResult)
    (commission : Option CommissionResult) : Message where
  transactionId := payment.transactionId
  source := payment.sourceAccount
  destination := payment.destinationAccount
  amount := payment.amount.cents
  currency := payment.currency
  chargeAmount := charge.elim 0 ChargeResult.chargeAmount
  chargeWallet := charge.map fun result => result.wallet.walletMsisdn
  chargeWalletCredit := charge.elim 0 ChargeResult.chargeAmount
  commissionAmount := commission.elim 0 CommissionResult.commissionAmount
  commissionWallet := commission.map fun result => result.wallet.walletMsisdn
  commissionWalletDebit := commission.elim 0 CommissionResult.commissionAmount
  sourceCommissionCredit := commission.elim 0 CommissionResult.sourceCommissionCredit
  destinationCommissionCredit :=
    commission.elim 0 CommissionResult.destinationCommissionCredit
  sourceDebitAmount := charge.elim payment.amount.fixed ChargeResult.sourceDebitAmount
  destinationCreditAmount :=
    charge.elim payment.amount.fixed ChargeResult.destinationCreditAmount

def priceIf {α : Type} (asked : Bool) (price : Except String α) : Except String (Option α) :=
  if asked then some <$> price else .ok none

/-- The pricing of `transactionprocess` and the message it publishes, after it has
stored the two amounts in the `money` columns of the request.  The checks before and
the AML reservation after can stop a payment, and change nothing in its message. -/
def Tariff.message (tariff : Tariff) (payment : Payment) : Except String Message := do
  let charge ← priceIf payment.chargeable
    (tariff.charge (payment.priceRequest payment.chargeLookup))
  let commission ← priceIf payment.commissionable
    (tariff.commission (payment.priceRequest payment.commissionLookup))
  let message := payment.message charge commission
  if fitsMoney message.chargeAmount ∧ fitsMoney message.commissionAmount then
    return message
  else
    .error "money out of range"

/-- The message as the posting procedure reads it. -/
def Message.payload (message : Message) : Payload where
  transactionId := some message.transactionId
  source := some message.source
  destination := some message.destination
  amount := some (moneyToNumeric message.amount)
  currency := some message.currency
  chargeAmount := some (moneyToNumeric message.chargeAmount)
  commissionAmount := some (moneyToNumeric message.commissionAmount)
  sourceDebitAmount := some (moneyToNumeric message.sourceDebitAmount)
  destinationCreditAmount := some (moneyToNumeric message.destinationCreditAmount)
  chargeWalletCredit := some (moneyToNumeric message.chargeWalletCredit)
  commissionWalletDebit := some (moneyToNumeric message.commissionWalletDebit)
  sourceCommissionCredit := some (moneyToNumeric message.sourceCommissionCredit)
  destinationCommissionCredit := some (moneyToNumeric message.destinationCommissionCredit)
  chargeWallet := message.chargeWallet
  commissionWallet := message.commissionWallet

end Finify.Pricing
