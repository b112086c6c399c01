/-
# Priced messages and the posting procedure

What pricing puts into a message always balances.  The procedure refuses it for
its amounts in two cases: a charge that a pricing flow takes from the destination
exceeds the amount, which the configuration tables check and the flow does not;
or a commission detail of the tables asks for a negative amount, which charges
refuse and commissions do not.
-/

import Finify.Posting.Reservation
import Finify.Pricing.Results

namespace Finify.Pricing

open Finify.Foundations Finify.Posting

/-! ## What the procedure accepts -/

def Message.amounts (message : Message) : List ℤ :=
  [message.sourceDebitAmount, message.destinationCreditAmount, message.chargeWalletCredit,
    message.commissionWalletDebit, message.sourceCommissionCredit,
    message.destinationCommissionCredit]

/-- Debits and credits of the direct posting of a message are equal. -/
def Message.Balanced (message : Message) : Prop :=
  message.sourceDebitAmount + message.commissionWalletDebit =
    message.destinationCreditAmount + message.chargeWalletCredit +
      message.sourceCommissionCredit + message.destinationCommissionCredit

/-- The amounts are fine, and no direct posting of the message is refused for
them. -/
structure Message.Accepted (message : Message) : Prop where
  nonneg : ∀ amount ∈ message.amounts, 0 ≤ amount
  balanced : message.Balanced
  posted : ∀ (db after : Db) (call : Call) (result : Result), call.payload = message.payload →
    call.operation? = some .direct → db.directFinifyTransaction call = some (result, after) →
      result.statusCode ≠ .invalidAmount ∧ result.statusCode ≠ .unbalancedPosting

/-- The codes that blame the amounts. -/
def PostingCode.blamesAmounts : PostingCode → Bool
  | .invalidAmount => true
  | .unbalancedPosting => true
  | _ => false

theorem existingCode_blamesAmounts (operation : Operation) (status : JournalStatus) :
    PostingCode.blamesAmounts (existingCode operation status) = false := by
  unfold existingCode
  split
  · rfl
  · cases status <;> rfl

theorem Db.address_blamesAmounts {db : Db} {call : Call} {exit : Exit}
    (hexit : db.address call = .error exit) :
    PostingCode.blamesAmounts exit.result.statusCode = false := by
  unfold Db.address at hexit
  split at hexit
  · rw [refuse_code hexit]
    rfl
  · split at hexit
    · rw [refuse_code hexit]
      rfl
    · split at hexit
      · rw [refuse_code hexit]
        rfl
      · cases hexit

/-- Amounts that a direct posting does not refuse. -/
structure PostingAmounts.Sound (amounts : PostingAmounts) : Prop where
  nonneg : ¬ amounts.Negative
  balanced : amounts.Balanced
  positive : 0 < amounts.sourceDebit

theorem PostingAmounts.Sound.checkLines_blamesAmounts {amounts : PostingAmounts}
    (hsound : PostingAmounts.Sound amounts) {db : Db} {transactionId : ℤ} {terms : Terms}
    {currency : String} {exit : Exit}
    (hexit : db.checkLines transactionId .direct (amounts.directLines terms currency) =
      .error exit) : PostingCode.blamesAmounts exit.result.statusCode = false := by
  have hnonneg := hsound.nonneg
  have hcommission : 0 ≤ amounts.commissionDebit := by
    unfold PostingAmounts.Negative at hnonneg
    push Not at hnonneg
    exact hnonneg.2.2.2.1
  have hdebit : sideTotal .debit (amounts.directLines terms currency) =
      amounts.sourceDebit + amounts.commissionDebit := by
    rw [PostingAmounts.directLines, sideTotal_append,
      sideTotal_positiveLine _ _ _ hsound.positive.le.not_gt,
      PostingAmounts.debit_distribution hnonneg]
    simp
  have hcredit : sideTotal .credit (amounts.directLines terms currency) =
      amounts.sourceDebit + amounts.commissionDebit := by
    rw [PostingAmounts.directLines, sideTotal_append,
      sideTotal_positiveLine _ _ _ hsound.positive.le.not_gt,
      PostingAmounts.credit_distribution hnonneg, hsound.balanced]
    simp
  have hpositive : ¬ amounts.sourceDebit + amounts.commissionDebit ≤ 0 :=
    not_le.mpr (add_pos_of_pos_of_nonneg hsound.positive hcommission)
  rw [Db.checkLines] at hexit
  simp only [hdebit, hcredit, ne_eq, not_true_eq_false, or_false, hpositive, if_false] at hexit
  split at hexit
  · rw [refuse_code hexit]
    rfl
  · split at hexit
    · rw [refuseOperation_code hexit]
      rfl
    · cases hexit

theorem PostingAmounts.Sound.planDirect (db : Db) {request : Request} {terms : Terms}
    {payload : Payload} (hsound : PostingAmounts.Sound
      (postingAmounts payload request terms.amount)) :
    (∃ message, db.planOperation request .direct terms payload =
        refuse (some request.transactionId) .requestMismatch message) ∨
      ∃ plan, db.planOperation request .direct terms payload = .ok plan ∧
        plan.operation = .direct ∧
        plan.lines = (postingAmounts payload request terms.amount).directLines terms
          (postingCurrency request payload) := by
  simp only [Db.planOperation, planFirstLeg]
  cases payload.mismatch? terms with
  | some message => exact .inl ⟨message, rfl⟩
  | none =>
    right
    simp only [planPosting, if_neg hsound.nonneg]
    exact ⟨_, rfl, rfl, rfl⟩

/-- A direct posting with sound amounts is not refused for them. -/
theorem Db.direct_blamesAmounts {db after : Db} {call : Call} {result : Result}
    (hsound : ∀ request amount, PostingAmounts.Sound (postingAmounts call.payload request amount))
    (hoperation : call.operation? = some .direct)
    (hcall : db.directFinifyTransaction call = some (result, after)) :
    PostingCode.blamesAmounts result.statusCode = false := by
  have hexit : ∀ exit, db.plan call = .error exit →
      PostingCode.blamesAmounts exit.result.statusCode = false := by
    intro exit hexit
    unfold Db.plan at hexit
    rcases bind_eq_error hexit with haddress | ⟨⟨request, operation⟩, haddress, hexit⟩
    · exact Db.address_blamesAmounts haddress
    obtain rfl := Option.some.inj ((Db.address_eq_ok haddress).2.2.symm.trans hoperation)
    simp only at hexit
    split at hexit
    · cases hexit
      exact existingCode_blamesAmounts _ _
    rcases bind_eq_error hexit with hterms | ⟨terms, _, hexit⟩
    · unfold requireTerms at hterms
      split at hterms
      · cases hterms
      · cases hterms
        rfl
    rcases (hsound request terms.amount).planDirect db with
      ⟨message, hmismatch⟩ | ⟨planned, hplanned, hdirect, hlines⟩
    · rw [hmismatch] at hexit
      rw [refuse_code hexit]
      rfl
    rcases bind_eq_error hexit with hplan | ⟨plan, hplan, hexit⟩
    · rw [hplanned] at hplan
      cases hplan
    obtain rfl := Except.ok.inj (hplanned.symm.trans hplan)
    rcases bind_eq_error hexit with hcheck | ⟨_, _, hexit⟩
    · rw [hdirect, hlines] at hcheck
      exact (hsound request terms.amount).checkLines_blamesAmounts hcheck
    · cases hexit
  unfold Db.directFinifyTransaction at hcall
  split at hcall
  · rename_i result' hplan
    cases hcall
    exact hexit _ hplan
  · rename_i result' hplan
    cases hcall
    exact hexit _ hplan
  · rename_i plan hplan
    obtain ⟨⟨journalId, committed⟩, _, hresult⟩ := Option.map_eq_some_iff.mp hcall
    cases hresult
    cases hplanned : plan.operation <;>
      simp [Db.postedResult, hplanned, Operation.successCode, PostingCode.blamesAmounts]

/-- The amounts that the procedure reads off a message. -/
theorem postingAmounts_payload (message : Message) (request : Request) (amount : Amount) :
    postingAmounts message.payload request amount =
      { charge := message.chargeAmount
        commission := message.commissionAmount
        sourceDebit := message.sourceDebitAmount
        destinationCredit := message.destinationCreditAmount
        chargeCredit := message.chargeWalletCredit
        commissionDebit := message.commissionWalletDebit
        sourceCommissionCredit := message.sourceCommissionCredit
        destinationCommissionCredit := message.destinationCommissionCredit
        chargeWallet := message.chargeWallet.getD defaultChargeWallet
        commissionWallet := message.commissionWallet.getD defaultCommissionWallet } := by
  simp [postingAmounts, Message.payload]

/-- A message is accepted when its amounts are not negative and balance. -/
theorem Message.accepted_of {message : Message} (hnonneg : ∀ amount ∈ message.amounts, 0 ≤ amount)
    (hbalanced : message.Balanced) (hpositive : 0 < message.sourceDebitAmount) :
    message.Accepted := by
  refine ⟨hnonneg, hbalanced, fun db after call result hpayload hoperation hcall => ?_⟩
  have hsound : ∀ request amount,
      PostingAmounts.Sound (postingAmounts call.payload request amount) := by
    intro request amount
    rw [hpayload, postingAmounts_payload]
    simp only [Message.amounts, List.mem_cons, List.not_mem_nil, or_false, forall_eq_or_imp,
      forall_eq] at hnonneg
    refine ⟨?_, ?_, ?_⟩
    · unfold PostingAmounts.Negative
      push Not
      simp only [← WithTop.coe_zero, WithTop.coe_le_coe]
      exact hnonneg
    · show (message.sourceDebitAmount : Amount) + (message.commissionWalletDebit : Amount) =
        (message.destinationCreditAmount : Amount) + (message.chargeWalletCredit : Amount) +
          (message.sourceCommissionCredit : Amount) + (message.destinationCommissionCredit : Amount)
      unfold Message.Balanced at hbalanced
      exact_mod_cast hbalanced
    · show (0 : Amount) < (message.sourceDebitAmount : Amount)
      exact_mod_cast hpositive
  have hcode := Db.direct_blamesAmounts hsound hoperation hcall
  constructor
  · intro hinvalid
    rw [hinvalid] at hcode
    cases hcode
  · intro hunbalanced
    rw [hunbalanced] at hcode
    cases hcode

/-! ## The message of a payment -/

def Priced {α : Type} (asked : Bool) (price : Except String α) : Option α → Prop
  | some result => asked = true ∧ price = .ok result
  | none => asked = false

theorem priced_of_eq_ok {α : Type} {asked : Bool} {price : Except String α} {result : Option α}
    (hprice : priceIf asked price = .ok result) :
    Priced asked price result := by
  cases asked with
  | false =>
    cases hprice
    rfl
  | true =>
    cases price with
    | error text => cases hprice
    | ok value =>
      cases hprice
      exact ⟨rfl, rfl⟩

/-- A published message carries the charge and the commission that were asked for. -/
theorem Tariff.message_eq_ok {tariff : Tariff} {payment : Payment} {message : Message}
    (hmessage : tariff.message payment = .ok message) :
    ∃ charge commission,
      Priced payment.chargeable (tariff.charge (payment.priceRequest payment.chargeLookup))
          charge ∧
        Priced payment.commissionable
          (tariff.commission (payment.priceRequest payment.commissionLookup)) commission ∧
        message = payment.message charge commission ∧ fitsMoney message.chargeAmount := by
  unfold Tariff.message at hmessage
  obtain ⟨charge, hcharge, hmessage⟩ := bind_eq_ok hmessage
  obtain ⟨commission, hcommission, hmessage⟩ := bind_eq_ok hmessage
  simp only at hmessage
  split at hmessage
  case isTrue hfits =>
    cases hmessage
    exact ⟨charge, commission, priced_of_eq_ok hcharge, priced_of_eq_ok hcommission, rfl, hfits.1⟩
  case isFalse => cases hmessage

/-- The text of an amount is not zero. -/
theorem PaymentAmount.fixed_pos (amount : PaymentAmount) : 0 < amount.fixed := by
  unfold PaymentAmount.fixed
  split
  · exact amount.cents_pos
  · have hnumber := amount.number_ge
    have hfloor : 1 ≤ ⌊amount.number * 100 + 1 / 2⌋ := Int.le_floor.mpr (by push_cast; linarith)
    omega

/-- The sides of the payment itself in its message. -/
structure Message.Sides (message : Message) (covered : Prop) : Prop where
  debit_pos : 0 < message.sourceDebitAmount
  charge_nonneg : 0 ≤ message.chargeWalletCredit
  balanced : message.sourceDebitAmount = message.destinationCreditAmount + message.chargeWalletCredit
  credit_nonneg_iff : 0 ≤ message.destinationCreditAmount ↔ covered

/-- With or without a charge, source, destination and charge wallet balance. -/
theorem Payment.message_sides {tariff : Tariff} {payment : Payment}
    {charge : Option ChargeResult} {commission : Option CommissionResult}
    (hcharge : Priced payment.chargeable
      (tariff.charge (payment.priceRequest payment.chargeLookup)) charge)
    (hfits : fitsMoney (payment.message charge commission).chargeAmount)
    (hamount : payment.amount.cents < 10 ^ 28) :
    (payment.message charge commission).Sides (payment.chargeable = true →
      tariff.ChargeCovered (payment.priceRequest payment.chargeLookup)) := by
  cases charge with
  | none =>
    have hasked : payment.chargeable = false := hcharge
    have hfixed := payment.amount.fixed_pos
    refine ⟨hfixed, le_rfl, (add_zero _).symm, iff_of_true hfixed.le fun htrue => ?_⟩
    rw [hasked] at htrue
    cases htrue
  | some result =>
    obtain ⟨hasked, hresult⟩ : payment.chargeable = true ∧
      tariff.charge (payment.priceRequest payment.chargeLookup) = .ok result := hcharge
    have hpositive : 0 < payment.amount.cents := payment.amount.cents_pos
    have hexact : Exact payment.amount.cents result.chargeAmount :=
      Exact.of_lt hpositive hamount hfits
    have hspread : result.Spread payment.amount.cents := Tariff.charge_spread hresult hexact
    have hnonneg := hspread.nonneg
    have hdebit := hspread.debit
    have hcredit := hspread.credit
    refine ⟨?_, hnonneg, ?_, ?_⟩
    · show 0 < result.sourceDebitAmount
      rw [hdebit]
      split <;> omega
    · show result.sourceDebitAmount = result.destinationCreditAmount + result.chargeAmount
      rw [hdebit, hcredit]
      cases result.payer <;> simp
    · exact (Tariff.credit_nonneg_iff hresult hexact hamount).trans
        ⟨fun hcovered _ => hcovered, fun hcovered => hcovered hasked⟩

/-- The commission in a message. -/
structure Message.Shares (message : Message) (covered : Prop) : Prop where
  sum : message.commissionWalletDebit =
    message.sourceCommissionCredit + message.destinationCommissionCredit
  source_nonneg : 0 ≤ message.commissionWalletDebit → 0 ≤ message.sourceCommissionCredit
  destination_nonneg : 0 ≤ message.commissionWalletDebit → 0 ≤ message.destinationCommissionCredit
  debit_nonneg_iff : 0 ≤ message.commissionWalletDebit ↔ covered

theorem Payment.message_shares {tariff : Tariff} {payment : Payment}
    {charge : Option ChargeResult} {commission : Option CommissionResult}
    (hcommission : Priced payment.commissionable
      (tariff.commission (payment.priceRequest payment.commissionLookup)) commission) :
    (payment.message charge commission).Shares (payment.commissionable = true →
      tariff.CommissionCovered (payment.priceRequest payment.commissionLookup)) := by
  cases commission with
  | none =>
    have hasked : payment.commissionable = false := hcommission
    refine ⟨rfl, fun _ => le_rfl, fun _ => le_rfl, iff_of_true le_rfl fun htrue => ?_⟩
    rw [hasked] at htrue
    cases htrue
  | some result =>
    obtain ⟨hasked, hresult⟩ : payment.commissionable = true ∧
      tariff.commission (payment.priceRequest payment.commissionLookup) = .ok result :=
      hcommission
    obtain ⟨hwhole, hcovered⟩ := Tariff.commission_eq_ok hresult
    refine ⟨hwhole.sum.symm, hwhole.source_nonneg, hwhole.destination_nonneg, ?_⟩
    exact hcovered.trans ⟨fun hnonneg _ => hnonneg, fun hnonneg => hnonneg hasked⟩

/-- A message is accepted by the procedure exactly when the amount covers what a flow
charges the destination, and no commission row asks for a negative amount. -/
theorem message_accepted_iff {tariff : Tariff} {payment : Payment} {message : Message}
    (hmessage : tariff.message payment = .ok message) (hamount : payment.amount.cents < 10 ^ 28) :
    message.Accepted ↔
      (payment.chargeable = true →
        tariff.ChargeCovered (payment.priceRequest payment.chargeLookup)) ∧
      (payment.commissionable = true →
        tariff.CommissionCovered (payment.priceRequest payment.commissionLookup)) := by
  obtain ⟨charge, commission, hcharge, hcommission, rfl, hfits⟩ := Tariff.message_eq_ok hmessage
  have hsides := Payment.message_sides hcharge hfits hamount
  have hshares : (payment.message charge commission).Shares _ :=
    Payment.message_shares hcommission
  constructor
  · intro haccepted
    have hnonneg := haccepted.nonneg
    simp only [Message.amounts, List.mem_cons, List.not_mem_nil, or_false, forall_eq_or_imp,
      forall_eq] at hnonneg
    exact ⟨hsides.credit_nonneg_iff.mp hnonneg.2.1, hshares.debit_nonneg_iff.mp hnonneg.2.2.2.1⟩
  · rintro ⟨hchargeCovered, hcommissionCovered⟩
    have hcredit := hsides.credit_nonneg_iff.mpr hchargeCovered
    have hdebit := hshares.debit_nonneg_iff.mpr hcommissionCovered
    apply Message.accepted_of
    · simp only [Message.amounts, List.mem_cons, List.not_mem_nil, or_false, forall_eq_or_imp,
        forall_eq]
      exact ⟨hsides.debit_pos.le, hcredit, hsides.charge_nonneg, hdebit,
        hshares.source_nonneg hdebit, hshares.destination_nonneg hdebit⟩
    · unfold Message.Balanced
      rw [hsides.balanced, hshares.sum]
      ring
    · exact hsides.debit_pos

/-! ## A flat charge -/

/-- A flow that charges the destination five. -/
def flatFlow : ActiveFlow where
  id := 1
  priority := 100
  definition := flatDefinition "PAY" [] .destination 5

def flatTariff : Tariff where
  flows := [flatFlow]
  chargeConfiguration _ _ _ := .error "Charge configuration not found"
  commissionConfiguration _ _ _ := .error "Commission configuration not found"
  chargeWallet _ _ := .ok ⟨900, 113⟩
  commissionWallet _ _ := .ok ⟨901, 114⟩

def flatPayment (units : ℕ) (hunits : 0 < units) : Payment where
  transactionId := 1
  sourceAccount := 10
  destinationAccount := 20
  amount := {
    number := units
    cents := units * 100
    cents_pos := by positivity
    number_ge := by
      have hone : (1 : ℚ) ≤ units := by exact_mod_cast hunits
      linarith }
  keyword := "PAY"
  currency := "BDT"
  sourceWalletType := 1
  destinationWalletType := 1
  chargeable := true
  chargeLookup := .source
  commissionable := false
  commissionLookup := .source

/-- A payment of one that is charged five credits its destination minus four. -/
theorem flat_charge_exceeds_amount :
    ∃ message, flatTariff.message (flatPayment 1 Nat.one_pos) = .ok message ∧
      message.destinationCreditAmount = -400 ∧ ¬ message.Accepted := by
  have hcredit : (flatTariff.message (flatPayment 1 Nat.one_pos)).map
      Message.destinationCreditAmount = .ok (-400) := by decide +kernel
  cases hmessage : flatTariff.message (flatPayment 1 Nat.one_pos) with
  | error text => simp [hmessage, Except.map] at hcredit
  | ok message =>
    rw [hmessage] at hcredit
    have hnegative : message.destinationCreditAmount = -400 := Except.ok.inj hcredit
    refine ⟨message, rfl, hnegative, fun haccepted => ?_⟩
    have hnonneg := haccepted.nonneg message.destinationCreditAmount (by simp [Message.amounts])
    omega

/-- A payment of ten covers the charge. -/
theorem message_accepted_iff_ten :
    ∃ message, flatTariff.message (flatPayment 10 (by decide)) = .ok message ∧
      message.Accepted := by
  have hok : (flatTariff.message (flatPayment 10 (by decide))).isOk = true := by decide +kernel
  cases hmessage : flatTariff.message (flatPayment 10 (by decide)) with
  | error text =>
    rw [hmessage] at hok
    cases hok
  | ok message =>
    refine ⟨message, rfl, (message_accepted_iff hmessage (by decide)).mpr ⟨?_, nofun⟩⟩
    intro _ flow hflow _ _
    obtain rfl := List.mem_singleton.mp (findActive_eq_some hflow).1
    decide +kernel

end Finify.Pricing
