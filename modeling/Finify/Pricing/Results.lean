/-
# What the services return

A charge is never negative, and it is spread over the two sides of the payment by
its payer; only a flow can take more from the destination than the amount.  A
commission goes to its receiver as a whole, and only the configuration tables can
make it negative.
-/

import Finify.Posting.Decision
import Finify.Pricing.Services

namespace Finify.Pricing

open Finify.Posting

/-! ## Charges -/

/-- A charge row is checked for signs, so it never asks for a negative amount. -/
theorem ChargeDetail.calculate_nonneg {detail : ChargeDetail} {amount : ℚ} {charge : ℤ}
    (hcharge : detail.calculate amount = .ok charge) : 0 ≤ charge := by
  unfold ChargeDetail.calculate at hcharge
  split at hcharge
  case isTrue => cases hcharge
  case isFalse hvalue =>
    split at hcharge
    · cases hcharge
      exact toCents_nonneg (not_lt.mp hvalue)
    · split at hcharge
      case h_1 minimum maximum _ _ =>
        split at hcharge
        case isTrue => cases hcharge
        case isFalse hbounds =>
          push Not at hbounds
          cases hcharge
          exact toCents_nonneg (hbounds.1.trans (le_max_left _ _))
      case h_2 => cases hcharge

/-- The charge stands on the side of its payer. -/
structure ChargeResult.Spread (result : ChargeResult) (cents : ℤ) : Prop where
  nonneg : 0 ≤ result.chargeAmount
  debit : result.sourceDebitAmount =
    cents + if result.payer = .source then result.chargeAmount else 0
  credit : result.destinationCreditAmount =
    cents - if result.payer = .destination then result.chargeAmount else 0

/-- The sums that a charge takes part in keep within 30 digits. -/
structure Exact (cents charge : ℤ) : Prop where
  add : |cents + charge| < 10 ^ 30
  sub : |cents - charge| < 10 ^ 30

theorem Exact.of_lt {cents charge : ℤ} (hpositive : 0 < cents) (hcents : cents < 10 ^ 28)
    (hcharge : fitsMoney charge) : Exact cents charge := by
  unfold fitsMoney at hcharge
  constructor <;> rw [abs_lt] <;> constructor <;> omega

namespace Tariff

variable {tariff : Tariff} {request : PriceRequest}

/-- Whatever a flow takes from the destination, the amount covers it. -/
def ChargeCovered (tariff : Tariff) (request : PriceRequest) : Prop :=
  ∀ flow ∈ tariff.activeFlow request, flow.definition.charge.party = .destination →
    flow.definition.charge.matched true (ofCents request.cents) = true →
      (flow.definition.charge.applied (ofCents request.cents)).least ≤ request.cents

theorem charge_positive {result : ChargeResult} (hcharge : tariff.charge request = .ok result) :
    0 < request.cents := by
  unfold charge at hcharge
  split at hcharge
  case isTrue => cases hcharge
  case isFalse hpositive => exact not_le.mp hpositive

/-- A charge without a flow is one by the configuration tables. -/
theorem charge_of_none {result : ChargeResult} (hflow : tariff.activeFlow request = none)
    (hcharge : tariff.charge request = .ok result) : tariff.legacyCharge request = .ok result := by
  have hpositive := charge_positive hcharge
  simpa only [charge, if_neg hpositive.not_ge, hflow] using hcharge

/-- A charge by a flow is the one that it simulates on the route of the payment. -/
theorem charge_of_some {result : ChargeResult} {flow : ActiveFlow}
    (hflow : tariff.activeFlow request = some flow) (hcharge : tariff.charge request = .ok result) :
    result.payer = flow.definition.charge.party ∧
      result.chargeAmount = flow.definition.charge.price true (ofCents request.cents) ∧
      result.sourceDebitAmount = toCents (match flow.definition.charge.party with
        | .source => plus (ofCents request.cents) (ofCents result.chargeAmount)
        | .destination => ofCents request.cents) ∧
      result.destinationCreditAmount = toCents (match flow.definition.charge.party with
        | .destination => minus (ofCents request.cents) (ofCents result.chargeAmount)
        | .source => ofCents request.cents) := by
  have hpositive := charge_positive hcharge
  simp only [charge, if_neg hpositive.not_ge, hflow] at hcharge
  obtain ⟨simulation, hsimulation, hcharge⟩ := bind_eq_ok hcharge
  obtain ⟨wallet, _, hcharge⟩ := bind_eq_ok hcharge
  cases hcharge
  have hroute := (findActive_eq_some hflow).2.routeMatched
  unfold Definition.simulate at hsimulation
  split at hsimulation
  case isTrue => cases hsimulation
  case isFalse =>
    cases hsimulation
    refine ⟨rfl, ?_, ?_, ?_⟩
    · show flow.definition.charge.price (flow.definition.routeMatched _) _ = _
      rw [hroute]
    · show toCents (if flow.definition.routeMatched _ then _ else 0) = _
      refine (congrArg toCents (if_pos hroute)).trans ?_
      cases flow.definition.charge.party <;> rfl
    · show toCents (if flow.definition.routeMatched _ then _ else 0) = _
      refine (congrArg toCents (if_pos hroute)).trans ?_
      cases flow.definition.charge.party <;> rfl

/-- A charge by the configuration tables. -/
theorem legacyCharge_eq_ok {result : ChargeResult}
    (hcharge : tariff.legacyCharge request = .ok result) :
    0 ≤ result.chargeAmount ∧
      (result.payer = .destination → result.chargeAmount ≤ request.cents) ∧
      result.sourceDebitAmount = (match result.payer with
        | .source => toCents (plus (ofCents request.cents) (ofCents result.chargeAmount))
        | .destination => request.cents) ∧
      result.destinationCreditAmount = (match result.payer with
        | .destination => toCents (minus (ofCents request.cents) (ofCents result.chargeAmount))
        | .source => request.cents) := by
  unfold legacyCharge at hcharge
  obtain ⟨configuration, _, hcharge⟩ := bind_eq_ok hcharge
  obtain ⟨wallet, _, hcharge⟩ := bind_eq_ok hcharge
  obtain ⟨detail, _, hcharge⟩ := bind_eq_ok hcharge
  obtain ⟨charge, hcalculate, hcharge⟩ := bind_eq_ok hcharge
  split at hcharge
  case isTrue => cases hcharge
  case isFalse hcovered =>
    cases hcharge
    push Not at hcovered
    refine ⟨ChargeDetail.calculate_nonneg hcalculate, fun hpayer => ?_, rfl, rfl⟩
    exact not_lt.mp fun hlt => hcovered hlt hpayer

/-- Both services spread a charge in the same way. -/
theorem charge_spread {result : ChargeResult} (hcharge : tariff.charge request = .ok result)
    (hexact : Exact request.cents result.chargeAmount) : result.Spread request.cents := by
  cases hflow : tariff.activeFlow request with
  | some flow =>
    obtain ⟨hpayer, hprice, hdebit, hcredit⟩ := charge_of_some hflow hcharge
    refine ⟨?_, ?_, ?_⟩
    · rw [hprice]
      have hpositive : 0 ≤ request.cents := (charge_positive hcharge).le
      exact PriceRule.price_nonneg _ _ (div_nonneg (by exact_mod_cast hpositive) (by norm_num))
    · rw [hdebit, hpayer]
      cases flow.definition.charge.party with
      | source => exact toCents_plus hexact.add
      | destination => simp
    · rw [hcredit, hpayer]
      cases flow.definition.charge.party with
      | source => simp
      | destination => exact toCents_minus hexact.sub
  | none =>
    obtain ⟨hnonneg, _, hdebit, hcredit⟩ := legacyCharge_eq_ok (charge_of_none hflow hcharge)
    refine ⟨hnonneg, ?_, ?_⟩
    · rw [hdebit]
      cases result.payer with
      | source => exact toCents_plus hexact.add
      | destination => simp
    · rw [hcredit]
      cases result.payer with
      | source => simp
      | destination => exact toCents_minus hexact.sub

/-- The destination is left with its credit exactly when the amount covers what it
is charged. -/
theorem credit_nonneg_iff {result : ChargeResult} (hcharge : tariff.charge request = .ok result)
    (hexact : Exact request.cents result.chargeAmount) (hcents : request.cents < 10 ^ 28) :
    0 ≤ result.destinationCreditAmount ↔ tariff.ChargeCovered request := by
  have hpositive := charge_positive hcharge
  rw [(charge_spread hcharge hexact).credit]
  cases hflow : tariff.activeFlow request with
  | none =>
    obtain ⟨_, hcovered, _, _⟩ := legacyCharge_eq_ok (charge_of_none hflow hcharge)
    apply iff_of_true
    · split
      case isTrue hpayer => exact sub_nonneg.mpr (hcovered hpayer)
      case isFalse => simpa using hpositive.le
    · intro flow hmem
      rw [hflow] at hmem
      cases hmem
  | some flow =>
    obtain ⟨hpayer, hprice, _, _⟩ := charge_of_some hflow hcharge
    have hsmall : |request.cents * 100| < 10 ^ 30 := by
      rw [abs_lt]
      omega
    have hle : result.chargeAmount ≤ request.cents ↔
        (flow.definition.charge.matched true (ofCents request.cents) = true →
          (flow.definition.charge.applied (ofCents request.cents)).least ≤ request.cents) := by
      rw [hprice, PriceRule.price]
      split
      case isTrue hmatched =>
        rw [AmountRule.calculateAmount_le_iff _ hpositive.le hsmall]
        exact ⟨fun hleast _ => hleast, fun hleast => hleast hmatched⟩
      case isFalse hmatched =>
        exact iff_of_true hpositive.le fun htrue => absurd htrue hmatched
    rw [hpayer]
    unfold ChargeCovered
    rw [hflow]
    simp only [Option.mem_some_iff, forall_eq']
    split
    case isTrue hparty => simpa only [sub_nonneg, hparty, forall_const] using hle
    case isFalse hparty =>
      exact iff_of_true (by simpa using hpositive.le) fun h => absurd h hparty

end Tariff

/-! ## Commissions -/

def CommissionDetail.NotNegative (detail : CommissionDetail) (amount : ℚ) : Prop :=
  ∀ value ∈ detail.value,
    match detail.type with
    | .fixed => 0 ≤ toCents value
    | .percentage => ∀ minimum ∈ detail.minCommission, ∀ maximum ∈ detail.maxCommission,
        0 ≤ toCents minimum ∨
          0 ≤ toCents maximum ∧ 0 ≤ toCents (dividedBy (times amount value) 100)

theorem decimal_eq_ok {value : Option ℚ} {field : String} {result : ℚ}
    (hdecimal : decimal value field = .ok result) : value = some result := by
  cases value with
  | none => cases hdecimal
  | some value =>
    cases hdecimal
    rfl

theorem CommissionDetail.calculate_nonneg_iff {detail : CommissionDetail} {amount : ℚ}
    {commission : ℤ} (hcommission : detail.calculate amount = .ok commission) :
    0 ≤ commission ↔ detail.NotNegative amount := by
  have hmono : Monotone toCents := fun _ _ => toCents_mono
  unfold CommissionDetail.calculate at hcommission
  obtain ⟨value, hvalue, hcommission⟩ := bind_eq_ok hcommission
  have hvalue := decimal_eq_ok hvalue
  simp only [CommissionDetail.NotNegative, hvalue, Option.mem_some_iff, forall_eq']
  cases htype : detail.type with
  | fixed =>
    rw [htype] at hcommission
    cases hcommission
    exact Iff.rfl
  | percentage =>
    simp only [htype] at hcommission
    obtain ⟨minimum, hminimum, hcommission⟩ := bind_eq_ok hcommission
    obtain ⟨maximum, hmaximum, hcommission⟩ := bind_eq_ok hcommission
    simp only [decimal_eq_ok hminimum, decimal_eq_ok hmaximum, Option.mem_some_iff, forall_eq']
    split at hcommission
    case isTrue => cases hcommission
    case isFalse =>
      cases hcommission
      rw [hmono.map_max, hmono.map_min, le_max_iff, le_min_iff]

/-- The receiver has the whole commission. -/
structure CommissionResult.Whole (result : CommissionResult) : Prop where
  source : result.sourceCommissionCredit =
    if result.receiver = .source then result.commissionAmount else 0
  destination : result.destinationCommissionCredit =
    if result.receiver = .destination then result.commissionAmount else 0

theorem CommissionResult.Whole.sum {result : CommissionResult} (hwhole : result.Whole) :
    result.sourceCommissionCredit + result.destinationCommissionCredit =
      result.commissionAmount := by
  rw [hwhole.source, hwhole.destination]
  cases result.receiver <;> simp

theorem CommissionResult.Whole.source_nonneg {result : CommissionResult} (hwhole : result.Whole)
    (hnonneg : 0 ≤ result.commissionAmount) : 0 ≤ result.sourceCommissionCredit := by
  rw [hwhole.source]
  split
  · exact hnonneg
  · exact le_rfl

theorem CommissionResult.Whole.destination_nonneg {result : CommissionResult}
    (hwhole : result.Whole) (hnonneg : 0 ≤ result.commissionAmount) :
    0 ≤ result.destinationCommissionCredit := by
  rw [hwhole.destination]
  split
  · exact hnonneg
  · exact le_rfl

namespace Tariff

variable {tariff : Tariff} {request : PriceRequest}

/-- No row of the configuration tables that a commission is calculated by asks for a
negative amount. -/
def CommissionCovered (tariff : Tariff) (request : PriceRequest) : Prop :=
  tariff.activeFlow request = none →
    ∀ configuration,
      tariff.commissionConfiguration request.keyword request.walletId request.currency =
          .ok configuration →
        ∀ detail, configuration.selectDetail (ofCents request.cents) = .ok detail →
          detail.NotNegative (ofCents request.cents)

/-- A commission goes to its receiver, and is negative only where a row asks for it. -/
theorem commission_eq_ok {result : CommissionResult}
    (hcommission : tariff.commission request = .ok result) :
    result.Whole ∧ (0 ≤ result.commissionAmount ↔ tariff.CommissionCovered request) := by
  unfold commission at hcommission
  split at hcommission
  case isTrue => cases hcommission
  case isFalse hpositive =>
  have hamount : 0 ≤ ofCents request.cents :=
    div_nonneg (by exact_mod_cast (not_le.mp hpositive).le) (by norm_num)
  cases hflow : tariff.activeFlow request with
  | some flow =>
    simp only [hflow] at hcommission
    obtain ⟨simulation, hsimulation, hcommission⟩ := bind_eq_ok hcommission
    obtain ⟨wallet, _, hcommission⟩ := bind_eq_ok hcommission
    cases hcommission
    unfold Definition.simulate at hsimulation
    split at hsimulation
    case isTrue => cases hsimulation
    case isFalse =>
      cases hsimulation
      refine ⟨⟨rfl, rfl⟩, iff_of_true (PriceRule.price_nonneg _ _ hamount) fun hnone => ?_⟩
      rw [hflow] at hnone
      cases hnone
  | none =>
    simp only [hflow] at hcommission
    unfold legacyCommission at hcommission
    obtain ⟨configuration, hconfiguration, hcommission⟩ := bind_eq_ok hcommission
    obtain ⟨wallet, _, hcommission⟩ := bind_eq_ok hcommission
    obtain ⟨detail, hdetail, hcommission⟩ := bind_eq_ok hcommission
    obtain ⟨amount, hamount, hcommission⟩ := bind_eq_ok hcommission
    cases hreceiver : configuration.receiver with
    | none => simp [hreceiver] at hcommission
    | some receiver =>
      simp only [hreceiver] at hcommission
      cases hcommission
      refine ⟨⟨rfl, rfl⟩, (CommissionDetail.calculate_nonneg_iff hamount).trans ?_⟩
      simp only [CommissionCovered, hflow, hconfiguration, forall_const, Except.ok.injEq,
        forall_eq', hdetail]

end Tariff

end Finify.Pricing
