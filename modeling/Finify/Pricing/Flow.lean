/-
# Pricing flows

`validateDefinition` and `simulate` of `PricingFlowService`.  A definition is what
validation returns: values are not negative, a percentage is at most 100, bounds
and ranges are in order, and every reference to a calculation resolves.  Left out
are the fields that no calculation reads: the rule's own amount next to its
calculations, the migrated condition, and the trace of a simulation.
-/

import Finify.Pricing.Decimal
import Mathlib.Data.List.Sort

namespace Finify.Pricing

open Finify.Posting

/-! ## Definitions -/

/-- `PricingParty`. -/
inductive Party
  | source
  | destination
  deriving DecidableEq, Repr

/-- `PricingCalculationType`. -/
inductive CalculationType
  | fixed
  | percentage
  deriving DecidableEq, Repr

/-- `PricingAmountRule`. -/
structure AmountRule where
  type : CalculationType
  value : ℚ
  minimum : Option ℚ := none
  maximum : Option ℚ := none
  value_nonneg : 0 ≤ value
  percentage_le : type = .percentage → value ≤ 100
  minimum_nonneg : ∀ bound ∈ minimum, 0 ≤ bound
  maximum_ge : ∀ bound ∈ maximum, minimum.getD 0 ≤ bound

/-- `PricingCalculation`. -/
structure Calculation extends AmountRule where
  id : String
  name : String

/-- `PricingChargeRange` and `PricingCommissionRange`. -/
structure AmountRange where
  id : String
  minimumAmount : ℚ
  maximumAmount : Option ℚ := none
  calculationId : String
  minimum_nonneg : 0 ≤ minimumAmount
  maximum_ge : ∀ bound ∈ maximumAmount, minimumAmount ≤ bound

/-- `mode`. -/
inductive RuleMode
  | fixed
  | flexible
  deriving DecidableEq, Repr

/-- The charge or the commission of a definition; `party` is its payer or its
receiver. -/
structure PriceRule where
  enabled : Bool
  mode : RuleMode
  party : Party
  calculations : List Calculation
  defaultCalculationId : String
  ranges : List AmountRange
  calculations_nodup : (calculations.map Calculation.id).Nodup
  default_mem : defaultCalculationId ∈ calculations.map Calculation.id
  ranges_nodup : (ranges.map AmountRange.id).Nodup
  range_mem : ∀ range ∈ ranges, range.calculationId ∈ calculations.map Calculation.id
  ranges_disjoint : ranges.Pairwise fun earlier later =>
    ∃ bound ∈ earlier.maximumAmount, bound < later.minimumAmount

/-- `PricingFlowDefinition`. -/
structure Definition where
  keyword : String
  keywords : List String
  currency : String
  sourceWalletTypes : List ℤ
  destinationWalletTypes : List ℤ
  charge : PriceRule
  commission : PriceRule
  chargeWalletType : ℤ
  commissionWalletType : ℤ
  keyword_eq : keywords.head? = some keyword
  source_ne : sourceWalletTypes ≠ []
  enabled : charge.enabled = true ∨ commission.enabled = true

/-- A rule that asks for one amount, whatever the payment. -/
def flatRule (party : Party) (units : ℕ) : PriceRule where
  enabled := true
  mode := .fixed
  party := party
  calculations := [{
    type := .fixed
    value := units
    value_nonneg := Nat.cast_nonneg units
    percentage_le := fun htype => by cases htype
    minimum_nonneg := fun _ hbound => by cases hbound
    maximum_ge := fun _ hbound => by cases hbound
    id := "flat"
    name := "Flat" }]
  defaultCalculationId := "flat"
  ranges := []
  calculations_nodup := List.nodup_singleton _
  default_mem := List.mem_singleton_self _
  ranges_nodup := List.nodup_nil
  range_mem := fun _ hrange => by cases hrange
  ranges_disjoint := .nil

/-- A definition with a flat charge and no commission, for wallets of type 1. -/
def flatDefinition (keyword : String) (keywords : List String) (payer : Party) (units : ℕ) :
    Definition where
  keyword := keyword
  keywords := keyword :: keywords
  currency := "BDT"
  sourceWalletTypes := [1]
  destinationWalletTypes := []
  charge := flatRule payer units
  commission := flatRule .source 0
  chargeWalletType := 113
  commissionWalletType := 114
  keyword_eq := rfl
  source_ne := List.cons_ne_nil _ _
  enabled := .inl rfl

/-! ## Amounts -/

namespace AmountRule

def bounded (rule : AmountRule) (result : ℚ) : ℚ :=
  let result := rule.minimum.elim result fun bound => max result bound
  rule.maximum.elim result fun bound => min result bound

/-- `calculateAmount`, in hundredths. -/
def calculateAmount (rule : AmountRule) (amount : ℚ) : ℤ :=
  match rule.type with
  | .fixed => toCents (rule.bounded rule.value)
  | .percentage => toCents (rule.bounded (dividedBy (times amount rule.value) 100))

def least (rule : AmountRule) : ℤ :=
  match rule.type with
  | .fixed => toCents (rule.bounded rule.value)
  | .percentage => toCents (rule.minimum.getD 0)

theorem le_bounded (rule : AmountRule) {result : ℚ} (hresult : 0 ≤ result) :
    rule.minimum.getD 0 ≤ rule.bounded result := by
  have hlower : rule.minimum.getD 0 ≤ rule.minimum.elim result fun bound => max result bound := by
    cases rule.minimum with
    | none => exact hresult
    | some bound => exact le_max_right _ _
  unfold bounded
  cases hmaximum : rule.maximum with
  | none => exact hlower
  | some bound => exact le_min hlower (rule.maximum_ge bound hmaximum)

theorem bounded_le (rule : AmountRule) {result bound : ℚ} (hresult : result ≤ bound)
    (hminimum : rule.minimum.getD 0 ≤ bound) : rule.bounded result ≤ bound := by
  have hupper : (rule.minimum.elim result fun bound => max result bound) ≤ bound := by
    cases hcase : rule.minimum with
    | none => exact hresult
    | some lower =>
      rw [hcase] at hminimum
      exact max_le hresult hminimum
  unfold bounded
  cases rule.maximum with
  | none => exact hupper
  | some upper => exact (min_le_left _ _).trans hupper

theorem minimum_getD_nonneg (rule : AmountRule) : 0 ≤ rule.minimum.getD 0 := by
  cases hminimum : rule.minimum with
  | none => exact le_rfl
  | some bound => exact rule.minimum_nonneg bound hminimum

theorem percentage_nonneg (rule : AmountRule) {amount : ℚ} (hamount : 0 ≤ amount) :
    0 ≤ dividedBy (times amount rule.value) 100 :=
  toPrecision_nonneg (div_nonneg
    (toPrecision_nonneg (mul_nonneg hamount rule.value_nonneg)) (by norm_num))

/-- No rule asks for a negative amount. -/
theorem calculateAmount_nonneg (rule : AmountRule) {amount : ℚ} (hamount : 0 ≤ amount) :
    0 ≤ rule.calculateAmount amount := by
  unfold calculateAmount
  split
  · exact toCents_nonneg (rule.minimum_getD_nonneg.trans (rule.le_bounded rule.value_nonneg))
  · exact toCents_nonneg
      (rule.minimum_getD_nonneg.trans (rule.le_bounded (rule.percentage_nonneg hamount)))

theorem percentage_le_amount (rule : AmountRule) (htype : rule.type = .percentage) {cents : ℤ}
    (hcents : 0 ≤ cents) (hsmall : |cents * 100| < 10 ^ 30) :
    dividedBy (times (ofCents cents) rule.value) 100 ≤ ofCents cents := by
  have hamount : 0 ≤ ofCents cents := div_nonneg (by exact_mod_cast hcents) (by norm_num)
  have hproduct : times (ofCents cents) rule.value ≤ ofCents (cents * 100) := by
    refine toPrecision_le (mul_nonneg hamount rule.value_nonneg) ?_ hsmall
    calc ofCents cents * rule.value ≤ ofCents cents * 100 :=
          mul_le_mul_of_nonneg_left (rule.percentage_le htype) hamount
      _ = ofCents (cents * 100) := by
          unfold ofCents
          push_cast
          ring
  have hless : |cents| < 10 ^ 30 := by
    refine lt_of_le_of_lt ?_ hsmall
    rw [abs_mul]
    exact le_mul_of_one_le_right (abs_nonneg _) (by norm_num)
  refine toPrecision_le (div_nonneg
    (toPrecision_nonneg (mul_nonneg hamount rule.value_nonneg)) (by norm_num)) ?_ hless
  calc times (ofCents cents) rule.value / 100 ≤ ofCents (cents * 100) / 100 :=
        div_le_div_of_nonneg_right hproduct (by norm_num)
    _ = ofCents cents := by
        unfold ofCents
        push_cast
        ring

/-- A rule asks for no more than the amount exactly when its least is no more. -/
theorem calculateAmount_le_iff (rule : AmountRule) {cents : ℤ} (hcents : 0 ≤ cents)
    (hsmall : |cents * 100| < 10 ^ 30) :
    rule.calculateAmount (ofCents cents) ≤ cents ↔ rule.least ≤ cents := by
  have hamount : 0 ≤ ofCents cents := div_nonneg (by exact_mod_cast hcents) (by norm_num)
  unfold calculateAmount least
  cases htype : rule.type with
  | fixed => exact Iff.rfl
  | percentage =>
    simp only
    constructor
    · intro hle
      exact (toCents_mono (rule.le_bounded (rule.percentage_nonneg hamount))).trans hle
    · intro hleast
      -- Rounding is monotone, so it is enough to bound the two parts of the result.
      rcases le_total (rule.minimum.getD 0) (ofCents cents) with hminimum | hminimum
      · have hbounded := rule.bounded_le (rule.percentage_le_amount htype hcents hsmall) hminimum
        simpa using toCents_mono hbounded
      · have hbounded := rule.bounded_le
          ((rule.percentage_le_amount htype hcents hsmall).trans hminimum) le_rfl
        exact (toCents_mono hbounded).trans hleast

end AmountRule

/-! ## Simulation -/

def AmountRange.Contains (range : AmountRange) (amount : ℚ) : Prop :=
  range.minimumAmount ≤ amount ∧ ∀ bound ∈ range.maximumAmount, amount ≤ bound

instance (range : AmountRange) (amount : ℚ) : Decidable (range.Contains amount) :=
  decidable_of_iff (range.minimumAmount ≤ amount ∧
    range.maximumAmount.all fun bound => amount ≤ bound) (by
      cases h : range.maximumAmount <;> simp [AmountRange.Contains, h])

namespace PriceRule

/-- The first range that the amount lies in, where ranges count. -/
def matchedRange? (rule : PriceRule) (amount : ℚ) : Option AmountRange :=
  if rule.enabled = false ∨ rule.mode = .fixed then none
  else rule.ranges.find? fun range => range.Contains amount

def matched (rule : PriceRule) (routeMatched : Bool) (amount : ℚ) : Bool :=
  routeMatched && rule.enabled &&
    (decide (rule.mode = .fixed) || (rule.matchedRange? amount).isSome)

/-- The calculation of the matched range, or else the default one. -/
def calculationId (rule : PriceRule) (amount : ℚ) : String :=
  match rule.mode with
  | .fixed => rule.defaultCalculationId
  | .flexible =>
    (rule.matchedRange? amount).elim rule.defaultCalculationId AmountRange.calculationId

def calculation? (rule : PriceRule) (id : String) : Option Calculation :=
  rule.calculations.find? fun calculation => calculation.id = id

theorem calculation?_isSome (rule : PriceRule) {id : String}
    (hid : id ∈ rule.calculations.map Calculation.id) : (rule.calculation? id).isSome := by
  obtain ⟨calculation, hmem, rfl⟩ := List.mem_map.mp hid
  exact List.find?_isSome.mpr ⟨calculation, hmem, by simp⟩

theorem calculationId_mem (rule : PriceRule) (amount : ℚ) :
    rule.calculationId amount ∈ rule.calculations.map Calculation.id := by
  unfold calculationId
  split
  · exact rule.default_mem
  · cases hrange : rule.matchedRange? amount with
    | none => exact rule.default_mem
    | some range =>
      have hmem : range ∈ rule.ranges := by
        unfold matchedRange? at hrange
        split at hrange
        · cases hrange
        · exact List.mem_of_find?_eq_some hrange
      exact rule.range_mem range hmem

def applied (rule : PriceRule) (amount : ℚ) : Calculation :=
  (rule.calculation? (rule.calculationId amount)).get
    (rule.calculation?_isSome (rule.calculationId_mem amount))

/-- What the rule asks for, in hundredths; nothing where it does not apply. -/
def price (rule : PriceRule) (routeMatched : Bool) (amount : ℚ) : ℤ :=
  if rule.matched routeMatched amount then (rule.applied amount).calculateAmount amount else 0

theorem price_nonneg (rule : PriceRule) (routeMatched : Bool) {amount : ℚ}
    (hamount : 0 ≤ amount) : 0 ≤ rule.price routeMatched amount := by
  unfold price
  split
  · exact AmountRule.calculateAmount_nonneg _ hamount
  · exact le_rfl

end PriceRule

/-- `PricingSimulation`, with amounts in hundredths. -/
structure Simulation where
  matched : Bool
  routeMatched : Bool
  transactionAmount : ℤ
  chargeAmount : ℤ
  commissionAmount : ℤ
  sourceDebitAmount : ℤ
  destinationCreditAmount : ℤ
  chargePayer : Party
  commissionReceiver : Party

namespace Definition

variable (definition : Definition)

/-- The selected wallet types are on the route; without a selection any are. -/
def routeMatched (route : Option (ℤ × ℤ)) : Bool :=
  route.all fun route =>
    decide (route.1 ∈ definition.sourceWalletTypes) &&
      (definition.destinationWalletTypes.isEmpty ||
        decide (route.2 ∈ definition.destinationWalletTypes))

/-- `simulate`, for a definition and wallet types that pass their own checks. -/
def simulate (amount : ℚ) (route : Option (ℤ × ℤ)) : Except String Simulation :=
  if amount ≤ 0 then .error "Transaction amount must be greater than zero"
  else
    let routeMatched := definition.routeMatched route
    let charge := definition.charge.price routeMatched amount
    let commission := definition.commission.price routeMatched amount
    let sourceDebit :=
      if routeMatched then
        match definition.charge.party with
        | .source => plus amount (ofCents charge)
        | .destination => amount
      else 0
    let destinationCredit :=
      if routeMatched then
        match definition.charge.party with
        | .destination => minus amount (ofCents charge)
        | .source => amount
      else 0
    .ok
      { matched := routeMatched && (definition.charge.matched routeMatched amount ||
          definition.commission.matched routeMatched amount)
        routeMatched := routeMatched
        transactionAmount := toCents amount
        chargeAmount := charge
        commissionAmount := commission
        sourceDebitAmount := toCents sourceDebit
        destinationCreditAmount := toCents destinationCredit
        chargePayer := definition.charge.party
        commissionReceiver := definition.commission.party }

end Definition

/-! ## The active flow -/

/-- An active row of `pricing_rule_flows`.  Its columns are written from the
definition: the first source and destination wallet types, and the currency. -/
structure ActiveFlow where
  id : ℤ
  priority : ℤ
  definition : Definition

/-- The row serves a payment. -/
def ActiveFlow.Serves (flow : ActiveFlow) (keyword : String) (source : ℤ) (currency : String)
    (destination : ℤ) : Prop :=
  (flow.definition.keyword = keyword.toUpper ∨ keyword.toUpper ∈ flow.definition.keywords) ∧
    (flow.definition.sourceWalletTypes.head? = some source ∨
      source ∈ flow.definition.sourceWalletTypes) ∧
    flow.definition.currency = currency.toUpper ∧
    (flow.definition.destinationWalletTypes.length = 0 ∨
      flow.definition.destinationWalletTypes.head? = some destination ∨
      destination ∈ flow.definition.destinationWalletTypes)

instance (flow : ActiveFlow) (keyword : String) (source : ℤ) (currency : String)
    (destination : ℤ) : Decidable (flow.Serves keyword source currency destination) :=
  inferInstanceAs (Decidable (_ ∧ _))

/-- `findActive`: of the rows that serve the payment, the first by priority and
then the newest. -/
def findActive (flows : List ActiveFlow) (keyword : String) (source : ℤ) (currency : String)
    (destination : ℤ) : Option ActiveFlow :=
  ((flows.filter fun flow => flow.Serves keyword source currency destination).insertionSort
    fun first second => first.priority < second.priority ∨
      first.priority = second.priority ∧ second.id ≤ first.id).head?

theorem findActive_eq_some {flows : List ActiveFlow} {keyword : String} {source : ℤ}
    {currency : String} {destination : ℤ} {flow : ActiveFlow}
    (hfind : findActive flows keyword source currency destination = some flow) :
    flow ∈ flows ∧ flow.Serves keyword source currency destination := by
  have hmem := (List.perm_insertionSort _ _).mem_iff.mp (List.mem_of_head? hfind)
  obtain ⟨hflow, hserves⟩ := List.mem_filter.mp hmem
  exact ⟨hflow, of_decide_eq_true hserves⟩

theorem ActiveFlow.Serves.routeMatched {flow : ActiveFlow} {keyword : String} {source : ℤ}
    {currency : String} {destination : ℤ}
    (hserves : flow.Serves keyword source currency destination) :
    flow.definition.routeMatched (some (source, destination)) = true := by
  obtain ⟨_, hsource, _, hdestination⟩ := hserves
  have hsource' : source ∈ flow.definition.sourceWalletTypes := by
    rcases hsource with hhead | hmem
    · exact List.mem_of_head? hhead
    · exact hmem
  have hdestination' : flow.definition.destinationWalletTypes.isEmpty = true ∨
      destination ∈ flow.definition.destinationWalletTypes := by
    rcases hdestination with hnone | hhead | hmem
    · exact .inl (List.isEmpty_iff_length_eq_zero.mpr hnone)
    · exact .inr (List.mem_of_head? hhead)
    · exact .inr hmem
  simp only [Definition.routeMatched, Option.all_some, Bool.and_eq_true, Bool.or_eq_true,
    decide_eq_true_eq]
  exact ⟨hsource', hdestination'⟩

end Finify.Pricing
