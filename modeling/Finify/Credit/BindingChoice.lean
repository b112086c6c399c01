/-
# The binding of an execution

The evaluation, the answer about an execution and the simulation of a configuration each choose a
commercial binding by a query of their own.  The answer asks neither for the country and the channel
nor for an active lender.
-/

import Finify.Credit.Commercial
import Finify.Foundations.Text
import Mathlib.Data.Prod.Lex

namespace Finify.Credit.Commercial

open Finify.Foundations

/-- What an execution is about. -/
structure Execution where
  productId : String
  currency : Option String
  countryCode : String
  channel : String
  deriving DecidableEq

section

variable (state : State) (execution : Execution)

/-- The binding is for the very channel. -/
def Execution.IsExact (binding : Binding) : Prop :=
  binding.terms.channel = some execution.channel.toUpper

instance (binding : Binding) : Decidable (execution.IsExact binding) :=
  inferInstanceAs (Decidable (_ = _))

/-- The binding is active for a product, and for the country, currency and channel, with an active
lender. -/
def Applies (productId : String) (binding : Binding) : Prop :=
  ((binding.terms.lenderId.bind state.lenders.find?).any fun lender => lender.status = .active) ∧
    binding.status = .active ∧ binding.terms.productId = productId ∧
    binding.terms.countryCode = execution.countryCode.toUpper ∧
    binding.terms.currency = (execution.currency.getD "").toUpper ∧
    (binding.terms.channel = none ∨ execution.IsExact binding)

instance (productId : String) (binding : Binding) :
    Decidable (Applies state execution productId binding) :=
  inferInstanceAs (Decidable (_ ∧ _))

/-- `ORDER BY` the very channel first, then the version. -/
def Execution.rank (binding : Binding) : ℕ ×ₗ ℕ :=
  toLex (if execution.IsExact binding then 1 else 0, binding.version)

/-- `resolveCommercialBinding`. -/
def resolveCommercialBinding : Option Binding :=
  latest execution.rank
    (state.bindings.rows.filter fun binding => Applies state execution execution.productId binding)

/-- The binding that `simulate` selects in production. -/
def simulate : Option Binding :=
  latest execution.rank (state.bindings.rows.filter fun binding =>
    Applies state execution execution.productId.toUpper binding ∧
      binding.terms.environmentScope = .production)

/-- The bindings that `getExecution` looks at. -/
def candidates : List Binding :=
  state.bindings.rows.filter fun binding =>
    binding.terms.productId = execution.productId ∧
      binding.terms.currency = (execution.currency.getD binding.terms.currency).toUpper ∧
      binding.status = .active

/-- `getExecution` may report a binding: one of the highest version, where several have it. -/
def Reports : Option Binding → Prop
  | none => candidates state execution = []
  | some binding => binding ∈ candidates state execution ∧
      ∀ other ∈ candidates state execution, other.version ≤ binding.version

/-- The answer and the simulation have the binding of the evaluation. -/
structure OneBinding : Prop where
  reported : ∀ reported, Reports state execution reported →
    reported = resolveCommercialBinding state execution
  simulated : simulate state execution = resolveCommercialBinding state execution

/-- No binding that applies is for the very channel, unless this one is. -/
def Preferred (binding : Binding) : Prop :=
  execution.IsExact binding ∨ ∀ other ∈ state.bindings.rows,
    Applies state execution execution.productId other → ¬ execution.IsExact other

/-- The newest active bindings of the product and the currency apply to the execution, and the
product is in upper case where a binding applies. -/
structure NewestApplies : Prop where
  newest : ∀ binding ∈ candidates state execution,
    (∀ other ∈ candidates state execution, other.version ≤ binding.version) →
      Applies state execution execution.productId binding ∧ Preferred state execution binding
  product : execution.productId.toUpper = execution.productId ∨
    ∀ binding ∈ state.bindings.rows, ¬ Applies state execution execution.productId binding ∧
      ¬ Applies state execution execution.productId.toUpper binding

end

variable {state : State} {execution : Execution}

theorem latest_filter_eq_none {ρ α : Type} [LinearOrder α] {key : ρ → α} {rows : List ρ}
    {condition : ρ → Prop} [DecidablePred condition] :
    latest key (rows.filter fun row => condition row) = none ↔ ∀ row ∈ rows, ¬ condition row := by
  rw [latest_eq_none, List.filter_eq_nil_iff]
  simp

theorem resolved_applies {binding : Binding}
    (hresolved : resolveCommercialBinding state execution = some binding) :
    binding ∈ state.bindings.rows ∧ Applies state execution execution.productId binding ∧
      Preferred state execution binding := by
  have hmem := List.mem_filter.mp (latest_mem hresolved)
  refine ⟨hmem.1, of_decide_eq_true hmem.2, ?_⟩
  by_cases hexact : execution.IsExact binding
  · exact .inl hexact
  · right
    intro other hother happlies hbetter
    have hle := le_latest hresolved (List.mem_filter.mpr ⟨hother, decide_eq_true happlies⟩)
    simp [Execution.rank, Prod.Lex.toLex_le_toLex, if_pos hbetter, if_neg hexact] at hle

/-- The constraints leave one binding to resolve. -/
theorem resolved_iff (hlive : OneLive state.bindings.rows) {binding : Binding}
    (hbinding : binding ∈ state.bindings.rows) :
    resolveCommercialBinding state execution = some binding ↔
      Applies state execution execution.productId binding ∧ Preferred state execution binding := by
  constructor
  · intro hresolved
    exact (resolved_applies hresolved).2
  · intro hfacts
    obtain ⟨happlies, hpreferred⟩ := hfacts
    cases hresolved : resolveCommercialBinding state execution with
    | none => exact absurd happlies (latest_filter_eq_none.mp hresolved binding hbinding)
    | some other =>
      obtain ⟨hother, happlies', hpreferred'⟩ := resolved_applies hresolved
      have hchannel : other.terms.channel = binding.terms.channel := by
        rcases hpreferred with hexact | hnone
        · rcases hpreferred' with hexact' | hnone'
          · exact hexact'.trans hexact.symm
          · exact absurd hexact (hnone' binding hbinding happlies)
        · rw [happlies.2.2.2.2.2.resolve_right (hnone binding hbinding happlies),
            happlies'.2.2.2.2.2.resolve_right (hnone other hother happlies')]
      have hscope : other.terms.scope = binding.terms.scope := by
        obtain ⟨_, _, hproduct, hcountry, hcurrency, _⟩ := happlies
        obtain ⟨_, _, hproduct', hcountry', hcurrency', _⟩ := happlies'
        simp only [Terms.scope, hproduct, hproduct', hcountry, hcountry', hcurrency, hcurrency',
          hchannel]
      have hid := hlive binding hbinding other hother (by simp [Status.isLive, happlies.2.1])
        (happlies'.2.1.trans happlies.2.1.symm) hscope
      rw [state.bindings.eq_of_serial_eq hbinding hother hid]

/-- A binding that applies is looked at. -/
theorem Applies.mem_candidates {binding : Binding} (hbinding : binding ∈ state.bindings.rows)
    (happlies : Applies state execution execution.productId binding) :
    binding ∈ candidates state execution := by
  obtain ⟨_, hactive, hproduct, _, hcurrency, _⟩ := happlies
  apply List.mem_filter.mpr
  refine ⟨hbinding, decide_eq_true ⟨hproduct, ?_, hactive⟩⟩
  cases hgiven : execution.currency with
  | none =>
    rw [hgiven] at hcurrency
    rw [Option.getD_none, hcurrency, toUpper_toUpper]
  | some currency =>
    rw [hgiven] at hcurrency
    exact hcurrency

theorem production_of_active (hfits : ∀ binding ∈ state.bindings.rows, binding.fits)
    {binding : Binding} (hbinding : binding ∈ state.bindings.rows)
    (hactive : binding.status = .active) : binding.terms.environmentScope = .production := by
  have hcomplete := (hfits binding hbinding).2.2.2 (by simp [Status.isLive, hactive])
  rcases hcomplete.2.2.2.2.2.2.2.2.2 with hproduction | htest
  · exact hproduction.1
  · rw [hactive] at htest
    cases htest.2

/-- The three choices are one if and only if the newest active binding of the product and the
currency applies to the execution, and the product is in upper case where a binding applies. -/
theorem one_binding_iff (state : State) (execution : Execution)
    (hfits : ∀ binding ∈ state.bindings.rows, binding.fits)
    (hlive : OneLive state.bindings.rows) :
    OneBinding state execution ↔ NewestApplies state execution := by
  constructor
  · intro hone
    constructor
    · intro binding hmem hnewest
      have hresolved := (hone.reported (some binding) ⟨hmem, hnewest⟩).symm
      exact (resolved_iff hlive (List.mem_of_mem_filter hmem)).mp hresolved
    · by_cases hupper : execution.productId.toUpper = execution.productId
      · exact .inl hupper
      · right
        cases hresolved : resolveCommercialBinding state execution with
        | none =>
          have hsimulated := hone.simulated.trans hresolved
          intro binding hbinding
          refine ⟨latest_filter_eq_none.mp hresolved binding hbinding, fun happlies => ?_⟩
          exact latest_filter_eq_none.mp hsimulated binding hbinding
            ⟨happlies, production_of_active hfits hbinding happlies.2.1⟩
        | some binding =>
          have hsimulated := latest_mem (hone.simulated.trans hresolved)
          have hother := (of_decide_eq_true (List.mem_filter.mp hsimulated).2).1
          have happlies := (resolved_applies hresolved).2.1
          exact absurd (hother.2.2.1.symm.trans happlies.2.2.1) hupper
  · intro happlies
    constructor
    · intro reported hreports
      cases reported with
      | none =>
        symm
        apply latest_filter_eq_none.mpr
        intro binding hbinding happly
        have hmem := happly.mem_candidates hbinding
        rw [show candidates state execution = [] from hreports] at hmem
        cases hmem
      | some binding =>
        exact ((resolved_iff hlive (List.mem_of_mem_filter hreports.1)).mpr
          (happlies.newest binding hreports.1 hreports.2)).symm
    · rcases happlies.product with hupper | hnone
      · unfold simulate resolveCommercialBinding
        rw [hupper]
        congr 1
        apply List.filter_congr
        intro binding hbinding
        rw [decide_eq_decide]
        exact and_iff_left_of_imp fun happly => production_of_active hfits hbinding happly.2.1
      · rw [show resolveCommercialBinding state execution = none from
          latest_filter_eq_none.mpr fun binding hbinding => (hnone binding hbinding).1]
        exact latest_filter_eq_none.mpr fun binding hbinding happly =>
          (hnone binding hbinding).2 happly.1

/-! ## Two channels -/

/-- An active loan on a channel, whose version is its number. -/
def loan (id : ℕ) (channel : String) : Binding where
  id := id
  code := channel
  version := id
  terms :=
    { productId := "LOAN", countryCode := "UGA", currency := "UGX", channel := some channel
      walletTypeCode := 103, sourceReference := "Policy", lenderId := some 1
      pricingRuleCode := some "FLAT_5", interestMethod := some "FLAT"
      nominalInterestRate := some 5, interestRatePeriod := some .annual
      annualInterestRate := some 5, fineractProductId := some 1
      earlySettlementAllowed := some true, activationBlockers := [] }
  status := .active
  createdBy := "maker"
  createdAt := 0
  modifiedBy := none
  updatedAt := 0

/-- The loans of a lender by telephone and, of a later version, on the web. -/
def telephoneAndWeb : State where
  lenders :=
    .single
      { id := 1, code := "DTB", name := "DTB", countryCode := "UGA", status := .active
        merchantId := none }
  bindings := ⟨[loan 1 "USSD", loan 2 "WEB"], 3, by decide, by decide⟩

def loanOn (channel : String) : Execution where
  productId := "LOAN"
  currency := some "UGX"
  countryCode := "UGA"
  channel := channel

theorem telephoneAndWeb_admitted : (∀ binding ∈ telephoneAndWeb.bindings.rows, binding.fits) ∧
    OneLive telephoneAndWeb.bindings.rows := by
  decide

/-- On the web the newest binding applies. -/
theorem one_binding_web :
    OneBinding telephoneAndWeb (loanOn "WEB") ↔ NewestApplies telephoneAndWeb (loanOn "WEB") :=
  one_binding_iff telephoneAndWeb (loanOn "WEB") telephoneAndWeb_admitted.1
    telephoneAndWeb_admitted.2

/-- By telephone the answer reports the binding of the web. -/
theorem telephone_reports_web :
    ((∀ binding ∈ telephoneAndWeb.bindings.rows, binding.fits) ∧
      OneLive telephoneAndWeb.bindings.rows) ∧
    resolveCommercialBinding telephoneAndWeb (loanOn "USSD") = some (loan 1 "USSD") ∧
      Reports telephoneAndWeb (loanOn "USSD") (some (loan 2 "WEB")) ∧
      ¬ OneBinding telephoneAndWeb (loanOn "USSD") := by
  have hresolved : resolveCommercialBinding telephoneAndWeb (loanOn "USSD") =
      some (loan 1 "USSD") := by
    decide +kernel
  have hreports : Reports telephoneAndWeb (loanOn "USSD") (some (loan 2 "WEB")) := by
    unfold Reports
    decide +kernel
  refine ⟨telephoneAndWeb_admitted, hresolved, hreports, fun hone => ?_⟩
  have hsame := (hone.reported _ hreports).trans hresolved
  exact absurd (congrArg (Option.map Binding.id) hsame) (by decide)

end Finify.Credit.Commercial
