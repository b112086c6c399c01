/-
# The commercial configuration of credit

The bindings of credit products to lenders, and the three procedures that write them.  Each call
is one step: it holds the row of its binding, and the rows of other bindings that it retires are
read again when they are written.  A configuration holds the values of its texts; what does not
convert, an unknown code or a list that is none, raises in the source and is left out.  So are the
padding of `char(3)` columns and values too large for their columns.
-/

import Finify.Credit.Amounts
import Finify.Foundations.Table

namespace Finify.Credit.Commercial

open Finify.Foundations

/-! ## Rows -/

/-- The status of a merchant or a lender. -/
inductive PartnerStatus
  | draft
  | pendingApproval
  | approved
  | active
  | suspended
  | retired
  deriving DecidableEq, Repr

/-- `business_merchants`. -/
structure Merchant where
  id : ℕ
  code : String
  displayName : String
  merchantTypeCode : String
  countryCode : String
  status : PartnerStatus
  defaultWalletTypeCode : Option ℤ := none
  updatedBy : Option String := none
  updatedAt : Option ℤ := none
  deriving DecidableEq

/-- `credit_lenders`. -/
structure Lender where
  id : ℕ
  code : String
  name : String
  countryCode : String
  allocationWeight : ℚ := 1
  status : PartnerStatus
  merchantId : Option ℕ
  settlementWalletTypeCode : Option ℤ := none
  deriving DecidableEq

/-- `SW_TBL_WALLET_TYPE`. -/
structure WalletType where
  walletId : ℤ
  walletType : ℤ
  status : Bool
  deriving DecidableEq

/-- `environment_scope`. -/
inductive Environment
  | test
  | production
  deriving DecidableEq, Repr

/-- `interest_rate_period`. -/
inductive RatePeriod
  | daily
  | monthly
  | annual
  deriving DecidableEq, Repr

/-- `repayment_frequency_type`. -/
inductive FrequencyType
  | days
  | weeks
  | months
  deriving DecidableEq, Repr

/-- The status of a binding. -/
inductive Status
  | draft
  | pendingApproval
  | approved
  | testActive
  | active
  | rejected
  | retired
  deriving DecidableEq, Repr

/-- The columns of a binding that its configuration fills. -/
structure Terms where
  productId : String
  countryCode : String
  currency : String
  channel : Option String
  walletTypeCode : ℤ
  sourceReference : String
  lenderId : Option ℕ := none
  environmentScope : Environment := .production
  fineractTenant : Option String := none
  fineractProductId : Option ℤ := none
  fineractProductName : Option String := none
  pricingRuleCode : Option String := none
  interestMethod : Option String := none
  nominalInterestRate : Option ℚ := none
  interestRatePeriod : Option RatePeriod := none
  annualInterestRate : Option ℚ := none
  repaymentFrequency : Option ℤ := none
  repaymentFrequencyType : Option FrequencyType := none
  minimumRepayments : Option ℤ := none
  defaultRepayments : Option ℤ := none
  maximumRepayments : Option ℤ := none
  processingFeeType : Option String := none
  processingFeeValue : Option ℚ := none
  lateFeeType : Option String := none
  lateFeeValue : Option ℚ := none
  earlySettlementAllowed : Option Bool := none
  earlySettlementFeeType : Option String := none
  earlySettlementFeeValue : Option ℚ := none
  chargeCodes : List String := []
  commissionCodes : List String := []
  activationBlockers : List String
  deriving DecidableEq

/-- `credit_product_bindings`. -/
structure Binding where
  id : ℕ
  code : String
  version : ℕ
  revision : ℤ := 1
  terms : Terms
  status : Status := .draft
  createdBy : String
  createdAt : ℤ
  modifiedBy : Option String
  updatedAt : ℤ
  approvedBy : Option String := none
  approvedAt : Option ℤ := none
  activatedBy : Option String := none
  activatedAt : Option ℤ := none
  rejectedBy : Option String := none
  rejectedAt : Option ℤ := none
  rejectionReason : Option String := none
  deriving DecidableEq

/-- What the view shows of a lender. -/
structure LenderView where
  id : ℕ
  code : String
  name : String
  allocationWeight : ℚ
  settlementWalletTypeCode : Option ℤ
  deriving DecidableEq

/-- What the view shows of a merchant. -/
structure MerchantView where
  id : ℕ
  code : String
  displayName : String
  deriving DecidableEq

/-- `credit_commercial_configuration_view`: all columns of the binding, and what is joined. -/
structure View where
  binding : Binding
  lender : Option LenderView
  merchant : Option MerchantView
  deriving DecidableEq

/-- The actions of `transition_credit_commercial_configuration`. -/
inductive Action
  | submit
  | approve
  | activate
  | reject
  | retire
  deriving DecidableEq, Repr

/-- `credit_commercial_configuration_audit`, whose action is `SAVE` if it is none of those. -/
structure Audit where
  id : ℕ
  bindingId : ℕ
  action : Option Action
  actorId : String
  previousState : Option View
  newState : View
  reason : Option String := none
  deriving DecidableEq

/-- The tables. -/
structure State where
  merchants : Table Merchant.id := .empty
  lenders : Table Lender.id := .empty
  walletTypes : List WalletType := []
  bindings : Log Binding.id := .empty
  audits : Log Audit.id := .empty

/-! ## Constraints -/

/-- The binding is active in its environment. -/
def Status.isLive (status : Status) : Bool := status = .active || status = .testActive

/-- `CK_CREDIT_BINDING_ACTIVE_COMPLETE` of a binding that is active. -/
def Binding.isComplete (binding : Binding) : Prop :=
  binding.terms.lenderId.isSome ∧ binding.terms.pricingRuleCode.isSome ∧
    binding.terms.interestMethod.isSome ∧ binding.terms.annualInterestRate.isSome ∧
    binding.terms.nominalInterestRate.isSome ∧ binding.terms.interestRatePeriod.isSome ∧
    binding.terms.fineractProductId.isSome ∧ binding.terms.earlySettlementAllowed.isSome ∧
    binding.terms.activationBlockers = [] ∧
    ((binding.terms.environmentScope = .production ∧ binding.status = .active) ∨
      (binding.terms.environmentScope = .test ∧ binding.status = .testActive))

instance (binding : Binding) : Decidable binding.isComplete :=
  inferInstanceAs (Decidable (_ ∧ _))

/-- `CK_CREDIT_BINDING_REPAYMENT`, which unknown values pass. -/
def Terms.repaymentFits (terms : Terms) : Prop :=
  terms.repaymentFrequency.isSome →
    (∀ frequency ∈ terms.repaymentFrequency, 0 < frequency) ∧
      (∀ least ∈ terms.minimumRepayments, 0 < least) ∧
      (∀ usual ∈ terms.defaultRepayments,
        (∀ least ∈ terms.minimumRepayments, least ≤ usual) ∧
          (∀ most ∈ terms.maximumRepayments, usual ≤ most))

instance (terms : Terms) : Decidable terms.repaymentFits :=
  inferInstanceAs (Decidable (terms.repaymentFrequency.isSome = true →
    (∀ frequency ∈ terms.repaymentFrequency, 0 < frequency) ∧
      (∀ least ∈ terms.minimumRepayments, 0 < least) ∧
      (∀ usual ∈ terms.defaultRepayments,
        (∀ least ∈ terms.minimumRepayments, least ≤ usual) ∧
          (∀ most ∈ terms.maximumRepayments, usual ≤ most))))

def Binding.fits (binding : Binding) : Prop :=
  (∀ rate ∈ binding.terms.annualInterestRate, 0 ≤ rate) ∧ binding.terms.repaymentFits ∧
    binding.approvedBy ≠ some binding.createdBy ∧
    (binding.status.isLive → binding.isComplete)

instance (binding : Binding) : Decidable binding.fits :=
  inferInstanceAs (Decidable
    ((∀ rate ∈ binding.terms.annualInterestRate, 0 ≤ rate) ∧ binding.terms.repaymentFits ∧
      binding.approvedBy ≠ some binding.createdBy ∧
      (binding.status.isLive = true → binding.isComplete)))

def Terms.scope (terms : Terms) : String × String × String × String :=
  (terms.productId, terms.countryCode, terms.currency, terms.channel.getD "")

/-- `UQ_CREDIT_BINDING_ACTIVE_SCOPE` and `UQ_CREDIT_BINDING_TEST_ACTIVE_SCOPE`. -/
def OneLive (bindings : List Binding) : Prop :=
  ∀ first ∈ bindings, ∀ second ∈ bindings, first.status.isLive → second.status = first.status →
    second.terms.scope = first.terms.scope → first.id = second.id

instance (bindings : List Binding) : Decidable (OneLive bindings) :=
  inferInstanceAs (Decidable (∀ first ∈ bindings, ∀ second ∈ bindings,
    first.status.isLive = true → second.status = first.status →
      second.terms.scope = first.terms.scope → first.id = second.id))

/-- The constraints on what was written of a binding. -/
def State.checked (state : State) (bindingId : ℕ) : Option State :=
  if (∀ row ∈ state.bindings.rows, row.id = bindingId → row.fits) ∧
      OneLive state.bindings.rows then
    some state
  else none

/-! ## The view and the audit -/

def Lender.shown (lender : Lender) : LenderView where
  id := lender.id
  code := lender.code
  name := lender.name
  allocationWeight := lender.allocationWeight
  settlementWalletTypeCode := lender.settlementWalletTypeCode

def Merchant.shown (merchant : Merchant) : MerchantView where
  id := merchant.id
  code := merchant.code
  displayName := merchant.displayName

def State.viewOf (state : State) (binding : Binding) : View where
  binding := binding
  lender := (binding.terms.lenderId.bind state.lenders.find?).map Lender.shown
  merchant := (binding.terms.lenderId.bind state.lenders.find?).bind fun lender =>
    (lender.merchantId.bind state.merchants.find?).map Merchant.shown

/-- `credit_commercial_configuration_view`. -/
def State.view (state : State) (bindingId : ℕ) : Option View :=
  (state.bindings.find? bindingId).map state.viewOf

/-- The INSERT of an audit row. -/
def State.audit (state : State) (bindingId : ℕ) (action : Option Action) (actor : String)
    (before : Option View) (reason : Option String) : Option State :=
  (state.view bindingId).map fun after =>
    { state with
      audits := state.audits.append
        (fun id =>
          { id := id, bindingId := bindingId, action := action, actorId := actor
            previousState := before, newState := after, reason := reason })
        fun _ => rfl }

/-! ## Editing -/

/-- `p_configuration`. -/
structure Configuration where
  productId : Option String := none
  countryCode : Option String := none
  currency : Option String := none
  channel : Option String := none
  environmentScope : Option Environment := none
  merchantId : Option ℕ := none
  lenderId : Option ℕ := none
  allocationWeight : Option ℚ := none
  customerWalletTypeCode : Option ℤ := none
  settlementWalletTypeCode : Option ℤ := none
  fineractTenant : Option String := none
  fineractProductId : Option ℤ := none
  fineractProductName : Option String := none
  pricingRuleCode : Option String := none
  interestMethod : Option String := none
  nominalInterestRate : Option ℚ := none
  interestRatePeriod : Option RatePeriod := none
  repaymentFrequency : Option ℤ := none
  repaymentFrequencyType : Option FrequencyType := none
  minimumRepayments : Option ℤ := none
  defaultRepayments : Option ℤ := none
  maximumRepayments : Option ℤ := none
  processingFeeType : Option String := none
  processingFeeValue : Option ℚ := none
  lateFeeType : Option String := none
  lateFeeValue : Option ℚ := none
  /-- The value, which may be `null`, if the key is there. -/
  earlySettlementAllowed : Option (Option Bool) := none
  earlySettlementFeeType : Option String := none
  earlySettlementFeeValue : Option ℚ := none
  chargeCodes : Option (List String) := none
  commissionCodes : Option (List String) := none
  sourceReference : Option String := none

/-- `COALESCE(btrim(text),'')=''`. -/
def isBlank (text : String) : Bool := text.toList.all fun char => char = ' '

/-- `NULLIF(text,value)`. -/
def nullIf (text : Option String) (value : String) : Option String :=
  text.filter fun given => given ≠ value

/-- `v_annual_rate`. -/
def annualRate (rate : ℚ) : Option RatePeriod → ℚ
  | some .daily => rate * 365
  | some .monthly => rate * 12
  | _ => rate

/-- `v_blockers`. -/
def Configuration.blockers (config : Configuration) : List String :=
  (if config.fineractProductId.isNone then ["FINERACT_PRODUCT_NOT_SELECTED"] else []) ++
    (if isBlank (config.pricingRuleCode.getD "") then ["PRICING_RULE_NOT_DEFINED"] else []) ++
    (if config.processingFeeValue.isNone then ["PROCESSING_FEE_NOT_DEFINED"] else []) ++
    (if config.lateFeeValue.isNone then ["LATE_FEE_NOT_DEFINED"] else []) ++
    (if config.earlySettlementAllowed.isNone then ["EARLY_SETTLEMENT_NOT_DEFINED"] else []) ++
    (if (config.chargeCodes.getD []).isEmpty then ["CHARGES_NOT_DEFINED"] else []) ++
    (if (config.commissionCodes.getD []).isEmpty then ["COMMISSION_NOT_DEFINED"] else [])

/-- What a configuration comes to: its partners, what is written of them, and the terms. -/
structure Resolved where
  merchant : Merchant
  lender : Lender
  settlementWallet : ℤ
  allocationWeight : ℚ
  terms : Terms

def State.hasWalletType (state : State) (walletId walletType : ℤ) : Bool :=
  state.walletTypes.any fun row =>
    row.walletId = walletId && row.status && row.walletType = walletType

/-- The terms that the UPDATE writes, with the columns that may not be NULL. -/
def Configuration.terms (config : Configuration) (lenderId : ℕ) (customerWallet : ℤ)
    (countryCode : String) : Option Terms :=
  match config.productId, config.currency, config.environmentScope, config.sourceReference with
  | some productId, some currency, some environmentScope, some sourceReference =>
    some
      { productId := productId.toUpper
        countryCode := countryCode
        currency := currency.toUpper
        channel := nullIf (config.channel.map String.toUpper) "ALL"
        walletTypeCode := customerWallet
        sourceReference := sourceReference
        lenderId := some lenderId
        environmentScope := environmentScope
        fineractTenant := nullIf config.fineractTenant ""
        fineractProductId := config.fineractProductId
        fineractProductName := nullIf config.fineractProductName ""
        pricingRuleCode := nullIf (config.pricingRuleCode.map String.toUpper) ""
        interestMethod := config.interestMethod.map String.toUpper
        nominalInterestRate := config.nominalInterestRate.map (toScale 8)
        interestRatePeriod := config.interestRatePeriod
        annualInterestRate := config.nominalInterestRate.map fun rate =>
          toScale 8 (annualRate rate config.interestRatePeriod)
        repaymentFrequency := config.repaymentFrequency
        repaymentFrequencyType := config.repaymentFrequencyType
        minimumRepayments := config.minimumRepayments
        defaultRepayments := config.defaultRepayments
        maximumRepayments := config.maximumRepayments
        processingFeeType := config.processingFeeType.map String.toUpper
        processingFeeValue := config.processingFeeValue.map (toScale 6)
        lateFeeType := config.lateFeeType.map String.toUpper
        lateFeeValue := config.lateFeeValue.map (toScale 6)
        earlySettlementAllowed := config.earlySettlementAllowed.join
        earlySettlementFeeType := config.earlySettlementFeeType.map String.toUpper
        earlySettlementFeeValue := config.earlySettlementFeeValue.map (toScale 6)
        chargeCodes := config.chargeCodes.getD []
        commissionCodes := config.commissionCodes.getD []
        activationBlockers := config.blockers }
  | _, _, _, _ => none

/-- The checks of `apply_credit_commercial_configuration` on the configuration. -/
def State.resolve (state : State) (config : Configuration) : Option Resolved :=
  match config.merchantId.bind state.merchants.find?, config.lenderId.bind state.lenders.find?,
    config.countryCode, config.customerWalletTypeCode, config.settlementWalletTypeCode,
    config.allocationWeight with
  | some merchant, some lender, some countryCode, some customerWallet, some settlementWallet,
    some allocationWeight =>
      if (merchant.merchantTypeCode = "BANK" ∧ merchant.status = .active) ∧
          (lender.merchantId = some merchant.id ∧ lender.status = .active) ∧
          (merchant.countryCode = countryCode.toUpper ∧
            lender.countryCode = countryCode.toUpper) ∧
          (state.hasWalletType customerWallet 100 ∧ state.hasWalletType settlementWallet 200) ∧
          (∀ rate ∈ config.nominalInterestRate, 0 ≤ rate) ∧ 0 < toScale 6 allocationWeight then
        (config.terms lender.id customerWallet countryCode.toUpper).map fun terms =>
          { merchant := merchant
            lender := lender
            settlementWallet := settlementWallet
            allocationWeight := toScale 6 allocationWeight
            terms := terms }
      else none
  | _, _, _, _, _, _ => none

def Resolved.merchantAfter (resolved : Resolved) (actor : String) (now : ℤ) (row : Merchant) :
    Merchant :=
  { row with
    defaultWalletTypeCode := some resolved.settlementWallet
    updatedBy := some actor
    updatedAt := some now }

theorem Resolved.merchantAfter_id (resolved : Resolved) (actor : String) (now : ℤ)
    (row : Merchant) : (resolved.merchantAfter actor now row).id = row.id := rfl

def Resolved.lenderAfter (resolved : Resolved) (row : Lender) : Lender :=
  { row with
    settlementWalletTypeCode := some resolved.settlementWallet
    allocationWeight := resolved.allocationWeight }

theorem Resolved.lenderAfter_id (resolved : Resolved) (row : Lender) :
    (resolved.lenderAfter row).id = row.id := rfl

def Resolved.bindingAfter (resolved : Resolved) (actor : String) (now : ℤ) (row : Binding) :
    Binding :=
  { row with
    terms := resolved.terms
    status := .draft
    revision := row.revision + 1
    modifiedBy := some actor
    updatedAt := now
    approvedBy := none
    approvedAt := none
    activatedBy := none
    activatedAt := none
    rejectedBy := none
    rejectedAt := none
    rejectionReason := none }

theorem Resolved.bindingAfter_id (resolved : Resolved) (actor : String) (now : ℤ)
    (row : Binding) : (resolved.bindingAfter actor now row).id = row.id := rfl

/-- The three UPDATEs. -/
def State.saved (state : State) (bindingId : ℕ) (resolved : Resolved) (actor : String)
    (now : ℤ) : State :=
  { state with
    merchants := state.merchants.modify resolved.merchant.id (resolved.merchantAfter actor now)
      (resolved.merchantAfter_id actor now)
    lenders := state.lenders.modify resolved.lender.id resolved.lenderAfter resolved.lenderAfter_id
    bindings := state.bindings.modify bindingId (resolved.bindingAfter actor now)
      (resolved.bindingAfter_id actor now) }

def Binding.isAt (binding : Binding) (expectedRevision : Option ℤ) : Prop :=
  ∀ revision ∈ expectedRevision, binding.revision = revision

instance (binding : Binding) (expectedRevision : Option ℤ) :
    Decidable (binding.isAt expectedRevision) :=
  inferInstanceAs (Decidable (∀ revision ∈ expectedRevision, binding.revision = revision))

/-- Bindings that can be edited. -/
def Status.isEditable (status : Status) : Bool :=
  status = .draft || status = .rejected || status = .testActive

/-- `apply_credit_commercial_configuration`. -/
def State.apply (state : State) (bindingId : ℕ) (expectedRevision : Option ℤ) (actor : String)
    (config : Configuration) (now : ℤ) : Option State :=
  match state.bindings.find? bindingId with
  | none => none
  | some binding =>
    if ¬ isBlank actor ∧ binding.isAt expectedRevision ∧ binding.status.isEditable then
      (state.resolve config).bind fun resolved =>
        ((state.saved bindingId resolved actor now).checked bindingId).bind fun after =>
          after.audit bindingId none actor (state.view bindingId) none
    else none

/-- The text without the blanks around it. -/
def btrim (text : String) : String :=
  String.ofList
    (((text.toList.dropWhile fun char => char = ' ').reverse.dropWhile
      fun char => char = ' ').reverse)

/-- A binding as the INSERT of `create_credit_commercial_configuration` makes it. -/
def Configuration.draft (config : Configuration) (code : String) (version : ℕ) (actor : String)
    (now : ℤ) (id : ℕ) : Binding where
  id := id
  code := code
  version := version
  terms :=
    { productId := (config.productId.getD "").toUpper
      countryCode := (config.countryCode.getD "").toUpper
      currency := (config.currency.getD "").toUpper
      channel := nullIf (config.channel.map String.toUpper) "ALL"
      walletTypeCode := config.customerWalletTypeCode.getD 0
      sourceReference := config.sourceReference.getD ""
      activationBlockers := ["CONFIGURATION_NOT_VALIDATED"] }
  createdBy := actor
  createdAt := now
  modifiedBy := some actor
  updatedAt := now

theorem Configuration.draft_id (config : Configuration) (code : String) (version : ℕ)
    (actor : String) (now : ℤ) (id : ℕ) : (config.draft code version actor now id).id = id := rfl

/-- `v_version`. -/
def State.nextVersion (state : State) (code : String) : ℕ :=
  ((state.bindings.rows.filter fun row => row.code = code).map Binding.version).foldr max 0 + 1

/-- The INSERT of `create_credit_commercial_configuration`. -/
def State.inserted (state : State) (code actor : String) (config : Configuration) (now : ℤ) :
    State :=
  { state with
    bindings := state.bindings.append (config.draft code (state.nextVersion code) actor now)
      (config.draft_id code (state.nextVersion code) actor now) }

/-- `create_credit_commercial_configuration`.  A configuration without a column that may not be
NULL is turned away by the edit at its end. -/
def State.create (state : State) (code actor : String) (config : Configuration) (now : ℤ) :
    Option State :=
  if isBlank code ∨ isBlank actor then none
  else
    (state.inserted (btrim code).toUpper actor config now).apply state.bindings.next (some 1) actor
      config now

/-! ## Transitions -/

/-- Maker and checker are different administrators. -/
def Binding.isCheckedBy (binding : Binding) (actor : String) : Prop :=
  actor.toLower ≠ (binding.modifiedBy.getD binding.createdBy).toLower

instance (binding : Binding) (actor : String) : Decidable (binding.isCheckedBy actor) :=
  inferInstanceAs (Decidable (_ ≠ _))

def Environment.live : Environment → Status
  | test => .testActive
  | production => .active

/-- `v_target`, if the action is allowed. -/
def Binding.target (binding : Binding) (actor : String) (reason : Option String) :
    Action → Option Status
  | .submit =>
    if (binding.status = .draft ∨ binding.status = .rejected) ∧
        binding.terms.activationBlockers = [] then
      some .pendingApproval
    else none
  | .approve =>
    if binding.status = .pendingApproval ∧ binding.isCheckedBy actor then some .approved else none
  | .activate =>
    if binding.status = .approved ∧ binding.terms.activationBlockers = [] then
      some binding.terms.environmentScope.live
    else none
  | .reject =>
    if binding.status = .pendingApproval ∧ binding.isCheckedBy actor ∧
        ¬ isBlank (reason.getD "") then
      some .rejected
    else none
  | .retire =>
    if binding.status.isLive ∨ binding.status = .approved then some .retired else none

def Binding.replacedBy (binding : Binding) (target : Status) (now : ℤ) (other : Binding) :
    Binding :=
  if other.id ≠ binding.id ∧ other.terms.scope = binding.terms.scope ∧ other.status = target then
    { other with status := .retired, revision := other.revision + 1, updatedAt := now }
  else other

theorem Binding.replacedBy_id (binding : Binding) (target : Status) (now : ℤ) (other : Binding) :
    (binding.replacedBy target now other).id = other.id := by
  unfold Binding.replacedBy
  split <;> rfl

/-- A binding after the UPDATE of a transition. -/
def Binding.moved (action : Action) (target : Status) (actor : String) (reason : Option String)
    (now : ℤ) (row : Binding) : Binding :=
  { row with
    status := target
    revision := row.revision + 1
    updatedAt := now
    approvedBy := if action = .approve then some actor else row.approvedBy
    approvedAt := if action = .approve then some now else row.approvedAt
    activatedBy := if action = .activate then some actor else row.activatedBy
    activatedAt := if action = .activate then some now else row.activatedAt
    rejectedBy := if action = .reject then some actor else row.rejectedBy
    rejectedAt := if action = .reject then some now else row.rejectedAt
    rejectionReason := if action = .reject then reason.map btrim else row.rejectionReason }

theorem Binding.moved_id (action : Action) (target : Status) (actor : String)
    (reason : Option String) (now : ℤ) (row : Binding) :
    (row.moved action target actor reason now).id = row.id := rfl

def State.transitioned (state : State) (binding : Binding) (action : Action) (target : Status)
    (actor : String) (reason : Option String) (now : ℤ) : State :=
  let others :=
    if action = .activate then
      state.bindings.map (binding.replacedBy target now) (binding.replacedBy_id target now)
    else state.bindings
  { state with
    bindings := others.modify binding.id (Binding.moved action target actor reason now)
      (Binding.moved_id action target actor reason now) }

/-- `transition_credit_commercial_configuration`. -/
def State.transition (state : State) (bindingId : ℕ) (expectedRevision : Option ℤ)
    (action : Action) (actor : String) (reason : Option String) (now : ℤ) : Option State :=
  match state.bindings.find? bindingId with
  | none => none
  | some binding =>
    if ¬ isBlank actor ∧ binding.isAt expectedRevision then
      (binding.target actor reason action).bind fun target =>
        ((state.transitioned binding action target actor reason now).checked bindingId).bind
          fun after =>
            after.audit bindingId (some action) actor (state.view bindingId)
              ((reason.map btrim).filter fun text => text ≠ "")
    else none

/-! ## Calls -/

/-- A call of one of the procedures. -/
inductive Call
  | create (code actor : String) (config : Configuration) (now : ℤ)
  | apply (bindingId : ℕ) (expectedRevision : Option ℤ) (actor : String) (config : Configuration)
      (now : ℤ)
  | transition (bindingId : ℕ) (expectedRevision : Option ℤ) (action : Action) (actor : String)
      (reason : Option String) (now : ℤ)

def step (state : State) : Call → Option State
  | .create code actor config now => state.create code actor config now
  | .apply bindingId expectedRevision actor config now =>
    state.apply bindingId expectedRevision actor config now
  | .transition bindingId expectedRevision action actor reason now =>
    state.transition bindingId expectedRevision action actor reason now

def Call.bindingId (state : State) : Call → ℕ
  | create _ _ _ _ => state.bindings.next
  | apply bindingId _ _ _ _ | transition bindingId _ _ _ _ _ => bindingId

end Finify.Credit.Commercial
