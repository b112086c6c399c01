/-
# Governed configurations

The nodes of a journey refer to OTP policies, configuration versions and wallet bindings, each
of which is for a country, a channel and a type of customer.  `validateVersion` compares these
with the scopes of the graph when a version is published, and the runtime services compare them
with one customer.  Left out is what a row configures.
-/

import Finify.Foundations.Table
import Finify.Onboarding.Graph

namespace Finify.Onboarding

open Finify.Foundations

/-! ## Rows -/

/-- `status` of a governed row. -/
inductive GovernedStatus
  | draft
  | submitted
  | approved
  | active
  | rejected
  | retired
  deriving DecidableEq, Repr

/-- The customers that a row is for; without a channel it is for all of them. -/
structure Coverage where
  countryCode : String
  channelCode : Option String
  customerType : String
  deriving DecidableEq

/-- `otp_policies`; `is_active` agrees with the status. -/
structure OtpPolicy where
  id : String
  tenantId : ℕ
  status : GovernedStatus
  countryCode : String
  channelCode : String
  deriving DecidableEq

/-- `configuration_type` of a definition. -/
inductive ConfigurationType
  | consent
  | customerForm
  | kyc
  deriving DecidableEq, Repr

def ConfigurationType.text : ConfigurationType → String
  | consent => "CONSENT"
  | customerForm => "CUSTOMER_FORM"
  | kyc => "KYC"

/-- The type as a text for readers. -/
def ConfigurationType.label : ConfigurationType → String
  | consent => "CONSENT"
  | customerForm => "CUSTOMER FORM"
  | kyc => "KYC"

/-- `configuration_versions` with the tenant and the type of its definition. -/
structure ConfigurationVersion where
  id : String
  tenantId : ℕ
  type : ConfigurationType
  status : GovernedStatus
  coverage : Coverage
  effectiveFrom : Option ℤ := none
  effectiveTo : Option ℤ := none
  deriving DecidableEq

/-- `wallet_product_bindings`. -/
structure WalletProductBinding where
  id : String
  tenantId : ℕ
  status : GovernedStatus
  coverage : Coverage
  walletType : ℤ
  currency : String
  deriving DecidableEq

/-- `credit_score_providers` with its integration. -/
structure ScoreProvider where
  code : String
  providerActive : Bool
  integrationActive : Bool
  deriving DecidableEq

/-- `credit_master_rules`. -/
structure CreditPolicy where
  ruleCode : String
  version : ℤ
  isActive : Bool
  deriving DecidableEq

def CreditPolicy.key (policy : CreditPolicy) : String × ℤ := (policy.ruleCode, policy.version)

/-- The tables of what nodes refer to. -/
structure Catalogue where
  otpPolicies : Table OtpPolicy.id := .empty
  versions : Table ConfigurationVersion.id := .empty
  bindings : Table WalletProductBinding.id := .empty
  providers : Table ScoreProvider.code := .empty
  creditPolicies : Table CreditPolicy.key := .empty

/-! ## Channels -/

/-- `execution_mode` of a capability. -/
inductive ExecutionMode
  | direct
  | handoffOnly
  | serverOnly
  | unsupported
  deriving DecidableEq, Repr

/-- `channel_definitions`. -/
structure ChannelDefinition where
  id : ℕ
  tenantId : ℕ
  code : String
  isEnabled : Bool := true
  deriving DecidableEq

/-- `UQ_ONBOARDING_TENANT_CHANNEL`. -/
def ChannelDefinition.key (definition : ChannelDefinition) : ℕ × String :=
  (definition.tenantId, definition.code)

/-- `channel_versions` with its enabled countries and its capabilities. -/
structure ChannelVersion where
  id : ℕ
  definitionId : ℕ
  status : GovernedStatus
  countries : List String
  capabilities : List (NodeType × ExecutionMode)
  deriving DecidableEq

/-- The tables of the channels. -/
structure Channels where
  definitions : Table ChannelDefinition.key := .empty
  versions : Table ChannelVersion.id := .empty

def Channels.active? (channels : Channels) (tenantId : ℕ) (channelCode countryCode : String) :
    Option ChannelVersion :=
  ((channels.definitions.find? (tenantId, channelCode.toUpper)).filter
      ChannelDefinition.isEnabled).bind fun definition =>
    channels.versions.rows.find? fun version =>
      version.definitionId = definition.id ∧ version.status = .active ∧
        countryCode.toUpper ∈ version.countries

def ChannelVersion.nodeIssues (version : ChannelVersion) (scope : Scope) (node : Node) :
    List Issue :=
  let mode := version.capabilities.lookup node.type
  issueIf (mode.all fun mode => mode = .unsupported)
      { code := "CHANNEL_NODE_UNSUPPORTED",
        message := scope.channelCode ++ " does not support " ++ node.type.text,
        nodeKey := some node.key } ++
    issueIf (mode = some .handoffOnly ∧ node.type ≠ .channelHandoff)
      { code := "CHANNEL_HANDOFF_REQUIRED",
        message := scope.channelCode ++ " requires a channel handoff before " ++ node.type.text,
        nodeKey := some node.key }

def Channels.scopeIssues (channels : Channels) (tenantId : ℕ) (nodes : List Node)
    (scope : Scope) : List Issue :=
  match channels.active? tenantId scope.channelCode scope.countryCode with
  | none =>
    [{ code := "CHANNEL_NOT_ACTIVE",
       message := "Channel " ++ scope.channelCode ++ " is not active for " ++
         scope.countryCode }]
  | some version => nodes.flatMap (version.nodeIssues scope)

/-- `validateJourneyCompatibility`. -/
def validateJourneyCompatibility (channels : Channels) (tenantId : ℕ) (graph : Graph) :
    List Issue :=
  graph.scopes.flatMap (channels.scopeIssues tenantId graph.nodes)

/-! ## Publishing -/

def Scope.matches (scope : Scope) (coverage : Coverage) : Bool :=
  scope.countryCode = coverage.countryCode && scope.customerType = coverage.customerType &&
    coverage.channelCode.all fun channel => scope.channelCode = channel

/-- `scopeMatches`: a row is for some scope. -/
def scopeMatches (scopes : List Scope) (coverage : Coverage) : Bool :=
  scopes.any fun scope => scope.matches coverage

/-- The identifier in a field.  Any other value finds no row. -/
def Node.reference (node : Node) (field : String) : Option String :=
  match node.configuration.lookup field with
  | some (.text text) => if text = "" then none else some text
  | _ => none

/-- The whole number that a text in decimal digits stands for. -/
def wholeNumber? (text : String) : Option ℤ :=
  match text.toList with
  | [] => some 0
  | '-' :: digits => if digits ≠ [] ∧ digits.all Char.isDigit then
      some (-(digits.foldl (fun value digit => 10 * value + (digit.toNat - 48)) 0 : ℕ)) else none
  | digits => if digits.all Char.isDigit then
      some (digits.foldl (fun value digit => 10 * value + (digit.toNat - 48)) 0 : ℕ) else none

/-- `Number`, for whole numbers in decimal digits. -/
def Value.toNumber : Value → Option ℤ
  | null => some 0
  | boolean value => some (if value then 1 else 0)
  | text value => wholeNumber? value
  | number value => some value
  | other => none

def OtpPolicy.coverage (policy : OtpPolicy) : Coverage :=
  { countryCode := policy.countryCode, channelCode := some policy.channelCode,
    customerType := "INDIVIDUAL" }

/-- `governedTypes`. -/
def NodeType.governed : NodeType → Option (String × ConfigurationType)
  | consent => some ("consentVersionId", .consent)
  | form => some ("formVersionId", .customerForm)
  | kyc => some ("kycConfigurationVersionId", .kyc)
  | _ => none

section

variable (catalogue : Catalogue) (tenantId : ℕ)

def Catalogue.otpPolicy? (id : Option String) : Option OtpPolicy :=
  (id.bind catalogue.otpPolicies.find?).filter fun policy => policy.tenantId = tenantId

def Catalogue.version? (id : Option String) (type : ConfigurationType) :
    Option ConfigurationVersion :=
  (id.bind catalogue.versions.find?).filter fun version =>
    version.tenantId = tenantId ∧ version.type = type

def Catalogue.binding? (id : Option String) : Option WalletProductBinding :=
  (id.bind catalogue.bindings.find?).filter fun binding => binding.tenantId = tenantId

def Catalogue.otpIssues (scopes : List Scope) (node : Node) : List Issue :=
  issueIf (!(catalogue.otpPolicy? tenantId (node.reference "policyId")).any fun policy =>
      policy.status = .active ∧ scopeMatches scopes policy.coverage)
    { code := "OTP_POLICY_NOT_ACTIVE",
      message := "OTP policy must be active and match a journey scope", nodeKey := some node.key }

/-- The check of a consent, form or KYC node. -/
def Catalogue.governedIssues (scopes : List Scope) (node : Node) (field : String)
    (type : ConfigurationType) : List Issue :=
  issueIf (!(catalogue.version? tenantId (node.reference field) type).any fun version =>
      version.status = .active ∧ scopeMatches scopes version.coverage)
    { code := type.text ++ "_CONFIGURATION_NOT_ACTIVE",
      message := type.label ++ " configuration must be active and match a journey scope",
      nodeKey := some node.key }

def Catalogue.walletIssues (scopes : List Scope) (node : Node) : List Issue :=
  issueIf (!(catalogue.binding? tenantId (node.reference "walletProductBindingId")).any
      fun binding => binding.status = .active ∧ scopeMatches scopes binding.coverage ∧
        (node.configuration.lookup "walletType").bind Value.toNumber = some binding.walletType ∧
        node.configuration.lookup "currency" = some (.text binding.currency))
    { code := "WALLET_PRODUCT_BINDING_NOT_ACTIVE",
      message := "Wallet/product binding must be active, match the journey scope and agree with " ++
        "wallet and currency",
      nodeKey := some node.key }

def Catalogue.scoreIssues (node : Node) : List Issue :=
  issueIf (!((node.reference "providerCode").bind catalogue.providers.find?).any fun provider =>
      provider.providerActive && provider.integrationActive)
    { code := "SCORE_PROVIDER_NOT_ACTIVE",
      message := "Score provider and its integration must both be approved and active",
      nodeKey := some node.key }

/-- The version of the credit policy that a node names, 0 if it names none. -/
def Node.policyVersion (node : Node) : Option ℤ :=
  match node.configuration.lookup "policyVersion" with
  | none => some 0
  | some value => value.toNumber

def Catalogue.creditPolicyIssues (node : Node) : List Issue :=
  issueIf (!((node.reference "policyCode").bind fun code => node.policyVersion.bind fun version =>
      catalogue.creditPolicies.find? (code, version)).any CreditPolicy.isActive)
    { code := "CREDIT_POLICY_NOT_ACTIVE",
      message := "Credit policy version must be approved and active", nodeKey := some node.key }

def Catalogue.nodeIssues (scopes : List Scope) (node : Node) : List Issue :=
  match node.type, node.type.governed with
  | _, some (field, type) => catalogue.governedIssues tenantId scopes node field type
  | .otpVerification, _ => catalogue.otpIssues tenantId scopes node
  | .walletAllocation, _ => catalogue.walletIssues tenantId scopes node
  | .creditScore, _ => catalogue.scoreIssues node
  | .creditPolicy, _ => catalogue.creditPolicyIssues node
  | _, _ => []

/-- `validateConfigurationBindings`. -/
def validateConfigurationBindings (graph : Graph) : List Issue :=
  graph.nodes.flatMap (catalogue.nodeIssues tenantId graph.scopes)

/-- `validateVersion`. -/
def validateVersion (channels : Channels) (graph : Graph) : Bool × List Issue :=
  let issues := (validateGraph graph).2 ++ validateJourneyCompatibility channels tenantId graph ++
    validateConfigurationBindings catalogue tenantId graph
  (!issues.any fun issue => issue.severity = .error, issues)

end

/-! ## Run time -/

/-- What a runtime service reads of a customer and of the current node. -/
structure RuntimeContext where
  tenantId : ℕ
  countryCode : String
  customerType : String
  channelCode : String
  node : Node
  deriving DecidableEq

def Scope.context (scope : Scope) (tenantId : ℕ) (node : Node) : RuntimeContext :=
  { tenantId := tenantId
    countryCode := scope.countryCode
    customerType := scope.customerType
    channelCode := scope.channelCode
    node := node }

/-- The answers of a service that does not find the configuration. -/
inductive BindingError
  | otpPolicy
  | otherIdentifier (field : String)
  | configuration (type : ConfigurationType)
  | walletBinding
  deriving DecidableEq

/-- The text of an answer. -/
def BindingError.message : BindingError → String
  | otpPolicy => "The journey OTP policy is not active for this scope"
  | otherIdentifier field => "Request does not match journey " ++ field
  | configuration type => type.text ++ " configuration is not active for this journey scope"
  | walletBinding => "The journey wallet/product binding is not active for this scope"

/-- A value that counts as true; `other` is an object or a list. -/
def Value.truthy : Value → Bool
  | null => false
  | boolean value => value
  | text value => value ≠ ""
  | number value => value ≠ 0
  | other => true

/-- The field that names the OTP policy at run time. -/
def Node.policyField (node : Node) : String :=
  if (node.configuration.lookup "otpPolicyId").any Value.truthy then "otpPolicyId" else "policyId"

/-- The period of a version contains an instant. -/
def ConfigurationVersion.InForce (version : ConfigurationVersion) (now : ℤ) : Prop :=
  (∀ first ∈ version.effectiveFrom, first ≤ now) ∧ ∀ last ∈ version.effectiveTo, now < last

instance (version : ConfigurationVersion) (now : ℤ) : Decidable (version.InForce now) :=
  inferInstanceAs (Decidable (_ ∧ _))

section

variable (catalogue : Catalogue) (context : RuntimeContext)

/-- The customer of a context is one of those that a row is for. -/
def RuntimeContext.covered (coverage : Coverage) : Bool :=
  coverage.countryCode = context.countryCode && coverage.customerType = context.customerType &&
    coverage.channelCode.all fun channel => channel = context.channelCode

/-- The look-up of `createOtpChallenge`. -/
def Catalogue.otpPolicy : Except BindingError OtpPolicy :=
  let found := (catalogue.otpPolicy? context.tenantId
    (context.node.reference context.node.policyField)).filter fun policy =>
      policy.countryCode = context.countryCode ∧ policy.channelCode = context.channelCode ∧
        policy.status = .active
  match found with
  | none => .error .otpPolicy
  | some policy => .ok policy

/-- `configuration`. -/
def Catalogue.configuration (field : String) (suppliedId : Option String)
    (type : ConfigurationType) (now : ℤ) : Except BindingError ConfigurationVersion :=
  if context.node.reference field = none ∨ context.node.reference field ≠ suppliedId then
    .error (.otherIdentifier field)
  else
    let found := (catalogue.version? context.tenantId suppliedId type).filter fun version =>
      version.status = .active ∧ context.covered version.coverage ∧ version.InForce now
    match found with
    | none => .error (.configuration type)
    | some version => .ok version

/-- The look-up of `allocateWallet`. -/
def Catalogue.walletBinding : Except BindingError WalletProductBinding :=
  let found := (catalogue.binding? context.tenantId
    (context.node.reference "walletProductBindingId")).filter fun binding =>
      binding.status = .active ∧ context.covered binding.coverage
  match found with
  | none => .error .walletBinding
  | some binding => .ok binding

/-- The check that the service of the current node makes of the configuration, for a customer
who names the configured version. -/
def Catalogue.check (now : ℤ) : Except BindingError Unit :=
  match context.node.type, context.node.type.governed with
  | _, some (field, type) =>
    (catalogue.configuration context field (context.node.reference field) type now).map
      fun _ => ()
  | .otpVerification, _ => (catalogue.otpPolicy context).map fun _ => ()
  | .walletAllocation, _ => (catalogue.walletBinding context).map fun _ => ()
  | _, _ => .ok ()

end

/-! ## What publishing promises -/

/-- The rows that a version was published with stay as they are, and the policy that an OTP node
names for the run time alone is active, too. -/
structure StaysActive (catalogue later : Catalogue) (tenantId : ℕ) (node : Node) : Prop where
  policies : ∀ policy ∈ catalogue.otpPolicies.rows, policy.status = .active →
    policy ∈ later.otpPolicies.rows
  versions : ∀ version ∈ catalogue.versions.rows, version.status = .active →
    version ∈ later.versions.rows
  bindings : ∀ binding ∈ catalogue.bindings.rows, binding.status = .active →
    binding ∈ later.bindings.rows
  named : node.policyField = "otpPolicyId" →
    ∃ policy, later.otpPolicy? tenantId (node.reference "otpPolicyId") = some policy ∧
      policy.status = .active

/-- The row that a node refers to at run time is for the customers of a scope, and in force; for
an OTP policy the type of the customer does not matter. -/
def Catalogue.Serves (catalogue : Catalogue) (tenantId : ℕ) (scope : Scope) (node : Node)
    (now : ℤ) : Prop :=
  match node.type, node.type.governed with
  | _, some (field, type) =>
    ∀ version ∈ catalogue.version? tenantId (node.reference field) type,
      scope.matches version.coverage ∧ version.InForce now
  | .otpVerification, _ =>
    ∀ policy ∈ catalogue.otpPolicy? tenantId (node.reference node.policyField),
      scope.countryCode = policy.countryCode ∧ scope.channelCode = policy.channelCode
  | .walletAllocation, _ =>
    ∀ binding ∈ catalogue.binding? tenantId (node.reference "walletProductBindingId"),
      scope.matches binding.coverage
  | _, _ => True

section

variable {catalogue later : Catalogue} {tenantId : ℕ} {channels : Channels} {graph : Graph}

/-- No node of a published graph has an issue. -/
theorem nodeIssues_of_validateVersion
    (hvalid : (validateVersion catalogue tenantId channels graph).1 = true) {node : Node}
    (hnode : node ∈ graph.nodes) :
    ∀ issue ∈ catalogue.nodeIssues tenantId graph.scopes node, issue.severity ≠ .error := by
  unfold validateVersion at hvalid
  simp only [List.any_append, Bool.not_or, Bool.and_eq_true] at hvalid
  intro issue hissue herror
  have hnone := List.any_eq_false.mp (Bool.not_eq_true' _ ▸ hvalid.2) issue
    (List.mem_flatMap.mpr ⟨node, hnode, hissue⟩)
  exact hnone (decide_eq_true herror)

/-- A customer of a scope is one of those that a row is for if the row is for the scope. -/
theorem covered_context (scope : Scope) (node : Node) (coverage : Coverage) :
    (scope.context tenantId node).covered coverage = scope.matches coverage := by
  unfold RuntimeContext.covered Scope.matches Scope.context
  simp only [eq_comm]

/-- An active row that stays is found again. -/
theorem find?_later {ρ : Type} {key : ρ → String} {table after : Table key} {id : Option String}
    {row : ρ} (hfound : id.bind table.find? = some row) (hkept : row ∈ after.rows) :
    id.bind after.find? = some row := by
  obtain ⟨text, rfl, hrow⟩ := Option.bind_eq_some_iff.mp hfound
  rw [Option.bind_some, ← (Table.find?_eq_some.mp hrow).2]
  exact Table.find?_key hkept

/-- A check that raises no error has found the row that it looks for. -/
theorem found_of_issueIf {ρ : Type} {found : Option ρ} {condition : ρ → Bool} {issue : Issue}
    (hnone : ∀ other ∈ issueIf (!found.any condition) issue, other.severity ≠ .error)
    (herror : issue.severity = .error) : ∃ row, found = some row ∧ condition row := by
  have hany := Graph.eq_false_of_issueIf hnone (List.Subset.refl _) herror
  rw [Bool.not_eq_false', Option.any_eq_true] at hany
  exact hany

/-- A consent, form or KYC node of a published version passes for the customers that its version
is for, while this is in force. -/
theorem isOk_configuration {node : Node} {field : String} {type : ConfigurationType}
    (hnone : ∀ issue ∈ catalogue.governedIssues tenantId graph.scopes node field type,
      issue.severity ≠ .error)
    (hactive : StaysActive catalogue later tenantId node) (scope : Scope) (now : ℤ) :
    (later.configuration (scope.context tenantId node) field (node.reference field) type
      now).isOk ↔
        ∀ version ∈ later.version? tenantId (node.reference field) type,
          scope.matches version.coverage ∧ version.InForce now := by
  obtain ⟨version, hversion, hfits⟩ := found_of_issueIf hnone rfl
  have hstatus : version.status = .active := (of_decide_eq_true hfits).1
  obtain ⟨hfound, hsame⟩ := Option.filter_eq_some_iff.mp hversion
  obtain ⟨id, hid, hrow⟩ := Option.bind_eq_some_iff.mp hfound
  have hkept := hactive.versions version (Table.find?_eq_some.mp hrow).1 hstatus
  have hlater : later.version? tenantId (node.reference field) type = some version :=
    Option.filter_eq_some_iff.mpr ⟨find?_later hfound hkept, hsame⟩
  have hreference : ¬ (node.reference field = none ∨
      node.reference field ≠ node.reference field) := by
    rw [hid]
    simp
  have hcheck : later.configuration (scope.context tenantId node) field (node.reference field)
      type now = match (some version).filter fun version =>
        version.status = .active ∧ scope.matches version.coverage ∧ version.InForce now with
      | none => .error (.configuration type)
      | some version => .ok version := by
    unfold Catalogue.configuration
    rw [show (scope.context tenantId node).node = node from rfl, if_neg hreference,
      show (scope.context tenantId node).tenantId = tenantId from rfl, hlater]
    simp only [covered_context]
  rw [hcheck, hlater]
  by_cases hserves : scope.matches version.coverage ∧ version.InForce now
  · simp [Option.filter, hstatus, hserves, Except.isOk, Except.toBool]
  · simp [Option.filter, hstatus, hserves, Except.isOk, Except.toBool]

/-- A wallet node of a published version passes for the customers that its binding is for. -/
theorem isOk_walletBinding {node : Node}
    (hnone : ∀ issue ∈ catalogue.walletIssues tenantId graph.scopes node,
      issue.severity ≠ .error)
    (hactive : StaysActive catalogue later tenantId node) (scope : Scope) :
    (later.walletBinding (scope.context tenantId node)).isOk ↔
      ∀ binding ∈ later.binding? tenantId (node.reference "walletProductBindingId"),
        scope.matches binding.coverage := by
  obtain ⟨binding, hbinding, hfits⟩ := found_of_issueIf hnone rfl
  have hstatus : binding.status = .active := (of_decide_eq_true hfits).1
  obtain ⟨hfound, hsame⟩ := Option.filter_eq_some_iff.mp hbinding
  obtain ⟨id, _, hrow⟩ := Option.bind_eq_some_iff.mp hfound
  have hkept := hactive.bindings binding (Table.find?_eq_some.mp hrow).1 hstatus
  have hlater : later.binding? tenantId (node.reference "walletProductBindingId") =
      some binding :=
    Option.filter_eq_some_iff.mpr ⟨find?_later hfound hkept, hsame⟩
  have hcheck : later.walletBinding (scope.context tenantId node) =
      match (some binding).filter fun binding =>
        binding.status = .active ∧ scope.matches binding.coverage with
      | none => .error .walletBinding
      | some binding => .ok binding := by
    unfold Catalogue.walletBinding
    simp only [covered_context]
    rw [show (scope.context tenantId node).tenantId = tenantId from rfl,
      show (scope.context tenantId node).node = node from rfl, hlater]
  rw [hcheck, hlater]
  by_cases hserves : scope.matches binding.coverage
  · simp [Option.filter, hstatus, hserves, Except.isOk, Except.toBool]
  · simp [Option.filter, hstatus, hserves, Except.isOk, Except.toBool]

/-- The policy that an OTP node of a published version names at run time is active. -/
theorem active_policy {node : Node}
    (hnone : ∀ issue ∈ catalogue.otpIssues tenantId graph.scopes node, issue.severity ≠ .error)
    (hactive : StaysActive catalogue later tenantId node) :
    ∃ policy, later.otpPolicy? tenantId (node.reference node.policyField) = some policy ∧
      policy.status = .active := by
  by_cases hnamed : node.policyField = "otpPolicyId"
  · rw [hnamed]
    exact hactive.named hnamed
  · have hfield : node.policyField = "policyId" := by
      unfold Node.policyField at hnamed ⊢
      split
      case isTrue htruthy =>
        rw [if_pos htruthy] at hnamed
        exact absurd rfl hnamed
      case isFalse => rfl
    obtain ⟨policy, hpolicy, hfits⟩ := found_of_issueIf hnone rfl
    have hstatus : policy.status = .active := (of_decide_eq_true hfits).1
    obtain ⟨hfound, hsame⟩ := Option.filter_eq_some_iff.mp hpolicy
    obtain ⟨id, _, hrow⟩ := Option.bind_eq_some_iff.mp hfound
    have hkept := hactive.policies policy (Table.find?_eq_some.mp hrow).1 hstatus
    rw [hfield]
    exact ⟨policy, Option.filter_eq_some_iff.mpr ⟨find?_later hfound hkept, hsame⟩, hstatus⟩

/-- An OTP node of a published version passes in the country and on the channel of its policy. -/
theorem isOk_otpPolicy {node : Node}
    (hnone : ∀ issue ∈ catalogue.otpIssues tenantId graph.scopes node, issue.severity ≠ .error)
    (hactive : StaysActive catalogue later tenantId node) (scope : Scope) :
    (later.otpPolicy (scope.context tenantId node)).isOk ↔
      ∀ policy ∈ later.otpPolicy? tenantId (node.reference node.policyField),
        scope.countryCode = policy.countryCode ∧ scope.channelCode = policy.channelCode := by
  obtain ⟨policy, hlater, hstatus⟩ := active_policy hnone hactive
  have hcheck : later.otpPolicy (scope.context tenantId node) =
      match (some policy).filter fun policy =>
        policy.countryCode = scope.countryCode ∧ policy.channelCode = scope.channelCode ∧
          policy.status = .active with
      | none => .error .otpPolicy
      | some policy => .ok policy := by
    unfold Catalogue.otpPolicy
    rw [show (scope.context tenantId node).tenantId = tenantId from rfl,
      show (scope.context tenantId node).node = node from rfl, hlater]
    rfl
  rw [hcheck, hlater]
  by_cases hserves : scope.countryCode = policy.countryCode ∧
      scope.channelCode = policy.channelCode
  · simp [Option.filter, hstatus, hserves, Except.isOk, Except.toBool]
  · have hother : ¬ (policy.countryCode = scope.countryCode ∧
        policy.channelCode = scope.channelCode) := fun heq => hserves ⟨heq.1.symm, heq.2.symm⟩
    simp [Option.filter, hstatus, hserves, hother, Except.isOk, Except.toBool]

/-- The result of a check, without the row. -/
theorem isOk_map_unit {ε α : Type} (answer : Except ε α) :
    (answer.map fun _ => ()).isOk = answer.isOk := by
  cases answer <;> rfl

/-- A node of a published version passes the check at run time for the customers of a scope if
and only if the row that it refers to is for that scope, and in force. -/
theorem check_isOk_iff (hvalid : (validateVersion catalogue tenantId channels graph).1 = true)
    {node : Node} (hnode : node ∈ graph.nodes)
    (hactive : StaysActive catalogue later tenantId node) (scope : Scope) (now : ℤ) :
    (later.check (scope.context tenantId node) now).isOk ↔
      later.Serves tenantId scope node now := by
  have hnone := nodeIssues_of_validateVersion hvalid hnode
  unfold Catalogue.nodeIssues at hnone
  unfold Catalogue.check Catalogue.Serves
  rw [show (scope.context tenantId node).node = node from rfl]
  cases htype : node.type with
  | consent | form | kyc =>
    rw [htype] at hnone
    dsimp only [NodeType.governed] at hnone ⊢
    rw [isOk_map_unit]
    exact isOk_configuration hnone hactive scope now
  | otpVerification =>
    rw [htype] at hnone
    dsimp only [NodeType.governed] at hnone ⊢
    rw [isOk_map_unit]
    exact isOk_otpPolicy hnone hactive scope
  | walletAllocation =>
    rw [htype] at hnone
    dsimp only [NodeType.governed] at hnone ⊢
    rw [isOk_map_unit]
    exact isOk_walletBinding hnone hactive scope
  | start | finish | phoneCapture | pinSetup | creditScore | creditPolicy | limitAllocation |
      decision | channelHandoff | manualReview =>
      exact iff_of_true rfl trivial

end

/-! ## Two channels -/

def mobileScope : Scope :=
  { countryCode := "UGA", channelCode := "MOBILE_APP", customerType := "INDIVIDUAL",
    priority := 100 }

def consentNode : Node :=
  { key := "consent", type := .consent,
    configuration := [("consentVersionId", .text "mobile-consent")] }

def twoChannels : Graph where
  scopes := [mobileScope, { mobileScope with channelCode := "WEB" }]
  nodes := [{ key := "start", type := .start, entry := true }, consentNode,
    { key := "end", type := .finish }]
  transitions := [{ source := "start", target := "consent", outcome := "SUCCESS", priority := 1 },
    { source := "consent", target := "end", outcome := "SUCCESS", priority := 1 }]

/-- Two active channels, which support the nodes of the graph. -/
def mobileAndWeb : Channels where
  definitions := ⟨[{ id := 1, tenantId := 1, code := "MOBILE_APP" },
    { id := 2, tenantId := 1, code := "WEB" }], by decide⟩
  versions := ⟨[
    { id := 1, definitionId := 1, status := .active, countries := ["UGA"],
      capabilities := [(.start, .direct), (.consent, .direct), (.finish, .direct)] },
    { id := 2, definitionId := 2, status := .active, countries := ["UGA"],
      capabilities := [(.start, .direct), (.consent, .direct), (.finish, .direct)] }], by decide⟩

/-- An active consent version for the customers of the mobile application. -/
def mobileConsent : Catalogue where
  versions := ⟨[
    { id := "mobile-consent", tenantId := 1, type := .consent, status := .active,
      coverage := ⟨"UGA", some "MOBILE_APP", "INDIVIDUAL"⟩ }], by decide⟩

theorem twoChannels_valid :
    (validateVersion mobileConsent 1 mobileAndWeb twoChannels).1 = true := by
  decide +kernel

theorem mobileConsent_staysActive : StaysActive mobileConsent mobileConsent 1 consentNode := by
  constructor
  · exact fun _ hmem _ => hmem
  · exact fun _ hmem _ => hmem
  · exact fun _ hmem _ => hmem
  · intro hnamed
    exact absurd hnamed (by decide)

/-- A mobile customer passes. -/
theorem check_isOk_iff_mobile :
    (mobileConsent.check (mobileScope.context 1 consentNode) 0).isOk := by
  apply (check_isOk_iff twoChannels_valid (by decide) mobileConsent_staysActive mobileScope 0).mpr
  intro version hversion
  have hfound : mobileConsent.version? 1 (consentNode.reference "consentVersionId") .consent =
      some { id := "mobile-consent", tenantId := 1, type := .consent, status := .active,
             coverage := ⟨"UGA", some "MOBILE_APP", "INDIVIDUAL"⟩ } := by
    decide
  rw [hfound] at hversion
  cases hversion
  decide

/-- The graph is published, and a customer of its second scope is turned away. -/
theorem second_scope_turned_away :
    (validateVersion mobileConsent 1 mobileAndWeb twoChannels).1 = true ∧
      ∃ scope ∈ twoChannels.scopes, ∃ node ∈ twoChannels.nodes,
        StaysActive mobileConsent mobileConsent 1 node ∧
          mobileConsent.check (scope.context 1 node) 0 = .error (.configuration .consent) :=
  ⟨twoChannels_valid, { mobileScope with channelCode := "WEB" }, by decide, consentNode, by decide,
    mobileConsent_staysActive, by decide⟩

end Finify.Onboarding
