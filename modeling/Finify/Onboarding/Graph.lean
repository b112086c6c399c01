/-
# Journey graphs

The graph of an onboarding journey and `OnboardingService.validateGraph`, which decides what
may be published.  Left out are names and positions of nodes and conditions of transitions,
which nothing reads.
-/

import Finify.Foundations.Search
import Mathlib.Data.Int.Notation

namespace Finify.Onboarding

open Finify.Foundations

/-! ## The graph -/

/-- `JourneyNodeType`. -/
inductive NodeType
  | start
  | finish
  | phoneCapture
  | otpVerification
  | pinSetup
  | consent
  | form
  | kyc
  | walletAllocation
  | creditScore
  | creditPolicy
  | limitAllocation
  | decision
  | channelHandoff
  | manualReview
  deriving DecidableEq, Repr

namespace NodeType

def text : NodeType → String
  | start => "START"
  | finish => "END"
  | phoneCapture => "PHONE_CAPTURE"
  | otpVerification => "OTP_VERIFICATION"
  | pinSetup => "PIN_SETUP"
  | consent => "CONSENT"
  | form => "FORM"
  | kyc => "KYC"
  | walletAllocation => "WALLET_ALLOCATION"
  | creditScore => "CREDIT_SCORE"
  | creditPolicy => "CREDIT_POLICY"
  | limitAllocation => "LIMIT_ALLOCATION"
  | decision => "DECISION"
  | channelHandoff => "CHANNEL_HANDOFF"
  | manualReview => "MANUAL_REVIEW"

/-- `required`. -/
def required : NodeType → List String
  | kyc => ["kycConfigurationVersionId"]
  | walletAllocation => ["walletProductBindingId", "walletType", "currency"]
  | creditScore => ["providerCode"]
  | creditPolicy => ["policyCode"]
  | consent => ["consentVersionId"]
  | form => ["formVersionId"]
  | channelHandoff => ["targetChannel"]
  | _ => []

end NodeType

/-- A value of a node's configuration. -/
inductive Value
  | null
  | boolean (value : Bool)
  | text (value : String)
  | number (value : ℤ)
  | other
  deriving DecidableEq, Repr

/-- `JourneyNodeInput`. -/
structure Node where
  key : String
  type : NodeType
  configuration : List (String × Value) := []
  entry : Bool := false
  deriving DecidableEq

/-- `JourneyTransitionInput`. -/
structure Transition where
  source : String
  target : String
  outcome : String
  priority : ℕ
  deriving DecidableEq

/-- `JourneyScopeInput`, with its dates as instants. -/
structure Scope where
  countryCode : String
  channelCode : String
  customerType : String
  priority : ℕ
  effectiveFrom : Option ℤ := none
  effectiveTo : Option ℤ := none
  deriving DecidableEq

/-- `JourneyGraphInput`. -/
structure Graph where
  scopes : List Scope
  nodes : List Node
  transitions : List Transition
  deriving DecidableEq

/-! ## Validation -/

/-- `severity` of an issue. -/
inductive Severity
  | error
  | warning
  deriving DecidableEq, Repr

/-- `JourneyValidationIssue`. -/
structure Issue where
  severity : Severity := .error
  code : String
  message : String
  nodeKey : Option String := none
  deriving DecidableEq

def issueIf (condition : Bool) (issue : Issue) : List Issue :=
  if condition then [issue] else []

/-- `undefined`, `null` or the empty text. -/
def Node.lacks (node : Node) (field : String) : Bool :=
  match node.configuration.lookup field with
  | none | some .null | some (.text "") => true
  | _ => false

def Scope.key (scope : Scope) : String :=
  scope.countryCode ++ ":" ++ scope.channelCode ++ ":" ++ scope.customerType

namespace Graph

variable (graph : Graph)

/-- The loop over the nodes that looks for keys seen before. -/
def duplicateKeys : List String → List Node → List Issue
  | _, [] => []
  | seen, node :: nodes =>
    issueIf (node.key ∈ seen)
        { code := "DUPLICATE_NODE_KEY", message := "Node key " ++ node.key ++ " is duplicated",
          nodeKey := some node.key } ++
      duplicateKeys (node.key :: seen) nodes

def keys : List String := graph.nodes.map Node.key

def entries : List Node := graph.nodes.filter Node.entry

def entryTypeIssues (entry : Node) : List Issue :=
  issueIf (entry.type ≠ .start)
    { code := "ENTRY_NODE_TYPE", message := "The entry node must be START",
      nodeKey := some entry.key }

def entryIssues : List Issue :=
  issueIf (graph.entries.length ≠ 1)
      { code := "ENTRY_NODE_COUNT", message := "A journey must have exactly one entry node" } ++
    (graph.entries.take 1).flatMap entryTypeIssues ++
    issueIf (!graph.nodes.any fun node => node.type = .finish)
      { code := "END_NODE_REQUIRED", message := "A journey must have at least one END node" }

def transitionIssues (transition : Transition) : List Issue :=
  issueIf (transition.source ∉ graph.keys)
      { code := "UNKNOWN_EDGE_SOURCE", message := "Unknown source node " ++ transition.source } ++
    issueIf (transition.target ∉ graph.keys)
      { code := "UNKNOWN_EDGE_TARGET", message := "Unknown target node " ++ transition.target } ++
    issueIf (transition.source = transition.target)
      { code := "SELF_LOOP", message := "A node cannot transition to itself",
        nodeKey := some transition.source }

def endNodeIssues (node : Node) : List Issue :=
  issueIf (graph.transitions.any fun transition => transition.source = node.key)
    { code := "END_HAS_TRANSITION", message := "END nodes cannot have outgoing transitions",
      nodeKey := some node.key }

/-- The END nodes have no transitions. -/
def endIssues : List Issue :=
  (graph.nodes.filter fun node => node.type = .finish).flatMap graph.endNodeIssues

def fieldIssues (node : Node) (field : String) : List Issue :=
  issueIf (node.lacks field)
    { code := "MISSING_NODE_CONFIGURATION", message := node.type.text ++ " requires " ++ field,
      nodeKey := some node.key }

/-- `validateRequiredConfiguration`. -/
def configurationIssues : List Issue :=
  graph.nodes.flatMap fun node => node.type.required.flatMap (fieldIssues node)

/-- The transitions as pairs of keys. -/
def edges : List (String × String) :=
  graph.transitions.map fun transition => (transition.source, transition.target)

/-- The nodes that the search from the only entry does not find. -/
def reachabilityIssues : List Issue :=
  match graph.entries with
  | [entry] =>
    (graph.nodes.filter fun node => node.key ∉ Search.reachable graph.edges entry.key).map
      fun node =>
        { code := "UNREACHABLE_NODE", message := "Node cannot be reached from the entry node",
          nodeKey := some node.key }
  | _ => []

/-- The loop over the scopes. -/
def scopeIssues : List String → List Scope → List Issue
  | _, [] => []
  | seen, scope :: scopes =>
    issueIf (scope.key ∈ seen)
        { code := "DUPLICATE_SCOPE", message := "Scope " ++ scope.key ++ " is duplicated" } ++
      issueIf (scope.effectiveFrom.any fun first => scope.effectiveTo.any fun last => last ≤ first)
        { code := "INVALID_SCOPE_PERIOD",
          message := "Scope " ++ scope.key ++ " has an invalid effective period" } ++
      scopeIssues (scope.key :: seen) scopes

/-- `issues`. -/
def issues : List Issue :=
  duplicateKeys [] graph.nodes ++ graph.entryIssues ++
    graph.transitions.flatMap graph.transitionIssues ++ graph.endIssues ++
    graph.configurationIssues ++ graph.reachabilityIssues ++ scopeIssues [] graph.scopes ++
    issueIf graph.scopes.isEmpty
      { code := "SCOPE_REQUIRED", message := "At least one journey scope is required" }

end Graph

/-- `OnboardingService.validateGraph`. -/
def validateGraph (graph : Graph) : Bool × List Issue :=
  (!graph.issues.any fun issue => issue.severity = .error, graph.issues)

/-- A graph that can be published. -/
def Accepted (graph : Graph) : Prop := (validateGraph graph).1 = true

instance (graph : Graph) : Decidable (Accepted graph) :=
  inferInstanceAs (Decidable (_ = true))

/-! ## What acceptance says -/

namespace Graph

variable {graph : Graph}

/-- A node can be reached from another along the transitions. -/
def Reaches (graph : Graph) : String → String → Prop := Search.Reaches graph.edges

/-- What acceptance promises of the nodes and transitions. -/
structure Sound (graph : Graph) : Prop where
  nodup : graph.keys.Nodup
  entry : ∃ entry, graph.entries = [entry] ∧ entry.type = .start
  finish : ∃ node ∈ graph.nodes, node.type = .finish
  known : ∀ transition ∈ graph.transitions,
    transition.source ∈ graph.keys ∧ transition.target ∈ graph.keys ∧
      transition.source ≠ transition.target
  ends : ∀ node ∈ graph.nodes, node.type = .finish →
    ∀ transition ∈ graph.transitions, transition.source ≠ node.key
  configured : ∀ node ∈ graph.nodes, ∀ field ∈ node.type.required, node.lacks field = false
  reached : ∀ entry, graph.entries = [entry] → ∀ node ∈ graph.nodes,
    graph.Reaches entry.key node.key

/-- Without the error the condition does not hold. -/
theorem eq_false_of_issueIf {condition : Bool} {issue : Issue} {issues : List Issue}
    (hnone : ∀ other ∈ issues, other.severity ≠ .error) (hsub : issueIf condition issue ⊆ issues)
    (herror : issue.severity = .error) : condition = false := by
  by_contra hholds
  rw [Bool.not_eq_false] at hholds
  apply hnone issue _ herror
  apply hsub
  rw [issueIf, if_pos hholds]
  exact List.mem_singleton_self _

/-- Keys without a duplicate are not among those seen, and occur once. -/
theorem nodup_of_duplicateKeys {seen : List String} {nodes : List Node}
    (hnone : ∀ issue ∈ duplicateKeys seen nodes, issue.severity ≠ .error) :
    (nodes.map Node.key).Nodup ∧ ∀ node ∈ nodes, node.key ∉ seen := by
  induction nodes generalizing seen with
  | nil => exact ⟨List.nodup_nil, fun _ hmem => absurd hmem List.not_mem_nil⟩
  | cons node nodes ih =>
    have hfirst := eq_false_of_issueIf hnone (List.subset_append_left _ _) rfl
    obtain ⟨hnodup, hfresh⟩ := ih fun issue hissue => hnone issue (List.mem_append_right _ hissue)
    constructor
    · rw [List.map_cons, List.nodup_cons]
      refine ⟨fun hmem => ?_, hnodup⟩
      obtain ⟨other, hother, hkey⟩ := List.mem_map.mp hmem
      exact hfresh other hother (hkey ▸ List.mem_cons_self)
    · intro other hother
      rcases List.mem_cons.mp hother with rfl | hrest
      · exact of_decide_eq_false hfirst
      · exact fun hmem => hfresh other hrest (List.mem_cons_of_mem _ hmem)

end Graph

variable {graph : Graph}

theorem Accepted.not_error (haccepted : Accepted graph) :
    ∀ issue ∈ graph.issues, issue.severity ≠ .error := by
  intro issue hissue herror
  have hany : (graph.issues.any fun issue => issue.severity = .error) = true :=
    List.any_eq_true.mpr ⟨issue, hissue, decide_eq_true herror⟩
  rw [Accepted, validateGraph, hany] at haccepted
  cases haccepted

theorem Accepted.sound (haccepted : Accepted graph) : graph.Sound := by
  have hnone := haccepted.not_error
  simp only [Graph.issues, List.forall_mem_append] at hnone
  obtain ⟨⟨⟨⟨⟨⟨⟨hkeys, hentry⟩, htransitions⟩, hends⟩, hconfiguration⟩, hreachability⟩, _⟩, _⟩ :=
    hnone
  have hcount : graph.entries.length = 1 := by
    have hcondition := Graph.eq_false_of_issueIf hentry
      (List.Subset.trans (List.subset_append_left _ _) (List.subset_append_left _ _)) rfl
    exact not_not.mp (of_decide_eq_false hcondition)
  obtain ⟨entry, hentries⟩ := List.length_eq_one_iff.mp hcount
  constructor
  · exact (Graph.nodup_of_duplicateKeys hkeys).1
  · refine ⟨entry, hentries, ?_⟩
    have hsub : Graph.entryTypeIssues entry ⊆ graph.entryIssues := by
      intro issue hissue
      apply List.mem_append_left
      apply List.mem_append_right
      rw [hentries]
      exact List.mem_flatMap.mpr ⟨entry, List.mem_singleton_self _, hissue⟩
    exact not_not.mp (of_decide_eq_false (Graph.eq_false_of_issueIf hentry hsub rfl))
  · have hcondition := Graph.eq_false_of_issueIf hentry (List.subset_append_right _ _) rfl
    rw [Bool.not_eq_false', List.any_eq_true] at hcondition
    obtain ⟨node, hmem, htype⟩ := hcondition
    exact ⟨node, hmem, of_decide_eq_true htype⟩
  · intro transition hmem
    have hissues : ∀ issue ∈ graph.transitionIssues transition, issue.severity ≠ .error :=
      fun issue hissue => htransitions issue (List.mem_flatMap.mpr ⟨transition, hmem, hissue⟩)
    have hsource := Graph.eq_false_of_issueIf hissues
      (List.Subset.trans (List.subset_append_left _ _) (List.subset_append_left _ _)) rfl
    have htarget := Graph.eq_false_of_issueIf hissues
      (List.Subset.trans (List.subset_append_right _ _) (List.subset_append_left _ _)) rfl
    have hloop := Graph.eq_false_of_issueIf hissues (List.subset_append_right _ _) rfl
    exact ⟨not_not.mp (of_decide_eq_false hsource), not_not.mp (of_decide_eq_false htarget),
      of_decide_eq_false hloop⟩
  · intro node hmem htype transition htransition hsource
    have hsub : graph.endNodeIssues node ⊆ graph.endIssues := fun issue hissue =>
      List.mem_flatMap.mpr ⟨node, List.mem_filter.mpr ⟨hmem, decide_eq_true htype⟩, hissue⟩
    have hcondition := Graph.eq_false_of_issueIf hends hsub rfl
    exact (List.any_eq_false.mp hcondition transition htransition) (decide_eq_true hsource)
  · intro node hmem field hfield
    have hsub : Graph.fieldIssues node field ⊆ graph.configurationIssues := fun issue hissue =>
      List.mem_flatMap.mpr ⟨node, hmem, List.mem_flatMap.mpr ⟨field, hfield, hissue⟩⟩
    exact Graph.eq_false_of_issueIf hconfiguration hsub rfl
  · intro first hfirst node hmem
    rw [Graph.Reaches, ← Search.mem_reachable]
    by_contra hunreached
    rw [Graph.reachabilityIssues, hfirst] at hreachability
    exact hreachability _ (List.mem_map.mpr ⟨node, List.mem_filter.mpr
      ⟨hmem, decide_eq_true hunreached⟩, rfl⟩) rfl

/-! ## Finishing a journey -/

/-- An END node can be reached from a node. -/
def Graph.Finishes (graph : Graph) (node : Node) : Prop :=
  ∃ finish ∈ graph.nodes, finish.type = .finish ∧ graph.Reaches node.key finish.key

/-- No set of keys without an END node keeps a journey in. -/
def Graph.NoTrap (graph : Graph) : Prop :=
  ∀ keys : Set String, (∃ node ∈ graph.nodes, node.key ∈ keys) →
    (∀ node ∈ graph.nodes, node.type = .finish → node.key ∉ keys) →
      ∃ transition ∈ graph.transitions, transition.source ∈ keys ∧ transition.target ∉ keys

namespace Graph

theorem edge_iff {source target : String} :
    Search.Edge graph.edges source target ↔
      ∃ transition ∈ graph.transitions,
        transition.source = source ∧ transition.target = target := by
  simp [Search.Edge, edges]

/-- Every node can finish exactly when no set of nodes is a trap. -/
theorem finishes_iff_noTrap :
    (∀ node ∈ graph.nodes, graph.Finishes node) ↔ graph.NoTrap := by
  constructor
  · intro hfinishes keys hinside hends
    obtain ⟨node, hnode, hkey⟩ := hinside
    obtain ⟨finish, hfinish, htype, hreaches⟩ := hfinishes node hnode
    obtain ⟨source, target, hedge, hsource, htarget⟩ :=
      hreaches.leaves keys hkey (hends finish hfinish htype)
    obtain ⟨transition, hmem, rfl, rfl⟩ := edge_iff.mp hedge
    exact ⟨transition, hmem, hsource, htarget⟩
  · intro hnoTrap node hnode
    by_contra hstuck
    -- all that can be reached from a stuck node is a trap
    obtain ⟨transition, hmem, hsource, htarget⟩ := hnoTrap { key | graph.Reaches node.key key }
      ⟨node, hnode, .refl⟩ fun finish hfinish htype hreaches =>
        hstuck ⟨finish, hfinish, htype, hreaches⟩
    exact htarget (Relation.ReflTransGen.tail hsource (edge_iff.mpr ⟨transition, hmem, rfl, rfl⟩))

end Graph

/-- In an accepted graph every node can be reached from START and START can reach an END; every
node that START reaches can reach an END exactly when no set of nodes without an END is closed
under the transitions. -/
theorem accepted_graph_can_finish (graph : Graph) (haccepted : Accepted graph) :
    ∃ entry ∈ graph.nodes, entry.type = .start ∧ graph.entries = [entry] ∧
      (∀ node ∈ graph.nodes, graph.Reaches entry.key node.key) ∧ graph.Finishes entry ∧
      ((∀ node ∈ graph.nodes, graph.Reaches entry.key node.key → graph.Finishes node) ↔
        graph.NoTrap) := by
  have hsound := haccepted.sound
  obtain ⟨entry, hentries, htype⟩ := hsound.entry
  have hmem : entry ∈ graph.nodes := by
    apply List.mem_of_mem_filter
    rw [Graph.entries] at hentries
    rw [hentries]
    exact List.mem_singleton_self _
  have hreached := hsound.reached entry hentries
  obtain ⟨finish, hfinish, hfinishType⟩ := hsound.finish
  refine ⟨entry, hmem, htype, hentries, hreached,
    ⟨finish, hfinish, hfinishType, hreached finish hfinish⟩, ?_⟩
  rw [← Graph.finishes_iff_noTrap]
  exact forall₂_congr fun node hnode => by simp [hreached node hnode]

/-- A rejected KYC case leads to a PIN node that leads nowhere. -/
def deadEnd : Graph where
  scopes := [{ countryCode := "UGA", channelCode := "MOBILE_APP", customerType := "INDIVIDUAL",
               priority := 100 }]
  nodes := [{ key := "start", type := .start, entry := true },
    { key := "kyc", type := .kyc, configuration := [("kycConfigurationVersionId", .text "kyc-1")] },
    { key := "pin", type := .pinSetup }, { key := "end", type := .finish }]
  transitions := [{ source := "start", target := "kyc", outcome := "SUCCESS", priority := 1 },
    { source := "kyc", target := "end", outcome := "APPROVED", priority := 1 },
    { source := "kyc", target := "pin", outcome := "REJECTED", priority := 2 }]

/-- The graph with a dead end is accepted, so the theorem speaks of it. -/
theorem deadEnd_can_finish : Accepted deadEnd ∧
    ∃ entry ∈ deadEnd.nodes, entry.type = .start ∧ deadEnd.entries = [entry] ∧
      (∀ node ∈ deadEnd.nodes, deadEnd.Reaches entry.key node.key) ∧ deadEnd.Finishes entry ∧
      ((∀ node ∈ deadEnd.nodes, deadEnd.Reaches entry.key node.key → deadEnd.Finishes node) ↔
        deadEnd.NoTrap) :=
  ⟨by decide, accepted_graph_can_finish deadEnd (by decide)⟩

/-- From its PIN node no END can be reached. -/
theorem deadEnd_stuck : Accepted deadEnd ∧
    ∃ entry ∈ deadEnd.nodes, entry.type = .start ∧ ∃ node ∈ deadEnd.nodes,
      deadEnd.Reaches entry.key node.key ∧ ¬ deadEnd.Finishes node := by
  refine ⟨by decide, { key := "start", type := .start, entry := true }, by decide, rfl,
    { key := "pin", type := .pinSetup }, by decide, ?_, ?_⟩
  · exact Search.mem_reachable.mp (by decide)
  · intro hfinishes
    obtain ⟨finish, hmem, htype, hreaches⟩ := hfinishes
    have hnone : ∀ other ∈ deadEnd.nodes, other.type = .finish →
        other.key ∉ Search.reachable deadEnd.edges "pin" := by
      decide
    exact hnone finish hmem htype (Search.mem_reachable.mpr hreaches)

end Finify.Onboarding
