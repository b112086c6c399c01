/-
# Handoffs before a node

A channel can declare that it only hands over at nodes of a type.  `validateJourneyCompatibility`
asks for a handoff before such a node and does not look at the transitions, so a journey that
hands over on the way is turned down like one that does not.
-/

import Finify.Onboarding.Bindings

namespace Finify.Onboarding

open Finify.Foundations

def Graph.handoffKeys (graph : Graph) : List String :=
  (graph.nodes.filter fun node => node.type = .channelHandoff).map Node.key

/-- Some path from START to a node passes no handoff node. -/
def Graph.Unhanded (graph : Graph) (node : Node) : Prop :=
  ∃ entry ∈ graph.entries,
    Search.Reaches (graph.edges.filter fun edge => edge.2 ∉ graph.handoffKeys) entry.key node.key

/-- The issue of a node that must not run on the channel of a scope. -/
def Scope.handoffRequired (scope : Scope) (node : Node) : Issue :=
  { code := "CHANNEL_HANDOFF_REQUIRED",
    message := scope.channelCode ++ " requires a channel handoff before " ++ node.type.text,
    nodeKey := some node.key }

section

variable (channels : Channels) (tenantId : ℕ) (graph : Graph)

def HandsOver (scope : Scope) (node : Node) : Prop :=
  scope ∈ graph.scopes ∧ node ∈ graph.nodes ∧
    ∃ version, channels.active? tenantId scope.channelCode scope.countryCode = some version ∧
      version.capabilities.lookup node.type = some .handoffOnly

/-- A handoff is asked for before exactly the nodes that a path without one leads to, and before
none of them if there is no such path. -/
structure FollowsPaths : Prop where
  reported : ∀ scope node, HandsOver channels tenantId graph scope node →
    (scope.handoffRequired node ∈ validateJourneyCompatibility channels tenantId graph ↔
      graph.Unhanded node)
  accepted : (∀ scope node, HandsOver channels tenantId graph scope node →
      ¬ graph.Unhanded node) →
    ∀ issue ∈ validateJourneyCompatibility channels tenantId graph,
      issue.code ≠ "CHANNEL_HANDOFF_REQUIRED"

/-- A path without a handoff leads to every node that a channel only hands over at, apart from the
handoff nodes. -/
def NeverHandsBefore : Prop :=
  ∀ scope node, HandsOver channels tenantId graph scope node →
    node.type ≠ .channelHandoff → graph.Unhanded node

end

variable {channels : Channels} {tenantId : ℕ} {graph : Graph}

/-- An issue that asks for a handoff is of a node that is not one. -/
theorem handoff_issue {issue : Issue}
    (hissue : issue ∈ validateJourneyCompatibility channels tenantId graph)
    (hcode : issue.code = "CHANNEL_HANDOFF_REQUIRED") :
    ∃ scope node, HandsOver channels tenantId graph scope node ∧ node.type ≠ .channelHandoff ∧
      issue = scope.handoffRequired node := by
  obtain ⟨scope, hscope, hmem⟩ := List.mem_flatMap.mp hissue
  unfold Channels.scopeIssues at hmem
  cases hactive : channels.active? tenantId scope.channelCode scope.countryCode with
  | none =>
    rw [hactive, List.mem_singleton] at hmem
    rw [hmem] at hcode
    exact absurd hcode (by simp)
  | some version =>
    rw [hactive] at hmem
    obtain ⟨node, hnode, hmem⟩ := List.mem_flatMap.mp hmem
    unfold ChannelVersion.nodeIssues issueIf at hmem
    rcases List.mem_append.mp hmem with hunsupported | hrequired
    · split at hunsupported
      · rw [List.mem_singleton.mp hunsupported] at hcode
        exact absurd hcode (by simp)
      · cases hunsupported
    · split at hrequired
      case isTrue hcondition =>
        have hcondition := of_decide_eq_true hcondition
        exact ⟨scope, node, ⟨hscope, hnode, version, hactive, hcondition.1⟩, hcondition.2,
          List.mem_singleton.mp hrequired⟩
      case isFalse => cases hrequired

/-- The check asks for a handoff before every other node. -/
theorem handoffRequired_mem {scope : Scope} {node : Node}
    (hover : HandsOver channels tenantId graph scope node)
    (htype : node.type ≠ .channelHandoff) :
    scope.handoffRequired node ∈ validateJourneyCompatibility channels tenantId graph := by
  obtain ⟨hscope, hnode, version, hactive, hmode⟩ := hover
  apply List.mem_flatMap.mpr
  use scope, hscope
  rw [Channels.scopeIssues, hactive]
  apply List.mem_flatMap.mpr
  use node, hnode
  apply List.mem_append_right
  rw [issueIf, if_pos (decide_eq_true ⟨hmode, htype⟩)]
  exact List.mem_singleton_self _

/-- Nodes with one key are one node. -/
theorem Graph.Sound.eq_of_key (hsound : graph.Sound) {first second : Node}
    (hfirst : first ∈ graph.nodes) (hsecond : second ∈ graph.nodes)
    (hkey : first.key = second.key) : first = second :=
  List.inj_on_of_nodup_map hsound.nodup hfirst hsecond hkey

/-- Every path to a handoff node passes one, as START is none. -/
theorem Graph.Sound.not_unhanded (hsound : graph.Sound) {node : Node} (hnode : node ∈ graph.nodes)
    (htype : node.type = .channelHandoff) : ¬ graph.Unhanded node := by
  intro hunhanded
  obtain ⟨entry, hentry, hreaches⟩ := hunhanded
  rcases Relation.ReflTransGen.cases_tail hreaches with hkey | hlast
  · have hsame := hsound.eq_of_key hnode (List.mem_of_mem_filter hentry) hkey
    obtain ⟨start, hstart, hstartType⟩ := hsound.entry
    rw [hstart, List.mem_singleton] at hentry
    rw [hsame, hentry, hstartType] at htype
    cases htype
  · obtain ⟨source, _, hedge⟩ := hlast
    have htarget := of_decide_eq_true (List.mem_filter.mp hedge).2
    exact htarget (List.mem_map_of_mem (List.mem_filter.mpr ⟨hnode, decide_eq_true htype⟩))

/-- The check asks for a handoff before exactly the nodes that a path without one leads to, if and
only if no journey hands over before a node that needs it on every path. -/
theorem follows_paths_iff (channels : Channels) (tenantId : ℕ) (graph : Graph)
    (haccepted : Accepted graph) :
    FollowsPaths channels tenantId graph ↔ NeverHandsBefore channels tenantId graph := by
  have hsound := haccepted.sound
  constructor
  · intro hfollows scope node hover htype
    exact (hfollows.reported scope node hover).mp (handoffRequired_mem hover htype)
  · intro hnever
    constructor
    · intro scope node hover
      constructor
      · intro hissue
        obtain ⟨_, other, hother, htype, heq⟩ := handoff_issue hissue rfl
        have hkey : node.key = other.key := Option.some.inj (congrArg Issue.nodeKey heq)
        rw [← hsound.eq_of_key hover.2.1 hother.2.1 hkey] at htype
        exact hnever scope node hover htype
      · intro hunhanded
        apply handoffRequired_mem hover
        intro htype
        exact hsound.not_unhanded hover.2.1 htype hunhanded
    · intro hnone issue hissue hcode
      obtain ⟨scope, node, hover, htype, _⟩ := handoff_issue hissue hcode
      exact hnone scope node hover (hnever scope node hover htype)

/-! ## A journey by telephone -/

/-- The telephone channel, which hands over for forms. -/
def telephone : Channels where
  definitions := ⟨[{ id := 1, tenantId := 1, code := "USSD" }], by decide⟩
  versions := ⟨[
    { id := 1, definitionId := 1, status := .active, countries := ["UGA"],
      capabilities := [(.start, .direct), (.channelHandoff, .direct), (.form, .handoffOnly),
        (.finish, .direct)] }], by decide⟩

def telephoneForm : Node :=
  { key := "form", type := .form, configuration := [("formVersionId", .text "form-1")] }

/-- START, the form and END. -/
def directForm : Graph where
  scopes := [{ countryCode := "UGA", channelCode := "USSD", customerType := "INDIVIDUAL",
               priority := 100 }]
  nodes := [{ key := "start", type := .start, entry := true }, telephoneForm,
    { key := "end", type := .finish }]
  transitions := [{ source := "start", target := "form", outcome := "SUCCESS", priority := 1 },
    { source := "form", target := "end", outcome := "SUCCESS", priority := 1 }]

/-- START, a handoff to the web, the form and END. -/
def handedForm : Graph where
  scopes := directForm.scopes
  nodes := { key := "handoff", type := .channelHandoff,
             configuration := [("targetChannel", .text "WEB")] } :: directForm.nodes
  transitions := [{ source := "start", target := "handoff", outcome := "SUCCESS", priority := 1 },
    { source := "handoff", target := "form", outcome := "SUCCESS", priority := 1 },
    { source := "form", target := "end", outcome := "SUCCESS", priority := 1 }]

theorem handsOver_form {graph : Graph} (hscopes : graph.scopes = directForm.scopes)
    (hform : telephoneForm ∈ graph.nodes) :
    ∃ scope, HandsOver telephone 1 graph scope telephoneForm := by
  use { countryCode := "UGA", channelCode := "USSD", customerType := "INDIVIDUAL",
        priority := 100 }
  unfold HandsOver
  rw [hscopes]
  exact ⟨by decide, hform, telephone.versions.rows.head (by decide), by decide +kernel, by decide⟩

/-- Without a handoff on the way, one is asked for. -/
theorem follows_paths_direct : Accepted directForm ∧
    (∃ scope, HandsOver telephone 1 directForm scope telephoneForm) ∧
      (FollowsPaths telephone 1 directForm ↔ NeverHandsBefore telephone 1 directForm) :=
  ⟨by decide, handsOver_form rfl (by decide), follows_paths_iff telephone 1 directForm (by decide)⟩

/-- After a handoff, another one is asked for. -/
theorem handoff_asked_again : Accepted handedForm ∧ ¬ FollowsPaths telephone 1 handedForm := by
  use by decide
  intro hfollows
  obtain ⟨scope, hover⟩ := @handsOver_form handedForm rfl (by decide)
  have hunhanded := (hfollows.reported scope telephoneForm hover).mp
    (handoffRequired_mem hover (by decide))
  obtain ⟨entry, hentry, hreaches⟩ := hunhanded
  have hnone : ∀ entry ∈ handedForm.entries, telephoneForm.key ∉ Search.reachable
      (handedForm.edges.filter fun edge => edge.2 ∉ handedForm.handoffKeys) entry.key := by
    decide
  exact hnone entry hentry (Search.mem_reachable.mpr hreaches)

end Finify.Onboarding
