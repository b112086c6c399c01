/-
# Publishing

The life cycles of journey versions and of channel versions.  A journey version is activated by a
call that compares it with the channels, scope after scope, and then runs
`activate_journey_version`: its tests under the locks of the version and of its definition, then
its updates.  Every other transition is one step.  Versions that are created later are in the
tables from the start, as drafts.  Left out are revisions, makers and checkers, the reasons of a
rejection and the audit.
-/

import Finify.Onboarding.Bindings
import Finify.Foundations.Transition

namespace Finify.Onboarding.Publishing

open Finify.Foundations

/-! ## Rows -/

/-- The transitions that the services offer for a version. -/
inductive Action
  | submit
  | approve
  | activate
  | reject
  | retire
  deriving DecidableEq, Repr

/-- `from`. -/
def Action.sources : Action → List GovernedStatus
  | submit => [.draft, .rejected]
  | approve => [.submitted]
  | activate => [.approved]
  | reject => [.submitted]
  | retire => [.active, .approved]

/-- `to`. -/
def Action.target : Action → GovernedStatus
  | submit => .submitted
  | approve => .approved
  | activate => .active
  | reject => .rejected
  | retire => .retired

/-- `journey_definitions`. -/
structure JourneyDefinition where
  id : ℕ
  tenantId : ℕ
  deriving DecidableEq

/-- `journey_versions` with its scopes, nodes and transitions. -/
structure JourneyVersion where
  id : ℕ
  definitionId : ℕ
  status : GovernedStatus
  graph : Graph

/-- How far an activation is. -/
inductive Stage
  | validating
  | tested
  | over
  deriving DecidableEq, Repr

/-- A call that activates a journey version, with the graph that it has read and the scopes that
it has compared with the channels. -/
structure Activation where
  id : ℕ
  versionId : ℕ
  graph : Graph
  checked : List Scope := []
  remaining : List Scope
  stage : Stage := .validating

/-- The tables, and the activations. -/
structure State where
  channels : Channels := {}
  definitions : Table JourneyDefinition.id := .empty
  versions : Table JourneyVersion.id := .empty
  activations : Log Activation.id := .empty

/-! ## Channels -/

def replaced (version other : ChannelVersion) : ChannelVersion :=
  if other.definitionId = version.definitionId ∧ other.status = .active ∧ other.id ≠ version.id then
    { other with status := .retired }
  else other

theorem replaced_id (version other : ChannelVersion) : (replaced version other).id = other.id := by
  unfold replaced
  split <;> rfl

/-- `ChannelService.transition`. -/
def transition (channels : Channels) (versionId : ℕ) (action : Action) : Option Channels :=
  match channels.versions.find? versionId with
  | none => none
  | some version =>
    if version.status ∉ action.sources then none
    else
      let versions :=
        if action = .activate then channels.versions.map (replaced version) (replaced_id version)
        else channels.versions
      some { channels with
        versions := versions.modify versionId
          (fun version => { version with status := action.target }) fun _ => rfl }

/-- `replaceVersion`. -/
def replaceVersion (channels : Channels) (versionId : ℕ) (countries : List String)
    (capabilities : List (NodeType × ExecutionMode)) : Option Channels :=
  match channels.versions.find? versionId with
  | none => none
  | some version =>
    if version.status ≠ .draft ∧ version.status ≠ .rejected then none
    else
      some { channels with
        versions := channels.versions.modify versionId
          (fun version =>
            { version with status := .draft, countries := countries, capabilities := capabilities })
          fun _ => rfl }

/-! ## Journeys -/

/-- The graph as `replaceGraph` stores it. -/
def stored (graph : Graph) : Graph :=
  { graph with
    scopes := graph.scopes.map fun scope =>
      { scope with
        countryCode := scope.countryCode.toUpper
        channelCode := scope.channelCode.toUpper
        customerType := scope.customerType.toUpper }
    transitions := graph.transitions.map fun transition =>
      { transition with outcome := transition.outcome.toUpper } }

/-- Two graphs share a country, channel, type of customer and priority. -/
def competes (first second : Graph) : Bool :=
  first.scopes.any fun scope => second.scopes.any fun other =>
    scope.countryCode = other.countryCode ∧ scope.channelCode = other.channelCode ∧
      scope.customerType = other.customerType ∧ scope.priority = other.priority

/-- The version that `activate_journey_version` makes of a version of the definition. -/
def retiredBy (version other : JourneyVersion) : JourneyVersion :=
  if other.definitionId = version.definitionId ∧ other.status = .active then
    { other with status := .retired }
  else other

theorem retiredBy_id (version other : JourneyVersion) :
    (retiredBy version other).id = other.id := by
  unfold retiredBy
  split <;> rfl

namespace State

variable (state : State)

def tenant? (definitionId : ℕ) : Option ℕ :=
  (state.definitions.find? definitionId).map JourneyDefinition.tenantId

/-- An active journey has the same scope and priority. -/
def isContested (tenantId : ℕ) (version : JourneyVersion) : Bool :=
  state.versions.rows.any fun other =>
    other.status = .active ∧ state.tenant? other.definitionId = some tenantId ∧
      other.id ≠ version.id ∧ competes version.graph other.graph

/-- The tests of `activate_journey_version`. -/
def tests (versionId : ℕ) : Option JourneyVersion :=
  match state.versions.find? versionId with
  | none => none
  | some version =>
    if version.status ≠ .approved then none
    else
      match state.tenant? version.definitionId with
      | none => none
      | some tenantId =>
        if version.graph.entries.isEmpty ∨ version.graph.scopes.isEmpty ∨
            state.isContested tenantId version then none
        else some version

/-- The updates of `activate_journey_version`. -/
def put (version : JourneyVersion) : State :=
  { state with
    versions := (state.versions.map (retiredBy version) (retiredBy_id version)).modify version.id
      (fun version => { version with status := .active }) fun _ => rfl }

/-- `activate_journey_version`, with nothing in between. -/
def activateJourneyVersion (versionId : ℕ) : Option State :=
  (state.tests versionId).map state.put

/-- An activation has tested the version and not yet committed. -/
def isTested (versionId : ℕ) : Bool :=
  state.activations.rows.any fun activation =>
    activation.stage = .tested ∧ activation.versionId = versionId

def isLocked (definitionId : ℕ) : Bool :=
  state.versions.rows.any fun version =>
    version.definitionId = definitionId ∧ state.isTested version.id

/-- An activation at another stage. -/
def atStage (id : ℕ) (stage : Stage) : State :=
  { state with
    activations := state.activations.modify id
      (fun activation => { activation with stage := stage }) fun _ => rfl }

end State

/-! ## Runs -/

/-- The steps of the calls; the transition of a journey is one other than its activation. -/
inductive Event
  | validate (versionId : ℕ)
  | compare (activationId : ℕ)
  | test (activationId : ℕ) (catalogue : Catalogue)
  | commit (activationId : ℕ)
  | abandon (activationId : ℕ)
  | journey (versionId : ℕ) (action : Action) (catalogue : Catalogue)
  | replaceGraph (versionId : ℕ) (graph : Graph)
  | channel (versionId : ℕ) (action : Action)
  | replaceChannel (versionId : ℕ) (countries : List String)
      (capabilities : List (NodeType × ExecutionMode))

section

variable (state : State)

/-- The call reads the version. -/
def validate (versionId : ℕ) : Option State :=
  (state.versions.find? versionId).map fun version =>
    { state with
      activations := state.activations.append
        (fun id =>
          { id := id, versionId := versionId, graph := version.graph,
            remaining := version.graph.scopes })
        fun _ => rfl }

def State.tenantOf (activation : Activation) : Option ℕ :=
  (state.versions.find? activation.versionId).bind fun version => state.tenant? version.definitionId

/-- The call compares the next scope with the channels; with an issue it is refused. -/
def compare (activationId : ℕ) : Option State :=
  match (state.activations.find? activationId).filter fun activation =>
      activation.stage = .validating with
  | none => none
  | some activation =>
    match activation.remaining, state.tenantOf activation with
    | scope :: rest, some tenantId =>
      if state.channels.scopeIssues tenantId activation.graph.nodes scope = [] then
        some { state with
          activations := state.activations.modify activationId
            (fun activation =>
              { activation with checked := activation.checked ++ [scope], remaining := rest })
            fun _ => rfl }
      else some (state.atStage activationId .over)
    | _, _ => none

/-- The call compares the nodes with what they refer to, and runs the tests of
`activate_journey_version`.  It waits where the version or its definition is locked. -/
def test (activationId : ℕ) (catalogue : Catalogue) : Option State :=
  match (state.activations.find? activationId).filter fun activation =>
      activation.stage = .validating ∧ activation.remaining = [] with
  | none => none
  | some activation =>
    match state.versions.find? activation.versionId, state.tenantOf activation with
    | some version, some tenantId =>
      if state.isTested version.id ∨ state.isLocked version.definitionId then none
      else if Accepted activation.graph ∧
          (!(validateConfigurationBindings catalogue tenantId activation.graph).any fun issue =>
            issue.severity = .error) ∧ (state.tests version.id).isSome then
        some (state.atStage activationId .tested)
      else some (state.atStage activationId .over)
    | _, _ => none

/-- The call makes its updates and commits. -/
def commit (activationId : ℕ) : Option State :=
  match (state.activations.find? activationId).filter fun activation =>
      activation.stage = .tested with
  | none => none
  | some activation =>
    (state.versions.find? activation.versionId).map fun version =>
      (state.put version).atStage activationId .over

/-- `transitionVersion`, but for an activation. -/
def transitionVersion (versionId : ℕ) (action : Action) (catalogue : Catalogue) : Option State :=
  match state.versions.find? versionId with
  | none => none
  | some version =>
    match state.tenant? version.definitionId with
    | none => none
    | some tenantId =>
      if action = .activate ∨ state.isTested versionId ∨ version.status ∉ action.sources then none
      else if action = .submit ∧
          (validateVersion catalogue tenantId state.channels version.graph).1 = false then none
      else
        some { state with
          versions := state.versions.modify versionId
            (fun version => { version with status := action.target }) fun _ => rfl }

/-- `replaceGraph`. -/
def replaceGraph (versionId : ℕ) (graph : Graph) : Option State :=
  match state.versions.find? versionId with
  | none => none
  | some version =>
    if ¬ Accepted graph ∨ state.isTested versionId ∨
        version.status ≠ .draft ∧ version.status ≠ .rejected then none
    else
      some { state with
        versions := state.versions.modify versionId
          (fun version => { version with status := .draft, graph := stored graph }) fun _ => rfl }

end

def step (state : State) : Event → Option State
  | .validate versionId => validate state versionId
  | .compare activationId => compare state activationId
  | .test activationId catalogue => test state activationId catalogue
  | .commit activationId => commit state activationId
  | .abandon activationId =>
    (state.activations.find? activationId).map fun _ => state.atStage activationId .over
  | .journey versionId action catalogue => transitionVersion state versionId action catalogue
  | .replaceGraph versionId graph => replaceGraph state versionId graph
  | .channel versionId action =>
    (transition state.channels versionId action).map fun channels =>
      { state with channels := channels }
  | .replaceChannel versionId countries capabilities =>
    (replaceVersion state.channels versionId countries capabilities).map fun channels =>
      { state with channels := channels }

/-! ## What a step does to the versions -/

/-- Two versions of a tenant share a country, channel, type of customer and priority. -/
def Rivals (state : State) (first second : JourneyVersion) : Prop :=
  (state.tenant? first.definitionId).isSome ∧
    state.tenant? first.definitionId = state.tenant? second.definitionId ∧
    competes first.graph second.graph = true

instance (state : State) (first second : JourneyVersion) : Decidable (Rivals state first second) :=
  inferInstanceAs (Decidable (_ ∧ _ ∧ _))

def Continues (before : State) (activation : Activation) : Prop :=
  ∃ old ∈ before.activations.rows, old.stage = .tested ∧ old.id = activation.id ∧
    old.versionId = activation.versionId

/-- What a step does to the versions and to those that are tested: nothing, the tests or the
commit of an activation, or another transition or edit of a version that no activation holds. -/
inductive Change (before : State) (event : Event) (after : State) : Prop
  | kept (hversions : after.versions = before.versions)
      (htested : ∀ activation ∈ after.activations.rows, activation.stage = .tested →
        Continues before activation)
  | tested {version : JourneyVersion} {activation : Activation} {catalogue : Catalogue}
      (hevent : event = .test activation.id catalogue)
      (hactivation : before.activations.find? activation.id = some activation)
      (hversion : activation.versionId = version.id)
      (hversions : after.versions = before.versions)
      (hpasses : before.tests version.id = some version)
      (hfree : before.isTested version.id = false)
      (hunlocked : before.isLocked version.definitionId = false)
      (htested : ∀ other ∈ after.activations.rows, other.stage = .tested →
        Continues before other ∨ other.id = activation.id ∧ other.versionId = version.id)
  | committed {version : JourneyVersion} (hmem : version ∈ before.versions.rows)
      (hbefore : before.isTested version.id = true)
      (hversions : after.versions = (before.put version).versions)
      (htested : ∀ activation ∈ after.activations.rows, activation.stage = .tested →
        Continues before activation ∧ activation.versionId ≠ version.id)
  | moved {version : JourneyVersion} (change : JourneyVersion → JourneyVersion)
      (hid : ∀ row, (change row).id = row.id) (hmem : version ∈ before.versions.rows)
      (hfree : before.isTested version.id = false)
      (hversions : after.versions = before.versions.modify version.id change hid)
      (hdefinition : ∀ row, (change row).definitionId = row.definitionId)
      (hstatus : ∀ row, (change row).status ≠ .active)
      (htested : ∀ activation ∈ after.activations.rows, activation.stage = .tested →
        Continues before activation)

section

variable {state after : State} {event : Event}

theorem isTested_iff {versionId : ℕ} :
    state.isTested versionId = true ↔ ∃ activation ∈ state.activations.rows,
      activation.stage = .tested ∧ activation.versionId = versionId := by
  unfold State.isTested
  rw [List.any_eq_true]
  constructor
  · rintro ⟨activation, hmem, hfacts⟩
    exact ⟨activation, hmem, of_decide_eq_true hfacts⟩
  · rintro ⟨activation, hmem, hfacts⟩
    exact ⟨activation, hmem, decide_eq_true hfacts⟩

/-- A version is tested by one activation only. -/
def Once (state : State) : Prop :=
  ∀ first ∈ state.activations.rows, ∀ second ∈ state.activations.rows, first.stage = .tested →
    second.stage = .tested → first.versionId = second.versionId → first = second

theorem mem_atStage {id : ℕ} {stage : Stage} {activation : Activation} :
    activation ∈ (state.atStage id stage).activations.rows ↔ ∃ old ∈ state.activations.rows,
      activation = if old.id = id then { old with stage := stage } else old := by
  unfold State.atStage
  rw [Log.mem_modify]

theorem Continues.refl {activation : Activation} (hmem : activation ∈ state.activations.rows)
    (hstage : activation.stage = .tested) : Continues state activation :=
  ⟨activation, hmem, hstage, rfl, rfl⟩

/-- Where an activation changes its stage, the others go on. -/
theorem continues_of_atStage {id : ℕ} {stage : Stage} {activation : Activation}
    (hmem : activation ∈ (state.atStage id stage).activations.rows)
    (hstage : activation.stage = .tested) :
    Continues state activation ∨ stage = .tested ∧ ∃ old ∈ state.activations.rows,
      old.id = id ∧ activation.id = id ∧ activation.versionId = old.versionId := by
  obtain ⟨old, hold, rfl⟩ := mem_atStage.mp hmem
  split at hstage
  case isTrue hid =>
    rw [if_pos hid]
    exact .inr ⟨hstage, old, hold, hid, hid, rfl⟩
  case isFalse hid =>
    rw [if_neg hid]
    exact .inl (.refl hold hstage)

theorem continues_of_over {id : ℕ} {activation : Activation}
    (hmem : activation ∈ (state.atStage id .over).activations.rows)
    (hstage : activation.stage = .tested) : Continues state activation := by
  rcases continues_of_atStage hmem hstage with hbefore | ⟨hover, _⟩
  · exact hbefore
  · cases hover

/-- The version of an activation that stops is no longer tested. -/
theorem ne_of_over (honce : Once state) {activation other : Activation}
    (hmem : activation ∈ state.activations.rows) (hstage : activation.stage = .tested)
    (hother : other ∈ (state.atStage activation.id .over).activations.rows)
    (hlater : other.stage = .tested) : other.versionId ≠ activation.versionId := by
  intro hversion
  obtain ⟨old, hold, rfl⟩ := mem_atStage.mp hother
  split at hlater
  case isTrue => cases hlater
  case isFalse hid =>
    rw [if_neg hid] at hversion
    exact hid (congrArg Activation.id (honce old hold activation hmem hlater hstage hversion))

theorem tests_eq_some {versionId : ℕ} {version : JourneyVersion}
    (htests : state.tests versionId = some version) :
    state.versions.find? versionId = some version ∧ version.status = .approved ∧
      ∃ tenantId, state.tenant? version.definitionId = some tenantId ∧
        version.graph.entries.isEmpty = false ∧ version.graph.scopes.isEmpty = false ∧
        state.isContested tenantId version = false := by
  unfold State.tests at htests
  split at htests
  · cases htests
  case h_2 found hfound =>
    split at htests
    · cases htests
    case isFalse hstatus =>
      split at htests
      · cases htests
      case h_2 tenantId htenant =>
        split at htests
        · cases htests
        case isFalse hpasses =>
          cases htests
          push Not at hpasses
          exact ⟨hfound, not_not.mp hstatus, tenantId, htenant, Bool.eq_false_iff.mpr hpasses.1,
            Bool.eq_false_iff.mpr hpasses.2.1, Bool.eq_false_iff.mpr hpasses.2.2⟩

/-! ## What each step does -/

theorem compare_eq_some {activationId : ℕ} (hcompare : compare state activationId = some after) :
    ∃ activation scope rest tenantId, state.activations.find? activationId = some activation ∧
      activation.stage = .validating ∧ activation.remaining = scope :: rest ∧
      state.tenantOf activation = some tenantId ∧
      (after = state.atStage activationId .over ∨
        state.channels.scopeIssues tenantId activation.graph.nodes scope = [] ∧
          after = { state with
            activations := state.activations.modify activationId
              (fun activation =>
                { activation with checked := activation.checked ++ [scope], remaining := rest })
              fun _ => rfl }) := by
  unfold compare at hcompare
  split at hcompare
  · cases hcompare
  case h_2 activation hfilter =>
    obtain ⟨hfound, hstage⟩ := Option.filter_eq_some_iff.mp hfilter
    split at hcompare
    case h_1 scope rest tenantId hremaining htenant =>
      refine ⟨activation, scope, rest, tenantId, hfound, of_decide_eq_true hstage, hremaining,
        htenant, ?_⟩
      split at hcompare
      case isTrue hnone =>
        cases hcompare
        exact .inr ⟨hnone, rfl⟩
      case isFalse =>
        cases hcompare
        exact .inl rfl
    case h_2 => cases hcompare

theorem test_eq_some {activationId : ℕ} {catalogue : Catalogue}
    (htest : test state activationId catalogue = some after) :
    ∃ activation version, state.activations.find? activationId = some activation ∧
      activation.stage = .validating ∧ activation.remaining = [] ∧
      state.versions.find? activation.versionId = some version ∧
      state.isTested version.id = false ∧ state.isLocked version.definitionId = false ∧
      (after = state.atStage activationId .over ∨
        state.tests version.id = some version ∧ after = state.atStage activationId .tested) := by
  unfold test at htest
  split at htest
  · cases htest
  case h_2 activation hfilter =>
    obtain ⟨hfound, hstage⟩ := Option.filter_eq_some_iff.mp hfilter
    obtain ⟨hvalidating, hremaining⟩ := of_decide_eq_true hstage
    split at htest
    case h_1 version tenantId hversion htenant =>
      split at htest
      · cases htest
      case isFalse hfree =>
        push Not at hfree
        refine ⟨activation, version, hfound, hvalidating, hremaining, hversion,
          Bool.eq_false_iff.mpr hfree.1, Bool.eq_false_iff.mpr hfree.2, ?_⟩
        split at htest
        case isTrue hpasses =>
          cases htest
          obtain ⟨tested, htested⟩ := Option.isSome_iff_exists.mp hpasses.2.2
          have hsame := (tests_eq_some htested).1
          rw [Table.find?_key (Table.find?_eq_some.mp hversion).1] at hsame
          cases hsame
          exact .inr ⟨htested, rfl⟩
        case isFalse =>
          cases htest
          exact .inl rfl
    case h_2 => cases htest

theorem commit_eq_some {activationId : ℕ} (hcommit : commit state activationId = some after) :
    ∃ activation version, state.activations.find? activationId = some activation ∧
      activation.stage = .tested ∧ state.versions.find? activation.versionId = some version ∧
      after = (state.put version).atStage activationId .over := by
  unfold commit at hcommit
  split at hcommit
  · cases hcommit
  case h_2 activation hfilter =>
    obtain ⟨hfound, hstage⟩ := Option.filter_eq_some_iff.mp hfilter
    obtain ⟨version, hversion, rfl⟩ := Option.map_eq_some_iff.mp hcommit
    exact ⟨activation, version, hfound, of_decide_eq_true hstage, hversion, rfl⟩

theorem transitionVersion_eq_some {versionId : ℕ} {action : Action} {catalogue : Catalogue}
    (htransition : transitionVersion state versionId action catalogue = some after) :
    ∃ version, state.versions.find? versionId = some version ∧ action ≠ .activate ∧
      state.isTested versionId = false ∧ version.status ∈ action.sources ∧
      after = { state with
        versions := state.versions.modify versionId
          (fun version => { version with status := action.target }) fun _ => rfl } := by
  unfold transitionVersion at htransition
  split at htransition
  · cases htransition
  case h_2 version hversion =>
    split at htransition
    · cases htransition
    · split at htransition
      · cases htransition
      case isFalse hadmits =>
        push Not at hadmits
        split at htransition
        · cases htransition
        · cases htransition
          exact ⟨version, hversion, hadmits.1, Bool.eq_false_iff.mpr hadmits.2.1, hadmits.2.2, rfl⟩

theorem replaceGraph_eq_some {versionId : ℕ} {graph : Graph}
    (hreplace : replaceGraph state versionId graph = some after) :
    ∃ version, state.versions.find? versionId = some version ∧
      state.isTested versionId = false ∧ (version.status = .draft ∨ version.status = .rejected) ∧
      after = { state with
        versions := state.versions.modify versionId
          (fun version => { version with status := .draft, graph := stored graph })
          fun _ => rfl } := by
  unfold replaceGraph at hreplace
  split at hreplace
  · cases hreplace
  case h_2 version hversion =>
    split at hreplace
    · cases hreplace
    case isFalse hadmits =>
      push Not at hadmits
      cases hreplace
      refine ⟨version, hversion, Bool.eq_false_iff.mpr hadmits.2.1, ?_, rfl⟩
      by_cases hdraft : version.status = .draft
      · exact .inl hdraft
      · exact .inr (hadmits.2.2 hdraft)

/-- What every step does to the definitions and versions. -/
theorem change_step (honce : Once state) (hstep : step state event = some after) :
    after.definitions = state.definitions ∧ Change state event after := by
  cases event with
  | validate versionId =>
    obtain ⟨version, _, rfl⟩ := Option.map_eq_some_iff.mp hstep
    refine ⟨rfl, .kept rfl fun activation hmem hstage => ?_⟩
    rcases List.mem_append.mp hmem with hold | hnew
    · exact .refl hold hstage
    · rw [List.mem_singleton.mp hnew] at hstage
      cases hstage
  | compare activationId =>
    obtain ⟨activation, scope, rest, _, _, _, _, _, rfl | ⟨_, rfl⟩⟩ := compare_eq_some hstep
    · exact ⟨rfl, .kept rfl fun _ => continues_of_over⟩
    · refine ⟨rfl, .kept rfl fun activation hmem hstage => ?_⟩
      obtain ⟨old, hold, rfl⟩ := List.mem_map.mp hmem
      split at hstage
      case isTrue hid =>
        rw [if_pos hid]
        exact ⟨old, hold, hstage, rfl, rfl⟩
      case isFalse hid =>
        rw [if_neg hid]
        exact .refl hold hstage
  | test activationId catalogue =>
    obtain ⟨activation, version, hactivation, _, _, hversion, hfree, hunlocked, htests⟩ :=
      test_eq_some hstep
    obtain ⟨hmem, rfl⟩ := Log.find?_eq_some.mp hactivation
    have hversionId : version.id = activation.versionId := (Table.find?_eq_some.mp hversion).2
    rcases htests with rfl | ⟨hpasses, rfl⟩
    · exact ⟨rfl, .kept rfl fun _ => continues_of_over⟩
    · refine ⟨rfl, .tested rfl hactivation hversionId.symm rfl hpasses hfree hunlocked ?_⟩
      intro other hother hstage
      rcases continues_of_atStage hother hstage with hbefore | ⟨_, old, hold, hid, hsame, hof⟩
      · exact .inl hbefore
      · rw [state.activations.eq_of_serial_eq hold hmem hid] at hof
        exact .inr ⟨hsame, hof.trans hversionId.symm⟩
  | commit activationId =>
    obtain ⟨activation, version, hactivation, hstage, hversion, rfl⟩ := commit_eq_some hstep
    obtain ⟨hmem, rfl⟩ := Log.find?_eq_some.mp hactivation
    obtain ⟨hrow, hid⟩ := Table.find?_eq_some.mp hversion
    refine ⟨rfl, .committed hrow ?_ rfl ?_⟩
    · exact isTested_iff.mpr ⟨activation, hmem, hstage, hid.symm⟩
    · intro other hother hlater
      have hover : other ∈ (state.atStage activation.id .over).activations.rows := hother
      exact ⟨continues_of_over hover hlater, hid ▸ ne_of_over honce hmem hstage hover hlater⟩
  | abandon activationId =>
    obtain ⟨activation, _, rfl⟩ := Option.map_eq_some_iff.mp hstep
    exact ⟨rfl, .kept rfl fun _ => continues_of_over⟩
  | journey versionId action catalogue =>
    obtain ⟨version, hversion, hother, hfree, _, rfl⟩ := transitionVersion_eq_some hstep
    obtain ⟨hrow, rfl⟩ := Table.find?_eq_some.mp hversion
    refine ⟨rfl, .moved (fun version => { version with status := action.target }) (fun _ => rfl)
      hrow hfree rfl (fun _ => rfl) (fun _ => ?_) fun _ => .refl⟩
    cases action with
    | activate => exact absurd rfl hother
    | submit | approve | reject | retire => exact nofun
  | replaceGraph versionId graph =>
    obtain ⟨version, hversion, hfree, _, rfl⟩ := replaceGraph_eq_some hstep
    obtain ⟨hrow, rfl⟩ := Table.find?_eq_some.mp hversion
    exact ⟨rfl, .moved (fun version => { version with status := .draft, graph := stored graph })
      (fun _ => rfl) hrow hfree rfl (fun _ => rfl) (fun _ => nofun) fun _ => .refl⟩
  | channel versionId action | replaceChannel versionId countries capabilities =>
    obtain ⟨channels, _, rfl⟩ := Option.map_eq_some_iff.mp hstep
    exact ⟨rfl, .kept rfl fun _ => .refl⟩

/-! ## One active version of a definition -/

/-- At most one version of each definition is active. -/
def OnePerDefinition (state : State) : Prop :=
  ∀ first ∈ state.versions.rows, ∀ second ∈ state.versions.rows, first.status = .active →
    second.status = .active → first.definitionId = second.definitionId → first = second

/-- Activations hold approved versions, of different definitions, and at most one version of each
definition is active. -/
structure Governed (state : State) : Prop where
  once : Once state
  approved : ∀ version ∈ state.versions.rows, state.isTested version.id = true →
    version.status = .approved
  apart : ∀ first ∈ state.versions.rows, ∀ second ∈ state.versions.rows,
    state.isTested first.id = true → state.isTested second.id = true →
    first.definitionId = second.definitionId → first = second
  single : OnePerDefinition state

theorem Continues.isTested {activation : Activation} (hcontinues : Continues state activation) :
    state.isTested activation.versionId = true := by
  obtain ⟨old, hold, hstage, _, hversion⟩ := hcontinues
  exact isTested_iff.mpr ⟨old, hold, hstage, hversion⟩

theorem isTested_of_continues (htested : ∀ activation ∈ after.activations.rows,
    activation.stage = .tested → Continues state activation) {id : ℕ}
    (hafter : after.isTested id = true) : state.isTested id = true := by
  obtain ⟨activation, hmem, hstage, rfl⟩ := isTested_iff.mp hafter
  exact (htested activation hmem hstage).isTested

/-- Activations that go on are the same if their versions are. -/
theorem Once.eq_of_continues (honce : Once state) {first second : Activation}
    (hfirst : first ∈ after.activations.rows) (hsecond : second ∈ after.activations.rows)
    (hone : Continues state first) (htwo : Continues state second)
    (hsame : first.versionId = second.versionId) : first = second := by
  obtain ⟨old, hold, hstage, hid, hversion⟩ := hone
  obtain ⟨other, hother, hlater, hotherId, hotherVersion⟩ := htwo
  have heq := honce old hold other hother hstage hlater
    (hversion.trans (hsame.trans hotherVersion.symm))
  exact after.activations.eq_of_serial_eq hfirst hsecond
    (hid.symm.trans ((congrArg Activation.id heq).trans hotherId))

theorem Once.of_continues (honce : Once state) (htested : ∀ activation ∈ after.activations.rows,
    activation.stage = .tested → Continues state activation) : Once after := by
  intro first hfirst second hsecond hone htwo hsame
  exact honce.eq_of_continues hfirst hsecond (htested first hfirst hone)
    (htested second hsecond htwo) hsame

/-- A row of the versions after a commit: the version, now active, or another one. -/
theorem mem_put {version row : JourneyVersion} (hmem : version ∈ state.versions.rows)
    (hrow : row ∈ (state.put version).versions.rows) :
    row = { version with status := .active } ∨ ∃ old ∈ state.versions.rows,
      old.id ≠ version.id ∧ row = retiredBy version old := by
  obtain ⟨middle, hmiddle, rfl⟩ := List.mem_map.mp hrow
  obtain ⟨old, hold, rfl⟩ := List.mem_map.mp hmiddle
  split
  case isTrue hid =>
    rw [retiredBy_id] at hid
    rw [state.versions.eq_of_key_eq hold hmem hid]
    left
    unfold retiredBy
    split <;> rfl
  case isFalse hid => exact .inr ⟨old, hold, retiredBy_id version old ▸ hid, rfl⟩

/-- An active row after a commit: the version, or one of another definition that was active. -/
theorem active_put {version row : JourneyVersion} (hmem : version ∈ state.versions.rows)
    (hrow : row ∈ (state.put version).versions.rows) (hactive : row.status = .active) :
    row = { version with status := .active } ∨ row ∈ state.versions.rows ∧
      row.definitionId ≠ version.definitionId := by
  rcases mem_put hmem hrow with heq | ⟨old, hold, _, rfl⟩
  · exact .inl heq
  · right
    unfold retiredBy at hactive ⊢
    split at hactive
    case isTrue => cases hactive
    case isFalse hother =>
      rw [if_neg hother]
      exact ⟨hold, fun hsame => hother ⟨hsame, hactive⟩⟩

/-- A tested row after a commit is another one, which was tested before. -/
theorem tested_put {version row : JourneyVersion} (hmem : version ∈ state.versions.rows)
    (hrow : row ∈ (state.put version).versions.rows) (hne : row.id ≠ version.id)
    (happroved : ∀ old ∈ state.versions.rows, old.id = row.id → old.status = .approved) :
    row ∈ state.versions.rows := by
  rcases mem_put hmem hrow with rfl | ⟨old, hold, _, rfl⟩
  · exact absurd rfl hne
  · have hstatus := happroved old hold (retiredBy_id version old).symm
    unfold retiredBy
    split
    case isTrue hretired =>
      rw [hretired.2] at hstatus
      cases hstatus
    case isFalse => exact hold

theorem mem_moved {version row : JourneyVersion} {change : JourneyVersion → JourneyVersion}
    {hid : ∀ row, (change row).id = row.id}
    (hrow : row ∈ (state.versions.modify version.id change hid).rows) :
    (row.id = version.id ∧ ∃ old, row = change old) ∨ row ∈ state.versions.rows := by
  obtain ⟨old, hold, rfl⟩ := List.mem_map.mp hrow
  split
  case isTrue hsame => exact .inl ⟨(hid old).trans hsame, old, rfl⟩
  case isFalse => exact .inr hold

/-- An active row was there before another transition or an edit. -/
theorem active_moved {version row : JourneyVersion} {change : JourneyVersion → JourneyVersion}
    (hstatus : ∀ row, (change row).status ≠ .active) (hid : ∀ row, (change row).id = row.id)
    (hrow : row ∈ (state.versions.modify version.id change hid).rows)
    (hactive : row.status = .active) : row ∈ state.versions.rows := by
  rcases mem_moved hrow with ⟨_, old, rfl⟩ | hkept
  · exact absurd hactive (hstatus old)
  · exact hkept

/-- A row that an activation holds was there before another transition or an edit. -/
theorem held_moved {version row : JourneyVersion} {change : JourneyVersion → JourneyVersion}
    {hid : ∀ row, (change row).id = row.id} (hfree : state.isTested version.id = false)
    (hrow : row ∈ (state.versions.modify version.id change hid).rows)
    (hheld : state.isTested row.id = true) : row ∈ state.versions.rows := by
  rcases mem_moved hrow with ⟨hsame, _⟩ | hkept
  · rw [hsame, hfree] at hheld
    cases hheld
  · exact hkept

/-- Where activations only go on, the versions stay governed. -/
theorem Governed.of_continues (hgoverned : Governed state)
    (htested : ∀ activation ∈ after.activations.rows, activation.stage = .tested →
      Continues state activation)
    (hbefore : ∀ row ∈ after.versions.rows, after.isTested row.id = true →
      row ∈ state.versions.rows)
    (hsingle : OnePerDefinition after) : Governed after := by
  constructor
  · exact hgoverned.once.of_continues htested
  · intro row hrow hafter
    exact hgoverned.approved row (hbefore row hrow hafter) (isTested_of_continues htested hafter)
  · intro first hfirst second hsecond hone htwo hsame
    exact hgoverned.apart first (hbefore first hfirst hone) second (hbefore second hsecond htwo)
      (isTested_of_continues htested hone) (isTested_of_continues htested htwo) hsame
  · exact hsingle

theorem Governed.step (hgoverned : Governed state) (hstep : step state event = some after) :
    Governed after := by
  obtain ⟨_, hchange⟩ := change_step hgoverned.once hstep
  cases hchange with
  | kept hversions htested =>
    apply hgoverned.of_continues htested
    · rw [hversions]
      exact fun row hrow _ => hrow
    · unfold OnePerDefinition
      rw [hversions]
      exact hgoverned.single
  | @tested version activation _ _ _ _ hversions hpasses hfree hunlocked htested =>
    obtain ⟨hfound, happroved, _⟩ := tests_eq_some hpasses
    have hmem := (Table.find?_eq_some.mp hfound).1
    have hbefore : ∀ id, after.isTested id = true → state.isTested id = true ∨ id = version.id := by
      intro id hafter
      obtain ⟨other, hother, hstage, rfl⟩ := isTested_iff.mp hafter
      rcases htested other hother hstage with hcontinues | ⟨_, hof⟩
      · exact .inl hcontinues.isTested
      · exact .inr hof
    have hnone : ∀ row ∈ state.versions.rows, state.isTested row.id = true →
        row.definitionId ≠ version.definitionId := by
      intro row hrow hrowTested hsame
      have hlocked : state.isLocked version.definitionId = true :=
        List.any_eq_true.mpr ⟨row, hrow, decide_eq_true ⟨hsame, hrowTested⟩⟩
      rw [hunlocked] at hlocked
      cases hlocked
    have hnew : ∀ activation, Continues state activation →
        activation.versionId ≠ version.id := by
      intro activation hcontinues hof
      have hheld := hcontinues.isTested
      rw [hof, hfree] at hheld
      cases hheld
    constructor
    · intro first hfirst second hsecond hone htwo hsame
      rcases htested first hfirst hone with hfirstOld | ⟨hfirstId, hfirstOf⟩
      · rcases htested second hsecond htwo with hsecondOld | ⟨_, hsecondOf⟩
        · exact hgoverned.once.eq_of_continues hfirst hsecond hfirstOld hsecondOld hsame
        · exact absurd (hsame.trans hsecondOf) (hnew first hfirstOld)
      · rcases htested second hsecond htwo with hsecondOld | ⟨hsecondId, _⟩
        · exact absurd (hsame.symm.trans hfirstOf) (hnew second hsecondOld)
        · exact after.activations.eq_of_serial_eq hfirst hsecond (hfirstId.trans hsecondId.symm)
    · rw [hversions]
      intro row hrow hafter
      rcases hbefore row.id hafter with hold | hid
      · exact hgoverned.approved row hrow hold
      · rw [state.versions.eq_of_key_eq hrow hmem hid]
        exact happroved
    · rw [hversions]
      intro first hfirst second hsecond hone htwo hsame
      rcases hbefore first.id hone with hfirstOld | hfirstNew
      · rcases hbefore second.id htwo with hsecondOld | hsecondNew
        · exact hgoverned.apart first hfirst second hsecond hfirstOld hsecondOld hsame
        · rw [state.versions.eq_of_key_eq hsecond hmem hsecondNew] at hsame
          exact absurd hsame (hnone first hfirst hfirstOld)
      · rw [state.versions.eq_of_key_eq hfirst hmem hfirstNew] at hsame ⊢
        rcases hbefore second.id htwo with hsecondOld | hsecondNew
        · exact absurd hsame.symm (hnone second hsecond hsecondOld)
        · exact (state.versions.eq_of_key_eq hsecond hmem hsecondNew).symm
    · unfold OnePerDefinition
      rw [hversions]
      exact hgoverned.single
  | @committed version hmem _ hversions htested =>
    have hcontinues : ∀ activation ∈ after.activations.rows, activation.stage = .tested →
        Continues state activation := fun activation hactivation hstage =>
      (htested activation hactivation hstage).1
    apply hgoverned.of_continues hcontinues
    · rw [hversions]
      intro row hrow hafter
      obtain ⟨activation, hactivation, hstage, hof⟩ := isTested_iff.mp hafter
      apply tested_put hmem hrow (hof ▸ (htested activation hactivation hstage).2)
      intro other hother hid
      exact hgoverned.approved other hother (hid ▸ isTested_of_continues hcontinues hafter)
    · unfold OnePerDefinition
      rw [hversions]
      intro first hfirst second hsecond hone htwo hsame
      rcases active_put hmem hfirst hone with rfl | ⟨hfirstOld, hfirstOther⟩
      · rcases active_put hmem hsecond htwo with rfl | ⟨_, hsecondOther⟩
        · rfl
        · exact absurd hsame.symm hsecondOther
      · rcases active_put hmem hsecond htwo with rfl | ⟨hsecondOld, _⟩
        · exact absurd hsame hfirstOther
        · exact hgoverned.single first hfirstOld second hsecondOld hone htwo hsame
  | @moved version change hid hmem hfree hversions _ hstatus htested =>
    apply hgoverned.of_continues htested
    · rw [hversions]
      exact fun row hrow hafter =>
        held_moved hfree hrow (isTested_of_continues htested hafter)
    · unfold OnePerDefinition
      rw [hversions]
      intro first hfirst second hsecond hone htwo
      exact hgoverned.single first (active_moved hstatus hid hfirst hone) second
        (active_moved hstatus hid hsecond htwo) hone htwo

/-! ## Nothing competes -/

/-- No two active versions of a tenant share a country, channel, type of customer and priority. -/
def NothingCompetes (state : State) : Prop :=
  ∀ first ∈ state.versions.rows, ∀ second ∈ state.versions.rows, first.status = .active →
    second.status = .active → first ≠ second → ¬ Rivals state first second

/-- The activation whose tests a step runs. -/
def Event.tested? : Event → Option ℕ
  | test activationId _ => some activationId
  | _ => none

/-- No activation runs its tests while another one that competes with it has run its own and not
yet committed. -/
def Alone (state : State) (event : Event) : Prop :=
  ∀ activationId ∈ event.tested?, ∀ activation ∈ state.activations.find? activationId,
    ∀ first ∈ state.versions.rows, first.id = activation.versionId →
      ∀ second ∈ state.versions.rows, state.isTested second.id = true → ¬ Rivals state first second

instance (state : State) (event : Event) : Decidable (Alone state event) :=
  inferInstanceAs (Decidable (∀ activationId ∈ event.tested?,
    ∀ activation ∈ state.activations.find? activationId, ∀ first ∈ state.versions.rows,
      first.id = activation.versionId → ∀ second ∈ state.versions.rows,
        state.isTested second.id = true → ¬ Rivals state first second))

/-- Neither do the versions that activations hold compete, with active ones or with each other. -/
structure Exclusive (state : State) : Prop where
  active : NothingCompetes state
  held : ∀ first ∈ state.versions.rows, state.isTested first.id = true →
    ∀ second ∈ state.versions.rows, second.status = .active → ¬ Rivals state first second
  together : ∀ first ∈ state.versions.rows, ∀ second ∈ state.versions.rows,
    state.isTested first.id = true → state.isTested second.id = true → first ≠ second →
      ¬ Rivals state first second

theorem competes_comm (first second : Graph) : competes first second = competes second first := by
  rw [Bool.eq_iff_iff]
  unfold competes
  simp only [List.any_eq_true, decide_eq_true_eq]
  constructor
  · rintro ⟨scope, hscope, other, hother, hcountry, hchannel, htype, hpriority⟩
    exact ⟨other, hother, scope, hscope, hcountry.symm, hchannel.symm, htype.symm, hpriority.symm⟩
  · rintro ⟨scope, hscope, other, hother, hcountry, hchannel, htype, hpriority⟩
    exact ⟨other, hother, scope, hscope, hcountry.symm, hchannel.symm, htype.symm, hpriority.symm⟩

theorem Rivals.symm {first second : JourneyVersion} (hrivals : Rivals state first second) :
    Rivals state second first := by
  obtain ⟨hsome, hsame, hcompetes⟩ := hrivals
  exact ⟨hsame ▸ hsome, hsame.symm, competes_comm first.graph second.graph ▸ hcompetes⟩

theorem Rivals.of_definitions (hdefinitions : after.definitions = state.definitions)
    {first second : JourneyVersion} (hrivals : Rivals after first second) :
    Rivals state first second := by
  unfold Rivals State.tenant? at hrivals ⊢
  rwa [hdefinitions] at hrivals

theorem not_rivals_of_tests {versionId : ℕ} {version other : JourneyVersion}
    (htests : state.tests versionId = some version) (hother : other ∈ state.versions.rows)
    (hactive : other.status = .active) : ¬ Rivals state version other := by
  rintro ⟨_, hsame, hcompetes⟩
  obtain ⟨_, happroved, tenantId, htenant, _, _, hcontested⟩ := tests_eq_some htests
  have hne : other.id ≠ version.id := by
    intro hid
    have hversion := (Table.find?_eq_some.mp (tests_eq_some htests).1).1
    rw [state.versions.eq_of_key_eq hother hversion hid, happroved] at hactive
    cases hactive
  have htrue : state.isContested tenantId version = true :=
    List.any_eq_true.mpr ⟨other, hother,
      decide_eq_true ⟨hactive, hsame.symm.trans htenant, hne, hcompetes⟩⟩
  rw [hcontested] at htrue
  cases htrue

/-- Where activations only go on and no version becomes active, nothing comes to compete. -/
theorem Exclusive.of_continues (hexclusive : Exclusive state)
    (hdefinitions : after.definitions = state.definitions)
    (hheld : ∀ row ∈ after.versions.rows, after.isTested row.id = true →
      row ∈ state.versions.rows ∧ state.isTested row.id = true)
    (hactive : ∀ row ∈ after.versions.rows, row.status = .active → row ∈ state.versions.rows) :
    Exclusive after := by
  constructor
  · intro first hfirst second hsecond hone htwo hne hrivals
    exact hexclusive.active first (hactive first hfirst hone) second (hactive second hsecond htwo)
      hone htwo hne (hrivals.of_definitions hdefinitions)
  · intro first hfirst htested second hsecond htwo hrivals
    obtain ⟨hold, hbefore⟩ := hheld first hfirst htested
    exact hexclusive.held first hold hbefore second (hactive second hsecond htwo) htwo
      (hrivals.of_definitions hdefinitions)
  · intro first hfirst second hsecond hone htwo hne hrivals
    obtain ⟨hfirstOld, hfirstBefore⟩ := hheld first hfirst hone
    obtain ⟨hsecondOld, hsecondBefore⟩ := hheld second hsecond htwo
    exact hexclusive.together first hfirstOld second hsecondOld hfirstBefore hsecondBefore hne
      (hrivals.of_definitions hdefinitions)

/-- A step of an activation that is alone lets nothing compete. -/
theorem Exclusive.step (hgoverned : Governed state) (hexclusive : Exclusive state)
    (halone : Alone state event) (hstep : step state event = some after) : Exclusive after := by
  obtain ⟨hdefinitions, hchange⟩ := change_step hgoverned.once hstep
  cases hchange with
  | kept hversions htested =>
    apply hexclusive.of_continues hdefinitions
    · rw [hversions]
      exact fun row hrow hafter => ⟨hrow, isTested_of_continues htested hafter⟩
    · rw [hversions]
      exact fun row hrow _ => hrow
  | moved change hid hmem hfree hversions _ hstatus htested =>
    apply hexclusive.of_continues hdefinitions
    · rw [hversions]
      intro row hrow hafter
      have hheld := isTested_of_continues htested hafter
      exact ⟨held_moved hfree hrow hheld, hheld⟩
    · rw [hversions]
      exact fun row hrow hactive => active_moved hstatus hid hrow hactive
  | @tested version activation catalogue hevent hactivation hof hversions hpasses hfree _ htested =>
    subst hevent
    have hmem := (Table.find?_eq_some.mp (tests_eq_some hpasses).1).1
    have hbefore : ∀ row ∈ state.versions.rows, after.isTested row.id = true →
        state.isTested row.id = true ∨ row = version := by
      intro row hrow hafter
      obtain ⟨other, hother, hstage, hid⟩ := isTested_iff.mp hafter
      rcases htested other hother hstage with hcontinues | ⟨_, hversion⟩
      · exact .inl (hid ▸ hcontinues.isTested)
      · exact .inr (state.versions.eq_of_key_eq hrow hmem (hid.symm.trans hversion))
    have hguard : ∀ second ∈ state.versions.rows, state.isTested second.id = true →
        ¬ Rivals state version second :=
      halone activation.id rfl activation hactivation version hmem hof.symm
    constructor
    · unfold NothingCompetes
      rw [hversions]
      intro first hfirst second hsecond hone htwo hne hrivals
      exact hexclusive.active first hfirst second hsecond hone htwo hne
        (hrivals.of_definitions hdefinitions)
    · rw [hversions]
      intro first hfirst hafter second hsecond hactive hrivals
      have hold := hrivals.of_definitions hdefinitions
      rcases hbefore first hfirst hafter with hheld | rfl
      · exact hexclusive.held first hfirst hheld second hsecond hactive hold
      · exact not_rivals_of_tests hpasses hsecond hactive hold
    · rw [hversions]
      intro first hfirst second hsecond hone htwo hne hrivals
      have hold := hrivals.of_definitions hdefinitions
      rcases hbefore first hfirst hone with hfirstHeld | rfl
      · rcases hbefore second hsecond htwo with hsecondHeld | rfl
        · exact hexclusive.together first hfirst second hsecond hfirstHeld hsecondHeld hne hold
        · exact hguard first hfirst hfirstHeld hold.symm
      · rcases hbefore second hsecond htwo with hsecondHeld | rfl
        · exact hguard second hsecond hsecondHeld hold
        · exact hne rfl
  | @committed version hmem hheld hversions htested =>
    have hcontinues : ∀ activation ∈ after.activations.rows, activation.stage = .tested →
        Continues state activation := fun activation hactivation hstage =>
      (htested activation hactivation hstage).1
    have hbefore : ∀ row ∈ (state.put version).versions.rows, after.isTested row.id = true →
        row ∈ state.versions.rows ∧ state.isTested row.id = true ∧ row ≠ version := by
      intro row hrow hafter
      have hold := isTested_of_continues hcontinues hafter
      obtain ⟨activation, hactivation, hstage, hof⟩ := isTested_iff.mp hafter
      have hne : row.id ≠ version.id := hof ▸ (htested activation hactivation hstage).2
      refine ⟨tested_put hmem hrow hne ?_, hold, fun hsame => hne (congrArg _ hsame)⟩
      intro other hother hid
      exact hgoverned.approved other hother (hid ▸ hold)
    constructor
    · unfold NothingCompetes
      rw [hversions]
      intro first hfirst second hsecond hone htwo hne hrivals
      have hold := hrivals.of_definitions hdefinitions
      rcases active_put hmem hfirst hone with rfl | ⟨hfirstOld, _⟩
      · rcases active_put hmem hsecond htwo with rfl | ⟨hsecondOld, _⟩
        · exact hne rfl
        · exact hexclusive.held version hmem hheld second hsecondOld htwo hold
      · rcases active_put hmem hsecond htwo with rfl | ⟨hsecondOld, _⟩
        · exact hexclusive.held version hmem hheld first hfirstOld hone hold.symm
        · exact hexclusive.active first hfirstOld second hsecondOld hone htwo hne hold
    · rw [hversions]
      intro first hfirst hafter second hsecond hactive hrivals
      have hold := hrivals.of_definitions hdefinitions
      obtain ⟨hfirstOld, hfirstHeld, hfirstNe⟩ := hbefore first hfirst hafter
      rcases active_put hmem hsecond hactive with rfl | ⟨hsecondOld, _⟩
      · exact hexclusive.together first hfirstOld version hmem hfirstHeld hheld hfirstNe hold
      · exact hexclusive.held first hfirstOld hfirstHeld second hsecondOld hactive hold
    · rw [hversions]
      intro first hfirst second hsecond hone htwo hne hrivals
      obtain ⟨hfirstOld, hfirstHeld, _⟩ := hbefore first hfirst hone
      obtain ⟨hsecondOld, hsecondHeld, _⟩ := hbefore second hsecond htwo
      exact hexclusive.together first hfirstOld second hsecondOld hfirstHeld hsecondHeld hne
        (hrivals.of_definitions hdefinitions)

/-! ## Replacing a version -/

/-- An approved version that can be activated but for active versions with its scopes. -/
def Ready (state : State) (version : JourneyVersion) : Prop :=
  version ∈ state.versions.rows ∧ version.status = .approved ∧
    (state.tenant? version.definitionId).isSome ∧ version.graph.entries ≠ [] ∧
    version.graph.scopes ≠ []

def OnlyOwn (state : State) (version : JourneyVersion) : Prop :=
  ∀ other ∈ state.versions.rows, other.status = .active → Rivals state version other →
    other.definitionId = version.definitionId

/-- A version that only its predecessor can compete with is activated if and only if the
predecessor does not. -/
theorem activates_iff {version : JourneyVersion} (hready : Ready state version)
    (hown : OnlyOwn state version) :
    (state.activateJourneyVersion version.id).isSome ↔
      ∀ other ∈ state.versions.rows, other.status = .active →
        other.definitionId = version.definitionId →
          competes version.graph other.graph = false := by
  obtain ⟨hmem, happroved, hsome, hentries, hscopes⟩ := hready
  obtain ⟨tenantId, htenant⟩ := Option.isSome_iff_exists.mp hsome
  unfold State.activateJourneyVersion
  rw [Option.isSome_map]
  constructor
  · intro hpasses other hother hactive hsame
    obtain ⟨tested, htests⟩ := Option.isSome_iff_exists.mp hpasses
    have hfound := (tests_eq_some htests).1
    rw [Table.find?_key hmem] at hfound
    cases hfound
    by_contra hcompetes
    exact not_rivals_of_tests htests hother hactive
      ⟨hsome, congrArg state.tenant? hsame.symm, Bool.not_eq_false _ ▸ hcompetes⟩
  · intro hquiet
    have hcontested : state.isContested tenantId version = false := by
      rw [Bool.eq_false_iff]
      intro htrue
      obtain ⟨other, hother, hfacts⟩ := List.any_eq_true.mp htrue
      obtain ⟨hactive, hsame, _, hcompetes⟩ := of_decide_eq_true hfacts
      have hdefinition := hown other hother hactive ⟨hsome, htenant.trans hsame.symm, hcompetes⟩
      rw [hquiet other hother hactive hdefinition] at hcompetes
      cases hcompetes
    have hpasses : ¬ (version.graph.entries.isEmpty = true ∨ version.graph.scopes.isEmpty = true ∨
        state.isContested tenantId version = true) := by
      rintro (hempty | hempty | htrue)
      · exact hentries (List.isEmpty_iff.mp hempty)
      · exact hscopes (List.isEmpty_iff.mp hempty)
      · rw [hcontested] at htrue
        cases htrue
    unfold State.tests
    rw [Table.find?_key hmem]
    dsimp only
    rw [if_neg (not_not.mpr happroved), htenant]
    dsimp only
    rw [if_neg hpasses]
    rfl

/-- An activation makes its version active and retires the predecessor. -/
theorem retires_of_activates {version : JourneyVersion} (hready : Ready state version)
    (hactivates : state.activateJourneyVersion version.id = some after) :
    (∃ row ∈ after.versions.rows, row.id = version.id ∧ row.status = .active) ∧
      ∀ other ∈ state.versions.rows, other.status = .active →
        other.definitionId = version.definitionId →
          ∃ row ∈ after.versions.rows, row.id = other.id ∧ row.status = .retired := by
  obtain ⟨tested, htests, rfl⟩ := Option.map_eq_some_iff.mp hactivates
  have hfound := (tests_eq_some htests).1
  rw [Table.find?_key hready.1] at hfound
  cases hfound
  constructor
  · refine ⟨_, List.mem_map_of_mem (List.mem_map_of_mem hready.1), ?_⟩
    rw [if_pos (retiredBy_id version version)]
    exact ⟨retiredBy_id version version, rfl⟩
  · intro other hother hactive hdefinition
    have hne : other.id ≠ version.id := by
      intro hid
      rw [state.versions.eq_of_key_eq hother hready.1 hid, hready.2.1] at hactive
      cases hactive
    refine ⟨_, List.mem_map_of_mem (List.mem_map_of_mem hother), ?_⟩
    rw [if_neg (retiredBy_id version other ▸ hne), retiredBy, if_pos ⟨hdefinition, hactive⟩]
    exact ⟨rfl, rfl⟩

/-! ## Runs -/

/-- No activation is under way, at most one version of a definition is active, and none competes
with another. -/
structure Opening (state : State) : Prop where
  idle : state.activations.rows = []
  single : OnePerDefinition state
  active : NothingCompetes state

theorem Opening.isTested (hopening : Opening state) (id : ℕ) : state.isTested id = false := by
  unfold State.isTested
  rw [hopening.idle]
  rfl

theorem Opening.governed (hopening : Opening state) : Governed state := by
  constructor
  · unfold Once
    rw [hopening.idle]
    exact fun _ hmem => absurd hmem List.not_mem_nil
  · intro version _ hheld
    rw [hopening.isTested] at hheld
    cases hheld
  · intro first _ second _ hheld
    rw [hopening.isTested] at hheld
    cases hheld
  · exact hopening.single

theorem Opening.exclusive (hopening : Opening state) : Exclusive state := by
  constructor
  · exact hopening.active
  · intro first _ hheld
    rw [hopening.isTested] at hheld
    cases hheld
  · intro first _ second _ hheld
    rw [hopening.isTested] at hheld
    cases hheld

theorem Governed.run {start : State} (hgoverned : Governed start)
    (hrun : Reaches Publishing.step start state) : Governed state := by
  apply Reaches.preserves Governed _ hrun hgoverned
  intro before event after hbefore hstep
  exact hbefore.step hstep

theorem Exclusive.run {start : State} (hopening : Opening start)
    (hrun : ReachesUnder Publishing.step Alone start state) : Exclusive state := by
  have hboth : Governed state ∧ Exclusive state := by
    apply ReachesUnder.preserves (fun reached => Governed reached ∧ Exclusive reached) _ hrun
      ⟨hopening.governed, hopening.exclusive⟩
    intro before event after hbefore halone hstep
    exact ⟨hbefore.1.step hstep, hbefore.2.step hbefore.1 halone hstep⟩
  exact hboth.2

/-- In every run at most one version of a definition is active, and a version that only its
predecessor can compete with replaces it if and only if the predecessor does not; and in every
run in which no activation runs its tests while a competing one is between its tests and its
commit, no two active versions compete. -/
theorem activation_replaces {start : State} (hopening : Opening start) :
    (∀ state, Reaches step start state → OnePerDefinition state ∧
      ∀ version, Ready state version → OnlyOwn state version →
        ((state.activateJourneyVersion version.id).isSome ↔
          ∀ other ∈ state.versions.rows, other.status = .active →
            other.definitionId = version.definitionId →
              competes version.graph other.graph = false) ∧
        ∀ after, state.activateJourneyVersion version.id = some after →
          (∃ row ∈ after.versions.rows, row.id = version.id ∧ row.status = .active) ∧
          ∀ other ∈ state.versions.rows, other.status = .active →
            other.definitionId = version.definitionId →
              ∃ row ∈ after.versions.rows, row.id = other.id ∧ row.status = .retired) ∧
    ∀ state, ReachesUnder step Alone start state → NothingCompetes state := by
  refine ⟨fun state hrun => ⟨(hopening.governed.run hrun).single, ?_⟩, ?_⟩
  · intro version hready hown
    exact ⟨activates_iff hready hown, fun after hactivates =>
      retires_of_activates hready hactivates⟩
  · intro state hrun
    exact (Exclusive.run hopening hrun).active

end

/-! ## Three versions -/

/-- Two journeys of a tenant with approved versions for the same customers, and a second approved
version of the first. -/
def threeVersions : State where
  channels := mobileAndWeb
  definitions := ⟨[{ id := 1, tenantId := 1 }, { id := 2, tenantId := 1 }], by decide⟩
  versions := ⟨[{ id := 1, definitionId := 1, status := .approved, graph := twoChannels },
    { id := 2, definitionId := 2, status := .approved, graph := twoChannels },
    { id := 3, definitionId := 1, status := .approved, graph := twoChannels }], by decide⟩

theorem threeVersions_opening : Opening threeVersions := by
  have hquiet : ∀ version ∈ threeVersions.versions.rows, version.status = .approved := by
    decide
  constructor
  · rfl
  · intro first hfirst second _ hactive
    rw [hquiet first hfirst] at hactive
    cases hactive
  · intro first hfirst second _ hactive
    rw [hquiet first hfirst] at hactive
    cases hactive

def testing (versionId activationId : ℕ) : List Event :=
  [.validate versionId, .compare activationId, .compare activationId,
    .test activationId mobileConsent]

/-- The first version is activated. -/
theorem activation_replaces_first :
    ∃ state, ReachesUnder step Alone threeVersions state ∧
      (∃ version ∈ state.versions.rows, version.status = .active) ∧ OnePerDefinition state ∧
      NothingCompetes state := by
  have hany : (runInputs (guardedStep step Alone) threeVersions (testing 1 1 ++ [.commit 1])).any
      fun state => state.versions.rows.any fun version => version.status = .active := by
    decide +kernel
  obtain ⟨state, hrun, hactive⟩ := (Option.any_eq_true _ _).mp hany
  obtain ⟨version, hmem, hfacts⟩ := List.any_eq_true.mp hactive
  have hreach := (Reaches.of_runInputs hrun).under
  have hall := activation_replaces threeVersions_opening
  exact ⟨state, hreach, ⟨version, hmem, of_decide_eq_true hfacts⟩,
    (hall.1 state hreach.reaches).1, hall.2 state hreach⟩

/-- Two activations that test side by side leave two active versions that compete, and a version
with the scope of its predecessor is not activated. -/
theorem activations_compete :
    Opening threeVersions ∧
      (∃ state, Reaches step threeVersions state ∧ ¬ NothingCompetes state) ∧
      ∃ state version, Reaches step threeVersions state ∧ Ready state version ∧
        OnlyOwn state version ∧ state.activateJourneyVersion version.id = none := by
  refine ⟨threeVersions_opening, ?_, ?_⟩
  · have hany : (runInputs step threeVersions
        (testing 1 1 ++ testing 2 2 ++ [.commit 1, .commit 2])).any fun state =>
        state.versions.rows.any fun first => state.versions.rows.any fun second =>
          first.status = .active ∧ second.status = .active ∧ first.id ≠ second.id ∧
            Rivals state first second := by
      decide +kernel
    obtain ⟨state, hrun, hrows⟩ := (Option.any_eq_true _ _).mp hany
    obtain ⟨first, hfirst, hseconds⟩ := List.any_eq_true.mp hrows
    obtain ⟨second, hsecond, hfacts⟩ := List.any_eq_true.mp hseconds
    obtain ⟨hone, htwo, hne, hrivals⟩ := of_decide_eq_true hfacts
    refine ⟨state, Reaches.of_runInputs hrun, fun hnothing => ?_⟩
    exact hnothing first hfirst second hsecond hone htwo (fun hsame => hne (congrArg _ hsame)) hrivals
  · have hany : (runInputs step threeVersions (testing 1 1 ++ [.commit 1])).any fun state =>
        (state.versions.rows.all fun other =>
          other.status = .active → other.definitionId = 1) &&
        state.versions.rows.any fun version =>
          decide (version.id = 3 ∧ version.definitionId = 1 ∧ version.status = .approved ∧
            (state.tenant? version.definitionId).isSome ∧ version.graph.entries.length = 1 ∧
            version.graph.scopes.length = 2) && (state.activateJourneyVersion 3).isNone := by
      decide +kernel
    obtain ⟨state, hrun, hboth⟩ := (Option.any_eq_true _ _).mp hany
    obtain ⟨hall, hrows⟩ := Bool.and_eq_true_iff.mp hboth
    obtain ⟨version, hmem, hfacts⟩ := List.any_eq_true.mp hrows
    obtain ⟨hversion, hnone⟩ := Bool.and_eq_true_iff.mp hfacts
    obtain ⟨hid, hdefinition, happroved, htenant, hentries, hscopes⟩ := of_decide_eq_true hversion
    refine ⟨state, version, Reaches.of_runInputs hrun,
      ⟨hmem, happroved, htenant, ?_, ?_⟩, ?_, hid ▸ Option.isNone_iff_eq_none.mp hnone⟩
    · exact List.ne_nil_of_length_pos (by omega)
    · exact List.ne_nil_of_length_pos (by omega)
    · intro other hother hactive _
      rw [hdefinition]
      exact of_decide_eq_true (List.all_eq_true.mp hall other hother) hactive

end Finify.Onboarding.Publishing
