/-
# Journeys on their channels

What the active journeys need of the channels, and which transitions of the channels leave it to
them.
-/

import Finify.Onboarding.Publishing

namespace Finify.Onboarding.Publishing

open Finify.Foundations

/-! ## What journeys need -/

/-- Nodes that the customers of a scope of a tenant come to. -/
structure Need where
  tenantId : ℕ
  nodes : List Node
  scope : Scope

def Need.isMet (channels : Channels) (need : Need) : Prop :=
  channels.scopeIssues need.tenantId need.nodes need.scope = []

def Need.isOn (channels : Channels) (definitionId : ℕ) (need : Need) : Bool :=
  (channels.definitions.find? (need.tenantId, need.scope.channelCode.toUpper)).any fun definition =>
    definition.isEnabled && definition.id = definitionId

def Need.servedBy (version : ChannelVersion) (need : Need) : Prop :=
  need.scope.countryCode.toUpper ∈ version.countries ∧
    need.nodes.flatMap (version.nodeIssues need.scope) = []

instance (version : ChannelVersion) (need : Need) : Decidable (need.servedBy version) :=
  inferInstanceAs (Decidable (_ ∧ _))

def State.activeNeeds (state : State) : List Need :=
  (state.versions.rows.filter fun version => version.status = .active).flatMap fun version =>
    (state.tenant? version.definitionId).toList.flatMap fun tenantId =>
      version.graph.scopes.map fun scope =>
        { tenantId := tenantId, nodes := version.graph.nodes, scope := scope }

/-- What the activations under way have compared with the channels. -/
def State.checkedNeeds (state : State) : List Need :=
  (state.activations.rows.filter fun activation => activation.stage ≠ .over).flatMap
    fun activation =>
      (state.tenantOf activation).toList.flatMap fun tenantId =>
        activation.checked.map fun scope =>
          { tenantId := tenantId, nodes := activation.graph.nodes, scope := scope }

/-- What the active versions and the activations under way need. -/
def State.needs (state : State) : List Need := state.activeNeeds ++ state.checkedNeeds

/-- Every active version is compatible with the channels as they are now. -/
def StaysExecutable (state : State) : Prop :=
  ∀ version ∈ state.versions.rows, version.status = .active → ∀ tenantId,
    state.tenant? version.definitionId = some tenantId →
      validateJourneyCompatibility state.channels tenantId version.graph = []

/-! ## Steps that leave it to them -/

def Event.retires? : Event → Option ℕ
  | channel versionId .retire => some versionId
  | _ => none

def Event.activates? : Event → Option ℕ
  | channel versionId .activate => some versionId
  | _ => none

def Event.edits? : Event → Option ℕ
  | replaceGraph versionId _ => some versionId
  | _ => none

/-- An active channel version is retired only if nothing is needed of its channel, one is
activated only if it serves what is needed of its channel, and no journey version is edited
while an activation of it is under way. -/
def Keeps (state : State) (event : Event) : Prop :=
  (∀ versionId ∈ event.retires?, ∀ version ∈ state.channels.versions.find? versionId,
    version.status = .active →
      ∀ need ∈ state.needs, need.isOn state.channels version.definitionId = false) ∧
  (∀ versionId ∈ event.activates?, ∀ version ∈ state.channels.versions.find? versionId,
    ∀ need ∈ state.needs, need.isOn state.channels version.definitionId = true →
      need.servedBy version) ∧
  ∀ versionId ∈ event.edits?, ∀ activation ∈ state.activations.rows,
    activation.versionId = versionId → activation.stage = .over

instance (state : State) (event : Event) : Decidable (Keeps state event) :=
  inferInstanceAs (Decidable ((∀ versionId ∈ event.retires?,
    ∀ version ∈ state.channels.versions.find? versionId, version.status = .active →
      ∀ need ∈ state.needs, need.isOn state.channels version.definitionId = false) ∧
    (∀ versionId ∈ event.activates?, ∀ version ∈ state.channels.versions.find? versionId,
      ∀ need ∈ state.needs, need.isOn state.channels version.definitionId = true →
        need.servedBy version) ∧
    ∀ versionId ∈ event.edits?, ∀ activation ∈ state.activations.rows,
      activation.versionId = versionId → activation.stage = .over))

section

variable {channels later : Channels} {need : Need}

/-! ## Channels -/

def isServing (definitionId : ℕ) (countryCode : String) (version : ChannelVersion) : Bool :=
  version.definitionId = definitionId ∧ version.status = .active ∧
    countryCode.toUpper ∈ version.countries

/-- A need is met if and only if its channel is enabled and has an active version that serves
it. -/
theorem isMet_iff : need.isMet channels ↔ ∃ definition version,
    channels.definitions.find? (need.tenantId, need.scope.channelCode.toUpper) = some definition ∧
      definition.isEnabled = true ∧
      channels.versions.rows.find? (isServing definition.id need.scope.countryCode) =
        some version ∧
      need.nodes.flatMap (version.nodeIssues need.scope) = [] := by
  unfold Need.isMet Channels.scopeIssues
  constructor
  · intro hnone
    split at hnone
    · cases hnone
    case h_2 version hactive =>
      obtain ⟨definition, hfilter, hversion⟩ := Option.bind_eq_some_iff.mp hactive
      obtain ⟨hdefinition, henabled⟩ := Option.filter_eq_some_iff.mp hfilter
      exact ⟨definition, version, hdefinition, henabled, hversion, hnone⟩
  · rintro ⟨definition, version, hdefinition, henabled, hversion, hnone⟩
    have hactive : channels.active? need.tenantId need.scope.channelCode need.scope.countryCode =
        some version := by
      unfold Channels.active?
      rw [hdefinition, Option.filter_some, if_pos henabled, Option.bind_some]
      exact hversion
    rw [hactive]
    exact hnone

/-- A need stays met where the version that serves it stays the one that is looked up. -/
theorem isMet_of_find? (hmet : need.isMet channels)
    (hdefinitions : later.definitions = channels.definitions)
    (hfind : ∀ definitionId version, need.isOn channels definitionId = true →
      channels.versions.rows.find? (isServing definitionId need.scope.countryCode) = some version →
      later.versions.rows.find? (isServing definitionId need.scope.countryCode) = some version) :
    need.isMet later := by
  obtain ⟨definition, version, hdefinition, henabled, hversion, hnone⟩ := isMet_iff.mp hmet
  refine isMet_iff.mpr ⟨definition, version, ?_, henabled, ?_, hnone⟩
  · rw [hdefinitions]
    exact hdefinition
  · apply hfind definition.id version _ hversion
    unfold Need.isOn
    rw [hdefinition, Option.any_some, henabled, Bool.true_and]
    exact decide_eq_true rfl

/-- Rows are looked up as before where a change keeps those that serve, and makes none serve. -/
theorem find?_map_of_serving {rows : List ChannelVersion} {change : ChannelVersion → ChannelVersion}
    {serves : ChannelVersion → Bool} (hserves : ∀ row ∈ rows, serves (change row) = serves row)
    (hsame : ∀ row ∈ rows, serves row = true → change row = row) :
    (rows.map change).find? serves = rows.find? serves := by
  induction rows with
  | nil => rfl
  | cons row rest ih =>
    have hrest := ih (fun other hmem => hserves other (List.mem_cons_of_mem _ hmem))
      fun other hmem => hsame other (List.mem_cons_of_mem _ hmem)
    rw [List.map_cons, List.find?_cons, List.find?_cons, hserves row List.mem_cons_self, hrest]
    split
    case h_1 hrow => rw [hsame row List.mem_cons_self hrow]
    case h_2 => rfl

/-- Where a version that does not serve the need changes to one that is not active, the need stays
met. -/
theorem isMet_of_modify {versionId : ℕ} {change : ChannelVersion → ChannelVersion}
    {hid : ∀ row, (change row).id = row.id} {version : ChannelVersion}
    (hmet : need.isMet channels) (hfound : channels.versions.find? versionId = some version)
    (hon : need.isOn channels version.definitionId = true → version.status ≠ .active)
    (hstatus : ∀ row, (change row).status ≠ .active)
    (hlater : later = { channels with
      versions := channels.versions.modify versionId change hid }) : need.isMet later := by
  subst hlater
  refine isMet_of_find? hmet rfl ?_
  intro definitionId served honChannel hserved
  rw [← hserved]
  have hidle : ∀ row ∈ channels.versions.rows, row.id = versionId →
      isServing definitionId need.scope.countryCode row = false := by
    intro row hrow hsame
    obtain ⟨hmem, hversion⟩ := Table.find?_eq_some.mp hfound
    rw [channels.versions.eq_of_key_eq hrow hmem (hsame.trans hversion.symm)]
    apply decide_eq_false
    rintro ⟨rfl, hactive, _⟩
    exact hon honChannel hactive
  apply find?_map_of_serving
  · intro row hrow
    split
    case isTrue hsame =>
      rw [hidle row hrow hsame]
      exact decide_eq_false fun hserves => hstatus row hserves.2.1
    case isFalse => rfl
  · intro row hrow hserves
    split
    case isTrue hsame =>
      rw [hidle row hrow hsame] at hserves
      cases hserves
    case isFalse => rfl

/-- The rows of the channel versions after one is activated. -/
theorem mem_activated {version row : ChannelVersion} (hmem : version ∈ channels.versions.rows)
    (hrow : row ∈ ((channels.versions.map (replaced version) (replaced_id version)).modify version.id
      (fun version => { version with status := .active }) fun _ => rfl).rows) :
    row = { version with status := .active } ∨
      ∃ old ∈ channels.versions.rows, old.id ≠ version.id ∧ row = replaced version old := by
  obtain ⟨middle, hmiddle, rfl⟩ := List.mem_map.mp hrow
  obtain ⟨old, hold, rfl⟩ := List.mem_map.mp hmiddle
  split
  case isTrue hid =>
    rw [replaced_id] at hid
    rw [channels.versions.eq_of_key_eq hold hmem hid]
    left
    unfold replaced
    split <;> rfl
  case isFalse hid => exact .inr ⟨old, hold, replaced_id version old ▸ hid, rfl⟩

/-- A need stays met where a channel version that serves it, or one of another channel, is
activated. -/
theorem isMet_of_activate {version : ChannelVersion} (hmet : need.isMet channels)
    (hmem : version ∈ channels.versions.rows)
    (hserved : need.isOn channels version.definitionId = true → need.servedBy version)
    (hlater : later = { channels with
      versions := (channels.versions.map (replaced version) (replaced_id version)).modify version.id
        (fun version => { version with status := .active }) fun _ => rfl }) :
    need.isMet later := by
  subst hlater
  by_cases hon : need.isOn channels version.definitionId = true
  · obtain ⟨hcountry, hnone⟩ := hserved hon
    obtain ⟨definition, hdefinition, hfacts⟩ := (Option.any_eq_true _ _).mp hon
    obtain ⟨henabled, hdefinitionId⟩ := Bool.and_eq_true_iff.mp hfacts
    have hid : definition.id = version.definitionId := of_decide_eq_true hdefinitionId
    refine isMet_iff.mpr ⟨definition, { version with status := .active }, hdefinition, henabled,
      ?_, hnone⟩
    have hnew : isServing definition.id need.scope.countryCode
        { version with status := .active } = true := decide_eq_true ⟨hid.symm, rfl, hcountry⟩
    have hrow : { version with status := .active } ∈
        ((channels.versions.map (replaced version) (replaced_id version)).modify version.id
          (fun version => { version with status := .active }) fun _ => rfl).rows := by
      refine List.mem_map.mpr ⟨_, List.mem_map_of_mem hmem, ?_⟩
      rw [if_pos (replaced_id version version)]
      unfold replaced
      split <;> rfl
    obtain ⟨found, hfound⟩ := Option.isSome_iff_exists.mp
      (List.find?_isSome.mpr ⟨_, hrow, hnew⟩)
    rw [hfound]
    have hserves := List.find?_some hfound
    rcases mem_activated hmem (List.mem_of_find?_eq_some hfound) with heq | ⟨old, _, hne, heq⟩
    · rw [heq]
    · obtain ⟨hsame, hactive, _⟩ := of_decide_eq_true hserves
      rw [heq, replaced] at hsame hactive
      split at hactive
      case isTrue => cases hactive
      case isFalse hother =>
        rw [if_neg hother] at hsame
        exact absurd ⟨hsame.trans hid, hactive, hne⟩ hother
  · refine isMet_of_find? hmet rfl ?_
    intro definitionId served honChannel hfind
    have hne : definitionId ≠ version.definitionId := fun hsame => hon (hsame ▸ honChannel)
    have hkept : ∀ row ∈ channels.versions.rows, row.definitionId = definitionId →
        replaced version row = row ∧ row.id ≠ version.id := by
      intro row hrow hsame
      constructor
      · unfold replaced
        exact if_neg fun hreplaced => hne (hsame.symm.trans hreplaced.1)
      · intro hid
        rw [channels.versions.eq_of_key_eq hrow hmem hid] at hsame
        exact hne hsame.symm
    have hdefinition : ∀ row, (replaced version row).definitionId = row.definitionId := by
      intro row
      unfold replaced
      split <;> rfl
    rw [← hfind]
    change List.find? _ (List.map _ (List.map _ channels.versions.rows)) = _
    rw [List.map_map]
    apply find?_map_of_serving
    · intro row hrow
      by_cases hsame : row.definitionId = definitionId
      · obtain ⟨hreplaced, hid⟩ := hkept row hrow hsame
        rw [Function.comp, hreplaced, if_neg hid]
      · have hfalse : isServing definitionId need.scope.countryCode row = false :=
          decide_eq_false fun hserves => hsame hserves.1
        rw [hfalse]
        apply decide_eq_false
        rintro ⟨hafter, _⟩
        apply hsame
        rw [← hafter, ← hdefinition row, Function.comp]
        split <;> rfl
    · intro row hrow hserves
      obtain ⟨hreplaced, hid⟩ := hkept row hrow (of_decide_eq_true hserves).1
      rw [Function.comp, hreplaced, if_neg hid]

/-- A need stays met over a transition of the channels that leaves it what it needs. -/
theorem isMet_of_transition {versionId : ℕ} {action : Action}
    (htransition : transition channels versionId action = some later) (hmet : need.isMet channels)
    (hretire : action = .retire → ∀ version ∈ channels.versions.find? versionId,
      version.status = .active → need.isOn channels version.definitionId = false)
    (hactivate : action = .activate → ∀ version ∈ channels.versions.find? versionId,
      need.isOn channels version.definitionId = true → need.servedBy version) :
    need.isMet later := by
  unfold transition at htransition
  split at htransition
  · cases htransition
  case h_2 version hversion =>
    split at htransition
    · cases htransition
    case isFalse hsource =>
      have hstatus : version.status ∈ action.sources := not_not.mp hsource
      obtain ⟨hmem, rfl⟩ := Table.find?_eq_some.mp hversion
      cases action with
      | activate =>
        exact isMet_of_activate hmet hmem (hactivate rfl version hversion)
          (Option.some.inj htransition).symm
      | retire =>
        apply isMet_of_modify hmet hversion _ _ (Option.some.inj htransition).symm
        · intro hon hactive
          rw [hretire rfl version hversion hactive] at hon
          cases hon
        · exact fun _ hactive => by cases hactive
      | submit | approve | reject =>
        apply isMet_of_modify hmet hversion _ _ (Option.some.inj htransition).symm
        · intro _ hactive
          rw [hactive] at hstatus
          exact absurd hstatus (by decide)
        · exact fun _ hactive => by cases hactive

/-- An edit of a channel version leaves every need met. -/
theorem isMet_of_replaceVersion {versionId : ℕ} {countries : List String}
    {capabilities : List (NodeType × ExecutionMode)}
    (hreplace : replaceVersion channels versionId countries capabilities = some later)
    (hmet : need.isMet channels) : need.isMet later := by
  unfold replaceVersion at hreplace
  split at hreplace
  · cases hreplace
  case h_2 version hversion =>
    split at hreplace
    · cases hreplace
    case isFalse hedits =>
      apply isMet_of_modify hmet hversion _ _ (Option.some.inj hreplace).symm
      · intro _ hactive
        apply hedits
        rw [hactive]
        decide
      · exact fun _ hactive => by cases hactive

end

section

variable {state after : State} {event : Event} {need : Need}

/-! ## Needs -/

theorem mem_activeNeeds : need ∈ state.activeNeeds ↔ ∃ version ∈ state.versions.rows,
    version.status = .active ∧ state.tenant? version.definitionId = some need.tenantId ∧
      need.nodes = version.graph.nodes ∧ need.scope ∈ version.graph.scopes := by
  unfold State.activeNeeds
  constructor
  · intro hmem
    obtain ⟨version, hversion, hneeds⟩ := List.mem_flatMap.mp hmem
    obtain ⟨tenantId, htenant, hscopes⟩ := List.mem_flatMap.mp hneeds
    obtain ⟨scope, hscope, rfl⟩ := List.mem_map.mp hscopes
    obtain ⟨hrow, hactive⟩ := List.mem_filter.mp hversion
    exact ⟨version, hrow, of_decide_eq_true hactive, Option.mem_toList.mp htenant, rfl, hscope⟩
  · rintro ⟨version, hrow, hactive, htenant, hnodes, hscope⟩
    refine List.mem_flatMap.mpr ⟨version, List.mem_filter.mpr ⟨hrow, decide_eq_true hactive⟩,
      List.mem_flatMap.mpr ⟨need.tenantId, Option.mem_toList.mpr htenant,
        List.mem_map.mpr ⟨need.scope, hscope, ?_⟩⟩⟩
    rw [← hnodes]

theorem mem_checkedNeeds : need ∈ state.checkedNeeds ↔ ∃ activation ∈ state.activations.rows,
    activation.stage ≠ .over ∧ state.tenantOf activation = some need.tenantId ∧
      need.nodes = activation.graph.nodes ∧ need.scope ∈ activation.checked := by
  unfold State.checkedNeeds
  constructor
  · intro hmem
    obtain ⟨activation, hactivation, hneeds⟩ := List.mem_flatMap.mp hmem
    obtain ⟨tenantId, htenant, hscopes⟩ := List.mem_flatMap.mp hneeds
    obtain ⟨scope, hscope, rfl⟩ := List.mem_map.mp hscopes
    obtain ⟨hrow, hstage⟩ := List.mem_filter.mp hactivation
    exact ⟨activation, hrow, of_decide_eq_true hstage, Option.mem_toList.mp htenant, rfl, hscope⟩
  · rintro ⟨activation, hrow, hstage, htenant, hnodes, hscope⟩
    refine List.mem_flatMap.mpr ⟨activation, List.mem_filter.mpr ⟨hrow, decide_eq_true hstage⟩,
      List.mem_flatMap.mpr ⟨need.tenantId, Option.mem_toList.mpr htenant,
        List.mem_map.mpr ⟨need.scope, hscope, ?_⟩⟩⟩
    rw [← hnodes]

/-- Where all needs are met, the active versions are compatible with the channels. -/
theorem staysExecutable_of_needs (hmet : ∀ need ∈ state.needs, need.isMet state.channels) :
    StaysExecutable state := by
  intro version hmem hactive tenantId htenant
  apply List.flatMap_eq_nil_iff.mpr
  intro scope hscope
  have hneed : { tenantId := tenantId, nodes := version.graph.nodes, scope := scope } ∈
      state.activeNeeds := mem_activeNeeds.mpr ⟨version, hmem, hactive, htenant, rfl, hscope⟩
  exact hmet _ (List.mem_append_left _ hneed)

/-- The tenant of an activation stays, as versions stay in their definitions. -/
theorem tenantOf_eq (hdefinitions : after.definitions = state.definitions)
    (hversions : ∀ id, (after.versions.find? id).map JourneyVersion.definitionId =
      (state.versions.find? id).map JourneyVersion.definitionId) (activation : Activation) :
    after.tenantOf activation = state.tenantOf activation := by
  have hbind : ∀ reached : State, reached.tenantOf activation =
      ((reached.versions.find? activation.versionId).map JourneyVersion.definitionId).bind
        reached.tenant? := by
    intro reached
    rw [Option.bind_map]
    rfl
  rw [hbind, hbind, hversions]
  unfold State.tenant?
  rw [hdefinitions]

theorem definitionId_modify {versionId : ℕ} (change : JourneyVersion → JourneyVersion)
    (hid : ∀ row, (change row).id = row.id)
    (hdefinition : ∀ row, (change row).definitionId = row.definitionId) (id : ℕ) :
    ((state.versions.modify versionId change hid).find? id).map JourneyVersion.definitionId =
      (state.versions.find? id).map JourneyVersion.definitionId := by
  rw [Table.find?_modify]
  split
  · rw [Option.map_map]
    exact congrFun (congrArg Option.map (funext hdefinition)) _
  · rfl

theorem definitionId_put (version : JourneyVersion) (id : ℕ) :
    ((state.put version).versions.find? id).map JourneyVersion.definitionId =
      (state.versions.find? id).map JourneyVersion.definitionId := by
  have hretired : JourneyVersion.definitionId ∘ retiredBy version = JourneyVersion.definitionId := by
    funext row
    rw [Function.comp, retiredBy]
    split <;> rfl
  change (((state.versions.map (retiredBy version) (retiredBy_id version)).modify version.id
    (fun version => { version with status := .active }) fun _ => rfl).find? id).map _ = _
  rw [Table.find?_modify, Table.find?_map]
  split
  · rw [Option.map_map, Option.map_map]
    exact congrFun (congrArg Option.map hretired) _
  · rw [Option.map_map, hretired]

/-! ## What a step leaves -/

/-- All needs are met, and every activation under way has read the graph of its version and
compared the scopes that are not left to compare. -/
structure Supported (state : State) : Prop where
  met : ∀ need ∈ state.needs, need.isMet state.channels
  reads : ∀ activation ∈ state.activations.rows, activation.stage ≠ .over →
    (∃ version ∈ state.versions.rows, version.id = activation.versionId ∧
      version.graph = activation.graph) ∧
    activation.checked ++ activation.remaining = activation.graph.scopes
  complete : ∀ activation ∈ state.activations.rows, activation.stage = .tested →
    activation.remaining = []

/-- Where an activation comes to its end, everything stays supported. -/
theorem Supported.over (hsupported : Supported state) (id : ℕ) :
    Supported (state.atStage id .over) := by
  have hold : ∀ activation ∈ (state.atStage id .over).activations.rows,
      activation.stage ≠ .over → activation ∈ state.activations.rows := by
    intro activation hmem hstage
    obtain ⟨old, hrow, rfl⟩ := mem_atStage.mp hmem
    split at hstage
    case isTrue => exact absurd rfl hstage
    case isFalse hne =>
      rw [if_neg hne]
      exact hrow
  constructor
  · intro need hneed
    apply hsupported.met need
    rcases List.mem_append.mp hneed with hactive | hchecked
    · exact List.mem_append_left _ hactive
    · obtain ⟨activation, hmem, hstage, hfacts⟩ := mem_checkedNeeds.mp hchecked
      exact List.mem_append_right _
        (mem_checkedNeeds.mpr ⟨activation, hold activation hmem hstage, hstage, hfacts⟩)
  · intro activation hmem hstage
    exact hsupported.reads activation (hold activation hmem hstage) hstage
  · intro activation hmem hstage
    have hne : activation.stage ≠ .over := by
      rw [hstage]
      exact nofun
    exact hsupported.complete activation (hold activation hmem hne) hstage

/-- Where versions change that no activation has read, and none becomes active, everything stays
supported. -/
theorem Supported.of_versions (hsupported : Supported state)
    (hafter : after = { state with versions := after.versions })
    (hdefinition : ∀ id, (after.versions.find? id).map JourneyVersion.definitionId =
      (state.versions.find? id).map JourneyVersion.definitionId)
    (hactive : ∀ row ∈ after.versions.rows, row.status = .active → row ∈ state.versions.rows)
    (hreads : ∀ activation ∈ state.activations.rows, activation.stage ≠ .over →
      ∀ version ∈ state.versions.rows, version.id = activation.versionId →
        ∃ row ∈ after.versions.rows, row.id = version.id ∧ row.graph = version.graph) :
    Supported after := by
  have hactivations : after.activations = state.activations := by rw [hafter]
  have hdefinitions : after.definitions = state.definitions := by rw [hafter]
  have hchannels : after.channels = state.channels := by rw [hafter]
  constructor
  · intro need hneed
    rw [hchannels]
    apply hsupported.met need
    rcases List.mem_append.mp hneed with hactiveNeed | hchecked
    · obtain ⟨version, hmem, hstatus, htenant, hfacts⟩ := mem_activeNeeds.mp hactiveNeed
      have hsame : after.tenant? = state.tenant? := by
        unfold State.tenant?
        rw [hdefinitions]
      rw [hsame] at htenant
      exact List.mem_append_left _
        (mem_activeNeeds.mpr ⟨version, hactive version hmem hstatus, hstatus, htenant, hfacts⟩)
    · obtain ⟨activation, hmem, hstage, htenant, hfacts⟩ := mem_checkedNeeds.mp hchecked
      rw [hactivations] at hmem
      rw [tenantOf_eq hdefinitions hdefinition] at htenant
      exact List.mem_append_right _
        (mem_checkedNeeds.mpr ⟨activation, hmem, hstage, htenant, hfacts⟩)
  · intro activation hmem hstage
    rw [hactivations] at hmem
    obtain ⟨⟨version, hversion, hid, hgraph⟩, hscopes⟩ := hsupported.reads activation hmem hstage
    obtain ⟨row, hrow, hrowId, hrowGraph⟩ := hreads activation hmem hstage version hversion hid
    exact ⟨⟨row, hrow, hrowId.trans hid, hrowGraph.trans hgraph⟩, hscopes⟩
  · rw [hactivations]
    exact hsupported.complete

theorem retiredBy_graph (version other : JourneyVersion) :
    (retiredBy version other).graph = other.graph := by
  unfold retiredBy
  split <;> rfl

/-- Where an activation that has compared everything commits, everything stays supported. -/
theorem Supported.put (hsupported : Supported state) {activation : Activation}
    (hactivation : activation ∈ state.activations.rows) (hstage : activation.stage = .tested)
    {version : JourneyVersion} (hversion : version ∈ state.versions.rows)
    (hof : version.id = activation.versionId) : Supported (state.put version) := by
  have hunder : activation.stage ≠ .over := by
    rw [hstage]
    exact nofun
  have htenantOf : ∀ other, (state.put version).tenantOf other = state.tenantOf other :=
    tenantOf_eq rfl (definitionId_put version)
  obtain ⟨⟨read, hread, hreadId, hgraph⟩, hscopes⟩ :=
    hsupported.reads activation hactivation hunder
  obtain rfl : read = version :=
    state.versions.eq_of_key_eq hread hversion (hreadId.trans hof.symm)
  rw [hsupported.complete activation hactivation hstage, List.append_nil] at hscopes
  constructor
  · intro need hneed
    apply hsupported.met need
    rcases List.mem_append.mp hneed with hactive | hchecked
    · obtain ⟨row, hrow, hstatus, htenant, hnodes, hscope⟩ := mem_activeNeeds.mp hactive
      rcases active_put hversion hrow hstatus with rfl | ⟨hold, _⟩
      · apply List.mem_append_right
        refine mem_checkedNeeds.mpr ⟨activation, hactivation, hunder, ?_, ?_, ?_⟩
        · unfold State.tenantOf
          rw [← hof, Table.find?_key hversion]
          exact htenant
        · rw [hnodes, ← hgraph]
        · rw [hscopes, ← hgraph]
          exact hscope
      · exact List.mem_append_left _
          (mem_activeNeeds.mpr ⟨row, hold, hstatus, htenant, hnodes, hscope⟩)
    · obtain ⟨other, hmem, hother, htenant, hfacts⟩ := mem_checkedNeeds.mp hchecked
      rw [htenantOf] at htenant
      exact List.mem_append_right _ (mem_checkedNeeds.mpr ⟨other, hmem, hother, htenant, hfacts⟩)
  · intro other hmem hother
    obtain ⟨⟨row, hrow, hid, hsame⟩, hothers⟩ := hsupported.reads other hmem hother
    refine ⟨⟨_, List.mem_map_of_mem (List.mem_map_of_mem hrow), ?_, ?_⟩, hothers⟩
    · split <;> exact (retiredBy_id read row).trans hid
    · split <;> exact (retiredBy_graph read row).trans hsame
  · exact hsupported.complete

/-- Where the channels change so that all needs stay met, everything stays supported. -/
theorem Supported.of_channels (hsupported : Supported state) {channels : Channels}
    (hmet : ∀ need ∈ state.needs, need.isMet channels) :
    Supported { state with channels := channels } := by
  constructor
  · exact hmet
  · exact hsupported.reads
  · exact hsupported.complete

/-- A step that keeps what is needed keeps everything supported. -/
theorem Supported.step (hsupported : Supported state) (hkeeps : Keeps state event)
    (hstep : step state event = some after) : Supported after := by
  obtain ⟨hretires, hactivates, hedits⟩ := hkeeps
  cases event with
  | validate versionId =>
    obtain ⟨version, hversion, rfl⟩ := Option.map_eq_some_iff.mp hstep
    obtain ⟨hmem, hid⟩ := Table.find?_eq_some.mp hversion
    constructor
    · intro need hneed
      apply hsupported.met need
      rcases List.mem_append.mp hneed with hactive | hchecked
      · exact List.mem_append_left _ hactive
      · obtain ⟨activation, hrow, hstage, htenant, hnodes, hscope⟩ := mem_checkedNeeds.mp hchecked
        rcases List.mem_append.mp hrow with hold | hnew
        · exact List.mem_append_right _
            (mem_checkedNeeds.mpr ⟨activation, hold, hstage, htenant, hnodes, hscope⟩)
        · rw [List.mem_singleton.mp hnew] at hscope
          cases hscope
    · intro activation hrow hstage
      rcases List.mem_append.mp hrow with hold | hnew
      · exact hsupported.reads activation hold hstage
      · rw [List.mem_singleton.mp hnew]
        exact ⟨⟨version, hmem, hid, rfl⟩, rfl⟩
    · intro activation hrow hstage
      rcases List.mem_append.mp hrow with hold | hnew
      · exact hsupported.complete activation hold hstage
      · rw [List.mem_singleton.mp hnew] at hstage
        cases hstage
  | compare activationId =>
    obtain ⟨comparing, scope, rest, tenantId, hfound, hvalidating, hremaining, htenant, hafter⟩ :=
      compare_eq_some hstep
    obtain ⟨hcomparing, rfl⟩ := Log.find?_eq_some.mp hfound
    rcases hafter with rfl | ⟨hnone, rfl⟩
    · exact hsupported.over comparing.id
    · have hrows : ∀ activation ∈ (state.activations.modify comparing.id
          (fun activation =>
            { activation with checked := activation.checked ++ [scope], remaining := rest })
          fun _ => rfl).rows, activation ∈ state.activations.rows ∨ activation =
            { comparing with checked := comparing.checked ++ [scope], remaining := rest } := by
        intro activation hmem
        obtain ⟨old, hold, rfl⟩ := List.mem_map.mp hmem
        split
        case isTrue hid =>
          rw [state.activations.eq_of_serial_eq hold hcomparing hid]
          exact .inr rfl
        case isFalse => exact .inl hold
      have hunder : comparing.stage ≠ .over := by
        rw [hvalidating]
        exact nofun
      constructor
      · intro need hneed
        rcases List.mem_append.mp hneed with hactive | hchecked
        · exact hsupported.met need (List.mem_append_left _ hactive)
        · obtain ⟨activation, hmem, hstage, hof, hnodes, hscope⟩ := mem_checkedNeeds.mp hchecked
          rcases hrows activation hmem with hold | rfl
          · exact hsupported.met need (List.mem_append_right _
              (mem_checkedNeeds.mpr ⟨activation, hold, hstage, hof, hnodes, hscope⟩))
          · rcases List.mem_append.mp hscope with hbefore | hlast
            · exact hsupported.met need (List.mem_append_right _
                (mem_checkedNeeds.mpr ⟨comparing, hcomparing, hunder, hof, hnodes, hbefore⟩))
            · have hsame : need.tenantId = tenantId :=
                Option.some.inj (hof.symm.trans htenant)
              unfold Need.isMet
              rw [hsame, hnodes, List.mem_singleton.mp hlast]
              exact hnone
      · intro activation hmem hstage
        rcases hrows activation hmem with hold | rfl
        · exact hsupported.reads activation hold hstage
        · obtain ⟨hread, hscopes⟩ := hsupported.reads comparing hcomparing hunder
          refine ⟨hread, ?_⟩
          rw [← hscopes, hremaining, List.append_assoc]
          rfl
      · intro activation hmem hstage
        rcases hrows activation hmem with hold | rfl
        · exact hsupported.complete activation hold hstage
        · exact absurd (hstage.symm.trans hvalidating) nofun
  | test activationId catalogue =>
    obtain ⟨testing, version, hfound, hvalidating, hremaining, _, _, _, hafter⟩ :=
      test_eq_some hstep
    obtain ⟨htesting, rfl⟩ := Log.find?_eq_some.mp hfound
    rcases hafter with rfl | ⟨_, rfl⟩
    · exact hsupported.over testing.id
    · have hrows : ∀ activation ∈ (state.atStage testing.id .tested).activations.rows,
          activation ∈ state.activations.rows ∨
            activation = { testing with stage := .tested } := by
        intro activation hmem
        obtain ⟨old, hold, rfl⟩ := mem_atStage.mp hmem
        split
        case isTrue hid =>
          rw [state.activations.eq_of_serial_eq hold htesting hid]
          exact .inr rfl
        case isFalse => exact .inl hold
      have hunder : testing.stage ≠ .over := by
        rw [hvalidating]
        exact nofun
      constructor
      · intro need hneed
        apply hsupported.met need
        rcases List.mem_append.mp hneed with hactive | hchecked
        · exact List.mem_append_left _ hactive
        · obtain ⟨activation, hmem, hstage, hfacts⟩ := mem_checkedNeeds.mp hchecked
          apply List.mem_append_right
          rcases hrows activation hmem with hold | rfl
          · exact mem_checkedNeeds.mpr ⟨activation, hold, hstage, hfacts⟩
          · exact mem_checkedNeeds.mpr ⟨testing, htesting, hunder, hfacts⟩
      · intro activation hmem hstage
        rcases hrows activation hmem with hold | rfl
        · exact hsupported.reads activation hold hstage
        · exact hsupported.reads testing htesting hunder
      · intro activation hmem hstage
        rcases hrows activation hmem with hold | rfl
        · exact hsupported.complete activation hold hstage
        · exact hremaining
  | commit activationId =>
    obtain ⟨activation, version, hfound, hstage, hversion, rfl⟩ := commit_eq_some hstep
    obtain ⟨hmem, hid⟩ := Table.find?_eq_some.mp hversion
    exact (hsupported.put (Log.find?_eq_some.mp hfound).1 hstage hmem hid).over activationId
  | abandon activationId =>
    obtain ⟨activation, _, rfl⟩ := Option.map_eq_some_iff.mp hstep
    exact hsupported.over activationId
  | journey versionId action catalogue =>
    obtain ⟨version, hversion, hother, _, _, rfl⟩ := transitionVersion_eq_some hstep
    obtain ⟨hmem, rfl⟩ := Table.find?_eq_some.mp hversion
    have hstatus : ∀ row : JourneyVersion,
        ({ row with status := action.target } : JourneyVersion).status ≠ .active := by
      intro row
      cases action with
      | activate => exact absurd rfl hother
      | submit | approve | reject | retire => exact nofun
    apply hsupported.of_versions rfl
    · exact definitionId_modify (fun version => { version with status := action.target })
        (fun _ => rfl) fun _ => rfl
    · exact fun row hrow hactive => active_moved hstatus (fun _ => rfl) hrow hactive
    · intro activation _ _ row hrow _
      refine ⟨_, List.mem_map_of_mem hrow, ?_⟩
      split <;> exact ⟨rfl, rfl⟩
  | replaceGraph versionId graph =>
    obtain ⟨version, hversion, _, _, rfl⟩ := replaceGraph_eq_some hstep
    obtain ⟨hmem, rfl⟩ := Table.find?_eq_some.mp hversion
    have hstatus : ∀ row : JourneyVersion,
        ({ row with status := .draft, graph := stored graph } : JourneyVersion).status ≠ .active :=
      fun _ => nofun
    apply hsupported.of_versions rfl
    · exact definitionId_modify
        (fun version => { version with status := .draft, graph := stored graph })
        (fun _ => rfl) fun _ => rfl
    · exact fun row hrow hactive => active_moved hstatus (fun _ => rfl) hrow hactive
    · intro activation hactivation hstage row hrow hid
      refine ⟨_, List.mem_map_of_mem hrow, ?_⟩
      split
      case isTrue hedited =>
        exact absurd (hedits version.id rfl activation hactivation (hid.symm.trans hedited)) hstage
      case isFalse => exact ⟨rfl, rfl⟩
  | channel versionId action =>
    obtain ⟨channels, htransition, rfl⟩ := Option.map_eq_some_iff.mp hstep
    apply hsupported.of_channels
    intro need hneed
    apply isMet_of_transition htransition (hsupported.met need hneed)
    · rintro rfl version hversion hactive
      exact hretires versionId rfl version hversion hactive need hneed
    · rintro rfl version hversion hon
      exact hactivates versionId rfl version hversion need hneed hon
  | replaceChannel versionId countries capabilities =>
    obtain ⟨channels, hreplace, rfl⟩ := Option.map_eq_some_iff.mp hstep
    apply hsupported.of_channels
    intro need hneed
    exact isMet_of_replaceVersion hreplace (hsupported.met need hneed)

/-! ## Runs -/

/-- In every run from compatible active versions in which no active channel version is retired
that something is needed of, channel versions are activated only if they serve what is needed,
and no journey version is edited while it is activated, every active journey version stays
compatible with the channels. -/
theorem stays_executable {start : State} (hidle : start.activations.rows = [])
    (hstart : StaysExecutable start)
    (hrun : ReachesUnder Publishing.step Keeps start state) : StaysExecutable state := by
  have hopening : Supported start := by
    constructor
    · intro need hneed
      rcases List.mem_append.mp hneed with hactive | hchecked
      · obtain ⟨version, hmem, hstatus, htenant, hnodes, hscope⟩ := mem_activeNeeds.mp hactive
        have hnone := hstart version hmem hstatus need.tenantId htenant
        unfold Need.isMet
        rw [hnodes]
        exact List.flatMap_eq_nil_iff.mp hnone need.scope hscope
      · obtain ⟨activation, hmem, _⟩ := mem_checkedNeeds.mp hchecked
        rw [hidle] at hmem
        cases hmem
    · rw [hidle]
      exact fun _ hmem => absurd hmem List.not_mem_nil
    · rw [hidle]
      exact fun _ hmem => absurd hmem List.not_mem_nil
  have hsupported : Supported state := by
    apply ReachesUnder.preserves Supported _ hrun hopening
    intro before event after hbefore hkeeps hstep
    exact hbefore.step hkeeps hstep
  exact staysExecutable_of_needs hsupported.met

end

/-! ## A journey and its channels -/

/-- A journey is activated, and then the channels are changed. -/
def activated : List Event := testing 1 1 ++ [.commit 1]

theorem threeVersions_executable : StaysExecutable threeVersions := by
  have hquiet : ∀ version ∈ threeVersions.versions.rows, version.status = .approved := by
    decide
  intro version hmem hactive
  rw [hquiet version hmem] at hactive
  cases hactive

/-- The journey is activated while its channels are left to it. -/
theorem stays_executable_activated :
    ∃ state, ReachesUnder step Keeps threeVersions state ∧
      (∃ version ∈ state.versions.rows, version.status = .active) ∧ StaysExecutable state := by
  have hany : (runInputs (guardedStep step Keeps) threeVersions activated).any
      fun state => state.versions.rows.any fun version => version.status = .active := by
    decide +kernel
  obtain ⟨state, hrun, hactive⟩ := (Option.any_eq_true _ _).mp hany
  obtain ⟨version, hmem, hfacts⟩ := List.any_eq_true.mp hactive
  have hreach := (Reaches.of_runInputs hrun).under
  exact ⟨state, hreach, ⟨version, hmem, of_decide_eq_true hfacts⟩,
    stays_executable rfl threeVersions_executable hreach⟩

/-- The channel of an active journey is retired. -/
theorem retired_channel_strands :
    StaysExecutable threeVersions ∧ ∃ state, Reaches step threeVersions state ∧
      ¬ StaysExecutable state := by
  refine ⟨threeVersions_executable, ?_⟩
  have hany : (runInputs step threeVersions (activated ++ [.channel 1 .retire])).any fun state =>
      state.versions.rows.any fun version =>
        version.status = .active ∧ state.tenant? version.definitionId = some 1 ∧
          (validateJourneyCompatibility state.channels 1 version.graph).length = 1 := by
    decide +kernel
  obtain ⟨state, hrun, hrows⟩ := (Option.any_eq_true _ _).mp hany
  obtain ⟨version, hmem, hfacts⟩ := List.any_eq_true.mp hrows
  obtain ⟨hactive, htenant, hissues⟩ := of_decide_eq_true hfacts
  refine ⟨state, Reaches.of_runInputs hrun, fun hexecutable => ?_⟩
  rw [hexecutable version hmem hactive 1 htenant] at hissues
  cases hissues

end Finify.Onboarding.Publishing
