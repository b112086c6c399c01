/-
# The registry of pricing flows

`pricing_rule_flows` and the operations that `PricingFlowService` has on it.
Creating, editing and every transition but activation lock one row, and read and
write no other: each is one step, taken where the row is free.  An activation
locks its own row, reads the active rows, and at last retires those that compete
with it and writes its own row; other calls can come in between, so it is three
steps.  Bodies come as their checks leave them.
-/

import Finify.Foundations.Transition
import Finify.Foundations.Table
import Finify.Pricing.Flow

namespace Finify.Pricing

open Finify.Foundations

/-! ## Rows -/

/-- `status`. -/
inductive FlowStatus
  | draft
  | submitted
  | approved
  | active
  | retired
  | rejected
  deriving DecidableEq, Repr

/-- White space and line ends. -/
def isBlank (c : Char) : Bool :=
  (9 ≤ c.toNat && c.toNat ≤ 13) || (8192 ≤ c.toNat && c.toNat ≤ 8202) ||
    [32, 160, 5760, 8232, 8233, 8239, 8287, 12288, 65279].contains c.toNat

/-- `trim`. -/
def trim (text : String) : String :=
  .ofList ((text.toList.dropWhile isBlank).reverse.dropWhile isBlank).reverse

/-- An authenticated administrator, whose name is in ASCII. -/
structure Administrator where
  username : String
  username_ne : username ≠ ""
  deriving DecidableEq

/-- One administrator is taken for another if their names differ in case or
surrounding blanks only. -/
def Administrator.sameAs (first second : Administrator) : Bool :=
  (trim first.username).toLower = (trim second.username).toLower

/-- A row of `pricing_rule_flows`. -/
structure FlowRow where
  id : ℕ
  ruleCode : String
  version : ℕ
  name : String
  priority : ℤ
  status : FlowStatus
  definition : Definition
  createdBy : Administrator
  modifiedBy : Option Administrator := none
  approvedBy : Option Administrator := none

namespace FlowRow

def maker (row : FlowRow) : Administrator := row.modifiedBy.getD row.createdBy

/-- The columns of `UQ_ACTIVE_PRICING_RULE_FLOW`. -/
def indexKey (row : FlowRow) : String × Option ℤ × String :=
  (row.definition.keyword, row.definition.sourceWalletTypes.head?, row.definition.currency)

/-- Two flows apply to a common currency, keyword and source wallet type. -/
def Competes (first second : FlowRow) : Prop :=
  first.definition.currency = second.definition.currency ∧
    (∃ keyword ∈ first.definition.keywords, keyword ∈ second.definition.keywords) ∧
    ∃ source ∈ first.definition.sourceWalletTypes,
      source ∈ second.definition.sourceWalletTypes

instance (first second : FlowRow) : Decidable (first.Competes second) :=
  inferInstanceAs (Decidable (_ ∧ _))

theorem Competes.symm {first second : FlowRow} (hcompetes : first.Competes second) :
    second.Competes first := by
  obtain ⟨hcurrency, ⟨keyword, hfirst, hsecond⟩, source, hsource, hsource'⟩ := hcompetes
  exact ⟨hcurrency.symm, ⟨keyword, hsecond, hfirst⟩, source, hsource', hsource⟩

end FlowRow

/-- `action` of an audit record. -/
inductive AuditAction
  | create
  | update
  | submit
  | approve
  | activate
  | retire
  | reject
  deriving DecidableEq, Repr

/-- A record of `pricing_rule_flow_audit`.  `bypass` is the right that the call came
with, which the table does not keep. -/
structure Audit where
  action : AuditAction
  next : FlowRow
  actor : Administrator
  reason : Option String := none
  bypass : Bool := false

/-! ## Calls -/

/-- The body of `create`. -/
structure FlowInput where
  ruleCode : String
  name : String
  priority : ℤ
  definition : Definition

/-- The body of `update`. -/
structure FlowChange where
  name : Option String := none
  priority : Option ℤ := none
  definition : Option Definition := none

/-- What `transition` is asked for. -/
inductive FlowAction
  | submit
  | approve
  | activate
  | retire
  | reject
  deriving DecidableEq, Repr

namespace FlowAction

/-- `from`. -/
def sources : FlowAction → List FlowStatus
  | submit => [.draft, .rejected]
  | approve => [.submitted]
  | activate => [.approved]
  | retire => [.active, .approved]
  | reject => [.submitted]

/-- `to`. -/
def target : FlowAction → FlowStatus
  | submit => .submitted
  | approve => .approved
  | activate => .active
  | retire => .retired
  | reject => .rejected

def auditAction : FlowAction → AuditAction
  | submit => .submit
  | approve => .approve
  | activate => .activate
  | retire => .retire
  | reject => .reject

end FlowAction

def FlowInput.row (input : FlowInput) (id version : ℕ) (actor : Administrator) : FlowRow where
  id := id
  ruleCode := input.ruleCode
  version := version
  name := input.name
  priority := input.priority
  status := .draft
  definition := input.definition
  createdBy := actor

/-- The row after an edit, which is a draft again. -/
def FlowRow.edited (row : FlowRow) (change : FlowChange) (actor : Administrator) : FlowRow :=
  { row with
    name := change.name.getD row.name
    priority := change.priority.getD row.priority
    definition := change.definition.getD row.definition
    status := .draft
    modifiedBy := some actor
    approvedBy := none }

/-- The checks of `transition`. -/
def FlowRow.Admits (row : FlowRow) (action : FlowAction) (actor : Administrator)
    (reason : Option String) (bypass : Bool) : Prop :=
  row.status ∈ action.sources ∧
    (action = .approve → bypass = false → actor.sameAs row.maker = false) ∧
    (action = .reject → trim (reason.getD "") ≠ "")

instance (row : FlowRow) (action : FlowAction) (actor : Administrator) (reason : Option String)
    (bypass : Bool) : Decidable (row.Admits action actor reason bypass) :=
  inferInstanceAs (Decidable (_ ∧ _))

/-- The row after a transition. -/
def FlowRow.moved (row : FlowRow) (action : FlowAction) (actor : Administrator) : FlowRow :=
  { row with
    status := action.target
    approvedBy := if action = .approve then some actor else row.approvedBy }

/-! ## The registry -/

/-- An activation under way: the row that it has locked, and the active flows that it
found to compete with it, once it has looked. -/
structure Activation where
  row : FlowRow
  actor : Administrator
  reason : Option String
  conflicts : Option (List ℕ) := none

/-- The committed rows and audit records, the latest record first, and the
activations under way by the id of their row. -/
structure Registry where
  flows : Log FlowRow.id
  audits : List Audit
  activations : ℕ → Option Activation

namespace Registry

def empty : Registry where
  flows := .empty
  audits := []
  activations := fun _ => none

/-- `getForUpdate`, where no activation holds the row. -/
def getForUpdate (registry : Registry) (id : ℕ) : Option FlowRow :=
  match registry.activations id with
  | some _ => none
  | none => registry.flows.find? id

/-- `max(version) + 1`. -/
def nextVersion (registry : Registry) (ruleCode : String) : ℕ :=
  ((registry.flows.rows.filter fun row => row.ruleCode = ruleCode).map FlowRow.version).foldr
    max 0 + 1

def create (registry : Registry) (input : FlowInput) (actor : Administrator) : Registry :=
  let version := registry.nextVersion input.ruleCode
  { registry with
    flows := registry.flows.append (fun id => input.row id version actor) fun _ => rfl
    audits :=
      { action := .create, next := input.row registry.flows.next version actor, actor := actor } ::
        registry.audits }

/-- Write a row in place of the one with its id, with a record. -/
def write (registry : Registry) (audit : Audit) : Registry :=
  { registry with
    flows := registry.flows.map (fun row => if row.id = audit.next.id then audit.next else row)
      fun row => by split <;> simp [*]
    audits := audit :: registry.audits }

def update (registry : Registry) (id : ℕ) (change : FlowChange) (actor : Administrator) :
    Option Registry := do
  let row ← registry.getForUpdate id
  if row.status ∈ [FlowStatus.draft, FlowStatus.rejected] then
    some (registry.write { action := .update, next := row.edited change actor, actor := actor })
  else none

/-- Put an activation in its place, or take it away. -/
def setActivation (registry : Registry) (id : ℕ) (activation : Option Activation) : Registry :=
  { registry with activations := Function.update registry.activations id activation }

theorem setActivation_activations (registry : Registry) (id : ℕ) (activation : Option Activation)
    (other : ℕ) :
    (registry.setActivation id activation).activations other =
      if other = id then activation else registry.activations other := by
  simp [setActivation, Function.update_apply]

/-- `transition`, as far as it goes in one step. -/
def transition (registry : Registry) (id : ℕ) (action : FlowAction) (actor : Administrator)
    (reason : Option String) (bypass : Bool) : Option Registry := do
  let row ← registry.getForUpdate id
  if row.Admits action actor reason bypass then
    if action = .activate then
      some (registry.setActivation id (some { row := row, actor := actor, reason := reason }))
    else
      some (registry.write
        { action := action.auditAction, next := row.moved action actor, actor := actor,
          reason := reason, bypass := bypass })
  else none

def conflictsOf (registry : Registry) (row : FlowRow) : List ℕ :=
  (registry.flows.rows.filter fun other =>
    other.status = .active ∧ other.id ≠ row.id ∧ row.Competes other).map FlowRow.id

/-- The query for active rows. -/
def readActive (registry : Registry) (id : ℕ) : Option Registry := do
  let activation ← registry.activations id
  if activation.conflicts = none then
    some (registry.setActivation id
      (some { activation with conflicts := some (registry.conflictsOf activation.row) }))
  else none

/-- The unique index already has an active row like this one. -/
def IndexTaken (registry : Registry) (row : FlowRow) (conflicts : List ℕ) : Prop :=
  ∃ other ∈ registry.flows.rows, other.id ≠ row.id ∧ other.id ∉ conflicts ∧
    other.status = .active ∧ other.indexKey = row.indexKey

instance (registry : Registry) (row : FlowRow) (conflicts : List ℕ) :
    Decidable (registry.IndexTaken row conflicts) :=
  inferInstanceAs (Decidable (∃ other ∈ registry.flows.rows, _))

def activated (activation : Activation) (conflicts : List ℕ) (row : FlowRow) : FlowRow :=
  if row.id = activation.row.id then activation.row.moved .activate activation.actor
  else if row.id ∈ conflicts then { row with status := .retired }
  else row

@[simp] theorem activated_id (activation : Activation) (conflicts : List ℕ) (row : FlowRow) :
    (activated activation conflicts row).id = row.id := by
  unfold activated
  split
  case isTrue hown => exact hown.symm
  case isFalse => split <;> rfl

/-- The rows and the record that an activation writes. -/
def activate (registry : Registry) (activation : Activation) (conflicts : List ℕ) : Registry :=
  { registry with
    flows := registry.flows.map (activated activation conflicts)
      (activated_id activation conflicts)
    audits :=
      { action := .activate, next := activation.row.moved .activate activation.actor,
        actor := activation.actor, reason := activation.reason } :: registry.audits }

/-- The writes of an activation and its end.  It waits for rows that others hold, and
is rolled back where the unique index is violated. -/
def finish (registry : Registry) (id : ℕ) : Option Registry := do
  let activation ← registry.activations id
  let conflicts ← activation.conflicts
  if ∃ conflict ∈ conflicts, (registry.activations conflict).isSome then none
  else if registry.IndexTaken activation.row conflicts then
    some (registry.setActivation id none)
  else
    some ((registry.activate activation conflicts).setActivation id none)

end Registry

/-- A call, or the next step of an activation. -/
inductive FlowEvent
  | create (input : FlowInput) (actor : Administrator)
  | update (id : ℕ) (change : FlowChange) (actor : Administrator)
  | transition (id : ℕ) (action : FlowAction) (actor : Administrator)
      (reason : Option String) (bypass : Bool)
  | readActive (id : ℕ)
  | finish (id : ℕ)
  | rollback (id : ℕ)

def Registry.step (registry : Registry) : FlowEvent → Option Registry
  | .create input actor => some (registry.create input actor)
  | .update id change actor => registry.update id change actor
  | .transition id action actor reason bypass => registry.transition id action actor reason bypass
  | .readActive id => registry.readActive id
  | .finish id => registry.finish id
  | .rollback id => (registry.activations id).map fun _ => registry.setActivation id none

/-! ## What a step does -/

/-- The effects that an accepted step can have. -/
inductive Registry.Effect (before : Registry) : FlowEvent → Registry → Prop
  | created {event : FlowEvent} (input : FlowInput) (actor : Administrator) :
      Effect before event (before.create input actor)
  | edited {event : FlowEvent} {row : FlowRow} (change : FlowChange) (actor : Administrator)
      (hmem : row ∈ before.flows.rows) (hfree : before.activations row.id = none)
      (hstatus : row.status = .draft ∨ row.status = .rejected) :
      Effect before event (before.write
        { action := .update, next := row.edited change actor, actor := actor })
  | moved {event : FlowEvent} {row : FlowRow} {action : FlowAction} {actor : Administrator}
      {reason : Option String} {bypass : Bool} (hmem : row ∈ before.flows.rows)
      (hfree : before.activations row.id = none) (hadmits : row.Admits action actor reason bypass)
      (haction : action ≠ .activate) :
      Effect before event (before.write
        { action := action.auditAction, next := row.moved action actor, actor := actor,
          reason := reason, bypass := bypass })
  | locked {event : FlowEvent} {row : FlowRow} {actor : Administrator} {reason : Option String}
      (hmem : row ∈ before.flows.rows) (hfree : before.activations row.id = none)
      (hstatus : row.status = .approved) :
      Effect before event (before.setActivation row.id
        (some { row := row, actor := actor, reason := reason }))
  | read {id : ℕ} {activation : Activation} (hactivation : before.activations id = some activation)
      (hunread : activation.conflicts = none) :
      Effect before (.readActive id) (before.setActivation id
        (some { activation with conflicts := some (before.conflictsOf activation.row) }))
  | finished {event : FlowEvent} {id : ℕ} {activation : Activation} {conflicts : List ℕ}
      (hactivation : before.activations id = some activation)
      (hread : activation.conflicts = some conflicts)
      (hfree : ∀ conflict ∈ conflicts, before.activations conflict = none)
      (hindex : ¬ before.IndexTaken activation.row conflicts) :
      Effect before event ((before.activate activation conflicts).setActivation id none)
  | dropped {event : FlowEvent} (id : ℕ) : Effect before event (before.setActivation id none)

theorem Registry.getForUpdate_eq_some {registry : Registry} {id : ℕ} {row : FlowRow}
    (hrow : registry.getForUpdate id = some row) :
    row ∈ registry.flows.rows ∧ row.id = id ∧ registry.activations id = none := by
  unfold Registry.getForUpdate at hrow
  split at hrow
  case h_1 => cases hrow
  case h_2 hfree =>
    obtain ⟨hmem, hid⟩ := Log.find?_eq_some.mp hrow
    exact ⟨hmem, hid, hfree⟩

theorem Registry.transition_effect {before after : Registry} {id : ℕ} {action : FlowAction}
    {actor : Administrator} {reason : Option String} {bypass : Bool}
    (hstep : before.transition id action actor reason bypass = some after) :
    before.Effect (.transition id action actor reason bypass) after := by
  obtain ⟨row, hrow, hstep⟩ := Option.bind_eq_some_iff.mp hstep
  obtain ⟨hmem, rfl, hfree⟩ := Registry.getForUpdate_eq_some hrow
  obtain ⟨hadmits, hstep⟩ := Option.ite_none_right_eq_some.mp hstep
  split at hstep
  case isTrue haction =>
    cases hstep
    subst haction
    exact .locked hmem hfree (by simpa [FlowAction.sources] using hadmits.1)
  case isFalse haction =>
    cases hstep
    exact .moved hmem hfree hadmits haction

theorem Registry.update_effect {before after : Registry} {id : ℕ} {change : FlowChange}
    {actor : Administrator} (hstep : before.update id change actor = some after) :
    before.Effect (.update id change actor) after := by
  obtain ⟨row, hrow, hwrite⟩ := Option.bind_eq_some_iff.mp hstep
  obtain ⟨hmem, rfl, hfree⟩ := Registry.getForUpdate_eq_some hrow
  obtain ⟨hstatus, hwrite⟩ := Option.ite_none_right_eq_some.mp hwrite
  cases hwrite
  exact .edited change actor hmem hfree (by simpa using hstatus)

theorem Registry.readActive_effect {before after : Registry} {id : ℕ}
    (hstep : before.readActive id = some after) : before.Effect (.readActive id) after := by
  obtain ⟨activation, hactivation, hstep⟩ := Option.bind_eq_some_iff.mp hstep
  obtain ⟨hunread, hstep⟩ := Option.ite_none_right_eq_some.mp hstep
  cases hstep
  exact .read hactivation hunread

theorem Registry.finish_effect {before after : Registry} {id : ℕ}
    (hstep : before.finish id = some after) : before.Effect (.finish id) after := by
  obtain ⟨activation, hactivation, hstep⟩ := Option.bind_eq_some_iff.mp hstep
  obtain ⟨conflicts, hread, hstep⟩ := Option.bind_eq_some_iff.mp hstep
  obtain ⟨hfree, hstep⟩ := Option.ite_none_left_eq_some.mp hstep
  split at hstep
  case isTrue =>
    cases hstep
    exact .dropped id
  case isFalse hindex =>
    cases hstep
    refine .finished hactivation hread (fun conflict hconflict => ?_) hindex
    by_contra hheld
    exact hfree ⟨conflict, hconflict, Option.isSome_iff_ne_none.mpr hheld⟩

theorem Registry.step_effect {before after : Registry} {event : FlowEvent}
    (hstep : before.step event = some after) : before.Effect event after := by
  cases event with
  | create input actor =>
    cases hstep
    exact .created input actor
  | update id change actor => exact Registry.update_effect hstep
  | transition id action actor reason bypass => exact Registry.transition_effect hstep
  | readActive id => exact Registry.readActive_effect hstep
  | finish id => exact Registry.finish_effect hstep
  | rollback id =>
    obtain ⟨_, _, rfl⟩ := Option.map_eq_some_iff.mp hstep
    exact .dropped id

/-! ## Rows that are held -/

/-- Every activation under way holds an approved row of the table, as it read it. -/
def Registry.Held (registry : Registry) : Prop :=
  ∀ id activation, registry.activations id = some activation →
    activation.row ∈ registry.flows.rows ∧ activation.row.id = id ∧
      activation.row.status = .approved

theorem Registry.held_empty : Registry.empty.Held := by
  intro id activation hactivation
  cases hactivation

/-- A free row can be written without touching a held one. -/
theorem Registry.Held.write {registry : Registry} (hheld : registry.Held) {audit : Audit}
    (hfree : registry.activations audit.next.id = none) : (registry.write audit).Held := by
  intro id activation hactivation
  obtain ⟨hmem, hid, hstatus⟩ := hheld id activation hactivation
  refine ⟨List.mem_map.mpr ⟨activation.row, hmem, if_neg fun hsame => ?_⟩, hid, hstatus⟩
  have hactivation : registry.activations id = some activation := hactivation
  rw [← hsame, hid, hactivation] at hfree
  cases hfree

/-- An activation may begin, go on or end. -/
theorem Registry.Held.setActivation {registry : Registry} (hheld : registry.Held) {id : ℕ}
    {activation : Option Activation}
    (hrow : ∀ own ∈ activation, own.row ∈ registry.flows.rows ∧ own.row.id = id ∧
      own.row.status = .approved) : (registry.setActivation id activation).Held := by
  intro other found hfound
  rw [Registry.setActivation_activations] at hfound
  split at hfound
  case isTrue hsame =>
    subst hsame
    exact hrow found hfound
  case isFalse => exact hheld other found hfound

theorem Registry.Held.step {before after : Registry} {event : FlowEvent} (hheld : before.Held)
    (heffect : before.Effect event after) : after.Held := by
  cases heffect with
  | created input actor =>
    intro id activation hactivation
    obtain ⟨hmem, hrest⟩ := hheld id activation hactivation
    exact ⟨List.mem_append_left _ hmem, hrest⟩
  | edited change actor hmem hfree hstatus => exact hheld.write hfree
  | moved hmem hfree hadmits haction => exact hheld.write hfree
  | locked hmem hfree hstatus =>
    apply hheld.setActivation
    intro own hown
    obtain rfl := Option.some.inj hown
    exact ⟨hmem, rfl, hstatus⟩
  | @read id activation hactivation hunread =>
    apply hheld.setActivation
    intro own hown
    obtain rfl := Option.some.inj hown
    exact hheld id activation hactivation
  | dropped id => exact hheld.setActivation fun own hown => by cases hown
  | @finished _ own activation conflicts hactivation hread hfree hindex =>
    intro id other hother
    rw [Registry.setActivation_activations] at hother
    obtain ⟨hne, hother⟩ := Option.ite_none_left_eq_some.mp hother
    have hother : before.activations id = some other := hother
    obtain ⟨hmem, hid, hstatus⟩ := hheld id other hother
    have hown : activation.row.id = own := (hheld own activation hactivation).2.1
    refine ⟨List.mem_map.mpr ⟨other.row, hmem, ?_⟩, hid, hstatus⟩
    unfold Registry.activated
    rw [if_neg, if_neg]
    · intro hconflict
      have hnone := hfree _ hconflict
      rw [hid, hother] at hnone
      cases hnone
    · rw [hid, hown]
      exact hne

theorem Registry.held_run {registry : Registry}
    (hrun : Reaches Registry.step Registry.empty registry) : registry.Held :=
  hrun.preserves Registry.Held (fun _ _ _ hheld hstep => hheld.step (Registry.step_effect hstep))
    Registry.held_empty

end Finify.Pricing
