/-
# Four eyes over credit rules

Operations of the management of the credit rules that run at the same time, each of them one
statement after the other.  Beside the tables stands the history of who wrote and who approved
what.  An approval is compared with the creator only, and an operation does not look again at the
status that it has read, so that the two pairs of eyes hold only in runs without late writes and
without makers that approve.
-/

import Finify.Credit.Management
import Finify.Foundations.Marks
import Finify.Foundations.Transition

namespace Finify.Credit

open Finify.Foundations

/-! ## Operations that run together -/

/-- What an approval of a master is about: its fields and its rules. -/
abbrev MasterContent := MasterFields × List RuleFields

/-- The tables, the operations under way with their actors, and the histories. -/
structure State where
  db : Database := {}
  pending : List (String × Program) := []
  masterMarks : List (Mark ℕ String MasterContent) := []
  integrationMarks : List (Mark ℕ String IntegrationFields) := []
  providerMarks : List (Mark ℕ String ProviderFields) := []

def Database.rulesOf (db : Database) (masterId : ℕ) : List RuleFields :=
  (db.rules.rows.filter fun rule => rule.masterId = masterId).map Rule.fields

def Database.content (db : Database) (master : Master) : MasterContent :=
  (master.fields, db.rulesOf master.id)

/-- What a write does to a master.  A retirement writes the end of its period. -/
def Write.masterMark (db : Database) (actor : String) :
    Write → Option (Mark ℕ String MasterContent)
  | createMaster _ _ | cloneMaster _ => some (.wrote db.masters.next actor)
  | updateMaster id _ | addRule id _ | updateRule id _ _ | deleteRule id _ | retire id =>
    some (.wrote id actor)
  | approve id => (db.masters.find? id).map fun master => .approved id actor (db.content master)
  | _ => none

/-- What a write does to an integration: the approver has seen what the operation has read. -/
def Write.integrationMark (db : Database) (actor : String) :
    Write → Option (Mark ℕ String IntegrationFields)
  | createIntegration _ _ => some (.wrote db.integrations.next actor)
  | updateIntegration id _ => some (.wrote id actor)
  | approveIntegration id seen => some (.approved id actor seen)
  | _ => none

def Write.providerMark (db : Database) (actor : String) :
    Write → Option (Mark ℕ String ProviderFields)
  | createScoreProvider _ _ => some (.wrote db.providers.next actor)
  | updateScoreProvider id _ => some (.wrote id actor)
  | approveScoreProvider id seen => some (.approved id actor seen)
  | _ => none

/-- The tables and the histories after a write. -/
def State.perform (state : State) (actor : String) (now : ℤ) (write : Write) : Option State :=
  (write.perform state.db actor now).map fun db =>
    { state with
      db := db
      masterMarks := (write.masterMark state.db actor).toList ++ state.masterMarks
      integrationMarks := (write.integrationMark state.db actor).toList ++ state.integrationMarks
      providerMarks := (write.providerMark state.db actor).toList ++ state.providerMarks }

/-- An actor calls the service, or an operation takes its next statement. -/
inductive Event
  | call (call : Call) (actor : String)
  | proceed (index : ℕ) (now : ℤ)

def step (checks : Checks) (state : State) : Event → Option State
  | .call call actor =>
    some { state with pending := state.pending ++ [(actor, call.program checks actor)] }
  | .proceed index now =>
    match state.pending[index]? with
    | some (actor, .look next) =>
      some { state with pending := state.pending.set index (actor, next state.db) }
    | some (actor, .write write) =>
      (state.perform actor now write).map fun after =>
        { after with pending := state.pending.set index (actor, .fail) }
    | _ => none

/-! ## The two pairs of eyes -/

/-- Every active master has the content that it had when it was approved, by somebody who wrote
nothing of it; every active integration and provider has the content that its approver saw, and
was last written by somebody else. -/
def FourEyes (state : State) : Prop :=
  (∀ master ∈ state.db.masters.rows, master.status = .active →
    ∃ actor, Mark.approval? master.id state.masterMarks = some (actor, state.db.content master) ∧
      master.approvedBy = some actor ∧ actor ∉ Mark.writers master.id state.masterMarks) ∧
  (∀ row ∈ state.db.integrations.rows, row.isActive →
    ∃ actor, Mark.approval? row.id state.integrationMarks = some (actor, row.fields) ∧
      row.approvedBy = some actor ∧
      (Mark.writers row.id state.integrationMarks).head? ≠ some actor) ∧
  (∀ row ∈ state.db.providers.rows, row.isActive →
    ∃ actor, Mark.approval? row.id state.providerMarks = some (actor, row.fields) ∧
      row.approvedBy = some actor ∧
      (Mark.writers row.id state.providerMarks).head? ≠ some actor)

def State.isIdle (state : State) (masterId : ℕ) : Prop :=
  ∀ master ∈ state.db.masters.find? masterId, master.status ≠ .active

/-- A write leaves the two pairs of eyes: a master is approved by somebody who wrote nothing of
it; no rule of an active master is written; a master is activated only if nothing of it was
written since its approval and if the start of its period is set; an integration or a provider is
approved as it was read, and by somebody else than its last writer; and no provider whose approval
stands loses to another one that it is the default. -/
def Allowed (state : State) (actor : String) : Write → Prop
  | .approve id => actor ∉ Mark.writers id state.masterMarks
  | .addRule id _ => state.isIdle id
  | .updateRule id _ _ => state.isIdle id
  | .deleteRule id _ => state.isIdle id
  | .activate current =>
    (Mark.standing? current.id state.masterMarks).isSome ∧
      ∀ master ∈ state.db.masters.find? current.id, master.fields.effectiveFrom.isSome
  | .approveIntegration id seen =>
    (∀ row ∈ state.db.integrations.find? id, row.fields = seen) ∧
      (Mark.writers id state.integrationMarks).head? ≠ some actor
  | .approveScoreProvider id seen =>
    ((∀ row ∈ state.db.providers.find? id, row.fields = seen) ∧
      (Mark.writers id state.providerMarks).head? ≠ some actor) ∧
      (seen.isDefault → ∀ other ∈ state.db.providers.rows, other.id ≠ id →
        other.fields.isDefault → Mark.standing? other.id state.providerMarks = none)
  | _ => True

instance (state : State) (masterId : ℕ) : Decidable (state.isIdle masterId) :=
  inferInstanceAs (Decidable
    (∀ master ∈ state.db.masters.find? masterId, master.status ≠ .active))

instance (state : State) (actor : String) (write : Write) : Decidable (Allowed state actor write) :=
  match write with
  | .approve id => inferInstanceAs (Decidable (actor ∉ Mark.writers id state.masterMarks))
  | .addRule id _ => inferInstanceAs (Decidable (state.isIdle id))
  | .updateRule id _ _ => inferInstanceAs (Decidable (state.isIdle id))
  | .deleteRule id _ => inferInstanceAs (Decidable (state.isIdle id))
  | .activate current =>
    inferInstanceAs (Decidable ((Mark.standing? current.id state.masterMarks).isSome = true ∧
      ∀ master ∈ state.db.masters.find? current.id, master.fields.effectiveFrom.isSome = true))
  | .approveIntegration id seen =>
    inferInstanceAs (Decidable ((∀ row ∈ state.db.integrations.find? id, row.fields = seen) ∧
      (Mark.writers id state.integrationMarks).head? ≠ some actor))
  | .approveScoreProvider id seen =>
    inferInstanceAs (Decidable (((∀ row ∈ state.db.providers.find? id, row.fields = seen) ∧
      (Mark.writers id state.providerMarks).head? ≠ some actor) ∧
      (seen.isDefault = true → ∀ other ∈ state.db.providers.rows, other.id ≠ id →
        other.fields.isDefault = true →
          (Mark.standing? other.id state.providerMarks) = none)))
  | .createIntegration _ _ | .updateIntegration _ _ | .createScoreProvider _ _
  | .updateScoreProvider _ _ | .createMaster _ _ | .updateMaster _ _ | .cloneMaster _
  | .submit _ | .reject _ _ | .retire _ => inferInstanceAs (Decidable True)

def State.write? (state : State) : Event → Option (String × Write)
  | .call _ _ => none
  | .proceed index _ =>
    match state.pending[index]? with
    | some (actor, .write write) => some (actor, write)
    | _ => none

/-- What an event writes leaves the two pairs of eyes. -/
def Leaves (state : State) (event : Event) : Prop :=
  ∀ write ∈ state.write? event, Allowed state write.1 write.2

instance (state : State) (event : Event) : Decidable (Leaves state event) :=
  inferInstanceAs (Decidable (∀ write ∈ state.write? event, Allowed state write.1 write.2))

/-! ## Agreement with the histories -/

/-- How masters are read. -/
def masterView (db : Database) : RowView Master ℕ String MasterContent where
  key := Master.id
  content := db.content
  approver := Master.approvedBy
  live master := master.status = .active

/-- How integrations are read. -/
def integrationView : RowView Integration ℕ String IntegrationFields where
  key := Integration.id
  content := Integration.fields
  approver := Integration.approvedBy
  live row := row.isActive

/-- How providers are read. -/
def providerView : RowView Provider ℕ String ProviderFields where
  key := Provider.id
  content := Provider.fields
  approver := Provider.approvedBy
  live row := row.isActive

/-- The tables agree with the histories. -/
structure Agrees (state : State) : Prop where
  masters : Kept (masterView state.db) (fun actor authors => actor ∉ authors)
    state.db.masters.rows state.masterMarks
  integrations : Kept integrationView (fun actor authors => authors.head? ≠ some actor)
    state.db.integrations.rows state.integrationMarks
  providers : Kept providerView (fun actor authors => authors.head? ≠ some actor)
    state.db.providers.rows state.providerMarks

theorem Agrees.fourEyes {state : State} (hagrees : Agrees state) : FourEyes state := by
  refine ⟨?_, ?_, ?_⟩
  · intro master hmaster hactive
    exact hagrees.masters.of_live hmaster hactive
  · intro row hrow hactive
    exact hagrees.integrations.of_live hrow hactive
  · intro row hrow hactive
    exact hagrees.providers.of_live hrow hactive

/-! ## Masters -/

section

variable {state : State} {db after : Database} {actor : String} {now : ℤ}
  {history : List (Mark ℕ String MasterContent)} {mark : Option (Mark ℕ String MasterContent)}

abbrev FollowsMaster (db after : Database) (history : List (Mark ℕ String MasterContent))
    (mark : Option (Mark ℕ String MasterContent)) (row : Master) : Prop :=
  Follows (masterView db) (masterView after) (fun actor authors => actor ∉ authors)
    db.masters.rows history mark row

/-- A row whose content is as before. -/
theorem follows_of_same {row old : Master} (hold : old ∈ db.masters.rows) (hid : row.id = old.id)
    (happrover : row.approvedBy = old.approvedBy) (hfields : row.fields = old.fields)
    (hrules : after.rulesOf old.id = db.rulesOf old.id)
    (hmark : ∀ made ∈ mark, made.key ≠ old.id)
    (hlive : row.status = .active →
      old.status = .active ∨ (Mark.standing? old.id history).isSome) :
    FollowsMaster db after history mark row := by
  refine .kept old hold hid hmark happrover (fun _ => ?_) hlive
  show (row.fields, after.rulesOf row.id) = (old.fields, db.rulesOf old.id)
  rw [hfields, hid, hrules]

/-- A write elsewhere leaves the masters as they were. -/
theorem follows_elsewhere (hmasters : after.masters = db.masters)
    (hrules : after.rules = db.rules) :
    ∀ row ∈ after.masters.rows, FollowsMaster db after history none row := by
  intro row hrow
  rw [hmasters] at hrow
  refine follows_of_same hrow rfl rfl rfl ?_ (by simp) .inl
  rw [Database.rulesOf, Database.rulesOf, hrules]

/-- A write of the rules of a master that is not active. -/
theorem follows_rules {masterId : ℕ} (hmasters : after.masters = db.masters)
    (hrules : ∀ other, other ≠ masterId → after.rulesOf other = db.rulesOf other)
    (hidle : ∀ master ∈ db.masters.find? masterId, master.status ≠ .active) :
    ∀ row ∈ after.masters.rows,
      FollowsMaster db after history (some (.wrote masterId actor)) row := by
  intro row hrow
  rw [hmasters] at hrow
  by_cases hid : row.id = masterId
  · subst hid
    exact .written actor rfl (hidle row (Log.find?_eq_some.mpr ⟨hrow, rfl⟩))
  · refine follows_of_same hrow rfl rfl rfl (hrules row.id hid) ?_ .inl
    intro made hmade
    cases hmade
    exact Ne.symm hid

theorem rulesOf_addRule {masterId other : ℕ} {fields : RuleFields}
    (hadd : db.addRule masterId fields actor = some after) (hne : other ≠ masterId) :
    after.rulesOf other = db.rulesOf other := by
  rw [Database.addRule, Option.ite_none_right_eq_some] at hadd
  obtain ⟨-, hafter⟩ := hadd
  cases hafter
  simp [Database.rulesOf, Ne.symm hne]

theorem rulesOf_updateRule {masterId ruleId other : ℕ} {fields : RuleFields}
    (hupdate : db.updateRule masterId ruleId fields actor = some after)
    (hne : other ≠ masterId) : after.rulesOf other = db.rulesOf other := by
  rw [Database.updateRule, Option.ite_none_right_eq_some] at hupdate
  obtain ⟨-, hafter⟩ := hupdate
  cases hafter
  simp only [Database.rulesOf, Log.rows_map]
  -- a rule of another master is not the one that is written
  induction db.rules.rows with
  | nil => rfl
  | cons rule rules ih =>
    have hmaster : (Database.rewritten masterId ruleId fields actor rule).masterId =
        rule.masterId := by
      unfold Database.rewritten
      split <;> rfl
    by_cases hother : rule.masterId = other
    · have hkept : Database.rewritten masterId ruleId fields actor rule = rule := by
        apply if_neg
        intro hwritten
        exact hne (hother.symm.trans hwritten.2)
      simp only [List.map_cons, List.filter_cons, hkept, hother, decide_true, if_true, ih]
    · simp only [List.map_cons, List.filter_cons, hmaster, hother, decide_false,
        Bool.false_eq_true, if_false, ih]

theorem rulesOf_deleteRule {masterId ruleId other : ℕ} (hne : other ≠ masterId) :
    (db.deleteRule masterId ruleId).rulesOf other = db.rulesOf other := by
  simp only [Database.deleteRule, Database.rulesOf, Log.rows_filter, List.filter_filter]
  congr 1
  apply List.filter_congr
  intro rule hrule
  by_cases hother : rule.masterId = other
  · simp [hother, hne]
  · simp [hother]

/-- The rewriting of one master that leaves its content and its approver. -/
theorem follows_modify {masterId : ℕ} {change : Master → Master}
    (hrows : after.masters.rows =
      db.masters.rows.map fun row => if row.id = masterId then change row else row)
    (hchange : ∀ row, (change row).id = row.id)
    (hrules : after.rules = db.rules)
    (hfields : ∀ row ∈ db.masters.rows, row.id = masterId → (change row).fields = row.fields)
    (happrover : ∀ row, (change row).approvedBy = row.approvedBy)
    (hlive : ∀ row, (change row).status ≠ .active) :
    ∀ row ∈ after.masters.rows, FollowsMaster db after history none row := by
  intro row hrow
  rw [hrows] at hrow
  obtain ⟨old, hold, rfl⟩ := List.mem_map.mp hrow
  have hsame : after.rulesOf old.id = db.rulesOf old.id := by
    rw [Database.rulesOf, Database.rulesOf, hrules]
  by_cases hid : old.id = masterId
  · rw [if_pos hid]
    exact follows_of_same hold (hchange old) (happrover old) (hfields old hold hid) hsame (by simp)
      fun h => absurd h (hlive old)
  · rw [if_neg hid]
    exact follows_of_same hold rfl rfl rfl hsame (by simp) .inl

/-- The rewriting of one master that is not active after it. -/
theorem follows_written {masterId : ℕ} {change : Master → Master}
    (hrows : after.masters.rows =
      db.masters.rows.map fun row => if row.id = masterId then change row else row)
    (hchange : ∀ row, (change row).id = row.id)
    (hrules : after.rules = db.rules) (hlive : ∀ row, (change row).status ≠ .active) :
    ∀ row ∈ after.masters.rows,
      FollowsMaster db after history (some (.wrote masterId actor)) row := by
  intro row hrow
  rw [hrows] at hrow
  obtain ⟨old, hold, rfl⟩ := List.mem_map.mp hrow
  by_cases hid : old.id = masterId
  · rw [if_pos hid]
    refine .written actor ?_ (hlive old)
    rw [← hid, ← hchange old]
    rfl
  · rw [if_neg hid]
    refine follows_of_same hold rfl rfl rfl ?_ ?_ .inl
    · rw [Database.rulesOf, Database.rulesOf, hrules]
    · intro made hmade
      cases hmade
      exact Ne.symm hid

/-- A new master, with rules of its own. -/
theorem follows_append {fresh : Master} (hrows : after.masters.rows = db.masters.rows ++ [fresh])
    (hfresh : fresh.id = db.masters.next) (hdraft : fresh.status = .draft)
    (hrules : ∀ other, other ≠ db.masters.next → after.rulesOf other = db.rulesOf other) :
    ∀ row ∈ after.masters.rows,
      FollowsMaster db after history (some (.wrote db.masters.next actor)) row := by
  intro row hrow
  rw [hrows] at hrow
  rcases List.mem_append.mp hrow with hold | hnew
  · have hne : row.id ≠ db.masters.next := (db.masters.below row hold).ne
    refine follows_of_same hold rfl rfl rfl (hrules row.id hne) ?_ .inl
    intro made hmade
    cases hmade
    exact hne.symm
  · rw [List.mem_singleton.mp hnew, ← hfresh]
    refine .written actor rfl ?_
    show fresh.status ≠ .active
    rw [hdraft]
    exact nofun

theorem follows_approve {masterId : ℕ} (happrove : db.approve masterId actor = some after)
    (hindependent : actor ∉ Mark.writers masterId history) :
    ∀ row ∈ after.masters.rows,
      FollowsMaster db after history ((Write.approve masterId).masterMark db actor) row := by
  rw [Database.approve, Option.bind_eq_some_iff] at happrove
  obtain ⟨middle, hmiddle, hafter⟩ := happrove
  rw [Database.decideRequest, Option.ite_none_right_eq_some] at hmiddle
  obtain ⟨-, hmiddle⟩ := hmiddle
  cases hmiddle
  rw [Option.ite_none_right_eq_some] at hafter
  obtain ⟨-, hafter⟩ := hafter
  cases hafter
  intro row hrow
  obtain ⟨old, hold, rfl⟩ := List.mem_map.mp hrow
  by_cases hid : old.id = masterId
  · rw [if_pos hid]
    have hfind : db.masters.find? masterId = some old := Log.find?_eq_some.mpr ⟨hold, hid⟩
    refine .approved actor ?_ rfl ?_
    · rw [Write.masterMark, hfind, ← hid]
      rfl
    · rw [← hid] at hindependent
      exact hindependent
  · rw [if_neg hid]
    refine follows_of_same hold rfl rfl rfl rfl ?_ .inl
    intro made hmade
    obtain ⟨master, hmaster, rfl⟩ := Option.map_eq_some_iff.mp hmade
    exact Ne.symm hid

theorem follows_activate {current : Master} (hactivate : db.activate current actor now = some after)
    (hstanding : (Mark.standing? current.id history).isSome)
    (hstart : ∀ master ∈ db.masters.find? current.id, master.fields.effectiveFrom.isSome) :
    ∀ row ∈ after.masters.rows, FollowsMaster db after history none row := by
  rw [Database.activate, Option.ite_none_right_eq_some] at hactivate
  obtain ⟨-, hafter⟩ := hactivate
  cases hafter
  intro row hrow
  obtain ⟨middle, hmiddle, rfl⟩ := List.mem_map.mp hrow
  obtain ⟨old, hold, rfl⟩ := List.mem_map.mp hmiddle
  have hreplaced : (current.replacedBy old).approvedBy = old.approvedBy ∧
      (current.replacedBy old).fields = old.fields ∧
      ((current.replacedBy old).status = .active → old.status = .active) := by
    unfold Master.replacedBy
    split
    · exact ⟨rfl, rfl, fun h => (nomatch h)⟩
    · exact ⟨rfl, rfl, id⟩
  by_cases hid : old.id = current.id
  · rw [if_pos ((current.replacedBy_id old).trans hid)]
    refine follows_of_same hold (current.replacedBy_id old) hreplaced.1 ?_ rfl (by simp) ?_
    · obtain ⟨start, hset⟩ := Option.isSome_iff_exists.mp
        (hstart old (Log.find?_eq_some.mpr ⟨hold, hid⟩))
      show { (current.replacedBy old).fields with
        effectiveFrom := some ((current.replacedBy old).fields.effectiveFrom.getD now) } =
          old.fields
      rw [hreplaced.2.1, hset, Option.getD_some, ← hset]
    · intro _
      rw [hid]
      exact .inr hstanding
  · rw [if_neg fun h => hid ((current.replacedBy_id old).symm.trans h)]
    exact follows_of_same hold (current.replacedBy_id old) hreplaced.1 hreplaced.2.1 rfl (by simp)
      fun h => .inl (hreplaced.2.2 h)

/-- What an admitted write does to the masters. -/
theorem masters_follow {write : Write} (hwrite : write.perform state.db actor now = some after)
    (hallowed : Allowed state actor write) :
    ∀ row ∈ after.masters.rows,
      FollowsMaster state.db after state.masterMarks (write.masterMark state.db actor) row := by
  cases write with
  | createIntegration code fields | updateIntegration id fields | approveIntegration id seen
  | createScoreProvider code fields | updateScoreProvider id fields
  | approveScoreProvider id seen =>
    have hafter := (Option.ite_none_right_eq_some.mp hwrite).2
    cases hafter
    exact follows_elsewhere rfl rfl
  | createMaster ruleCode fields =>
    have hafter := (Option.ite_none_right_eq_some.mp hwrite).2
    cases hafter
    exact follows_append rfl rfl rfl fun _ _ => rfl
  | updateMaster id fields | retire masterId =>
    have hafter := (Option.ite_none_right_eq_some.mp hwrite).2
    cases hafter
    exact follows_written rfl (fun _ => rfl) rfl fun _ hactive => by cases hactive
  | cloneMaster source =>
    change state.db.cloneMaster source actor = some after at hwrite
    rw [Database.cloneMaster] at hwrite
    cases hfind : state.db.masters.find? source.id with
    | none => simp [hfind] at hwrite
    | some current =>
      simp only [hfind, Option.some.injEq] at hwrite
      subst hwrite
      refine follows_append rfl rfl rfl ?_
      intro other hne
      simp only [Database.rulesOf]
      rw [Log.filter_appendEach]
      intro rule id
      simpa using hne.symm
  | addRule masterId fields =>
    have hafter := (Option.ite_none_right_eq_some.mp hwrite).2
    refine follows_rules (by cases hafter; rfl) (fun other => rulesOf_addRule hwrite) hallowed
  | updateRule masterId ruleId fields =>
    have hafter := (Option.ite_none_right_eq_some.mp hwrite).2
    refine follows_rules (by cases hafter; rfl) (fun other => rulesOf_updateRule hwrite) hallowed
  | deleteRule masterId ruleId =>
    cases hwrite
    exact follows_rules rfl (fun other => rulesOf_deleteRule) hallowed
  | submit masterId =>
    have hafter := (Option.ite_none_right_eq_some.mp hwrite).2
    cases hafter
    exact follows_modify rfl (fun _ => rfl) rfl (fun _ _ _ => rfl) (fun _ => rfl)
      fun _ hactive => by cases hactive
  | approve masterId => exact follows_approve hwrite hallowed
  | reject masterId reason =>
    obtain ⟨middle, hmiddle, rfl⟩ := Option.map_eq_some_iff.mp hwrite
    have hafter := (Option.ite_none_right_eq_some.mp hmiddle).2
    cases hafter
    exact follows_modify rfl (fun _ => rfl) rfl (fun _ _ _ => rfl) (fun _ => rfl)
      fun _ hactive => by cases hactive
  | activate current => exact follows_activate hwrite hallowed.1 hallowed.2

end

/-! ## Integrations and providers -/

section

variable {state : State} {db after : Database} {actor : String} {now : ℤ} {write : Write}

/-- A write leaves the integrations and the providers as they were unless it is one of theirs. -/
theorem frame_of_perform (hwrite : write.perform db actor now = some after) :
    (write.integrationMark db actor = none → after.integrations = db.integrations) ∧
      (write.providerMark db actor = none → after.providers = db.providers) := by
  cases write with
  | createIntegration code fields | updateIntegration id fields | approveIntegration id seen =>
    have hafter := (Option.ite_none_right_eq_some.mp hwrite).2
    cases hafter
    exact ⟨fun h => (nomatch h), fun _ => rfl⟩
  | createScoreProvider code fields | updateScoreProvider id fields
  | approveScoreProvider id seen =>
    have hafter := (Option.ite_none_right_eq_some.mp hwrite).2
    cases hafter
    exact ⟨fun _ => rfl, fun h => (nomatch h)⟩
  | createMaster ruleCode fields | updateMaster id fields | addRule masterId fields
  | updateRule masterId ruleId fields | submit masterId | activate current | retire masterId =>
    have hafter := (Option.ite_none_right_eq_some.mp hwrite).2
    cases hafter
    exact ⟨fun _ => rfl, fun _ => rfl⟩
  | cloneMaster source =>
    change db.cloneMaster source actor = some after at hwrite
    rw [Database.cloneMaster] at hwrite
    cases hfind : db.masters.find? source.id with
    | none => simp [hfind] at hwrite
    | some current =>
      simp only [hfind, Option.some.injEq] at hwrite
      subst hwrite
      exact ⟨fun _ => rfl, fun _ => rfl⟩
  | deleteRule masterId ruleId =>
    cases hwrite
    exact ⟨fun _ => rfl, fun _ => rfl⟩
  | approve masterId =>
    obtain ⟨middle, hmiddle, hlast⟩ := Option.bind_eq_some_iff.mp hwrite
    have hfirst := (Option.ite_none_right_eq_some.mp hmiddle).2
    have hafter := (Option.ite_none_right_eq_some.mp hlast).2
    cases hfirst
    cases hafter
    exact ⟨fun _ => rfl, fun _ => rfl⟩
  | reject masterId reason =>
    obtain ⟨middle, hmiddle, rfl⟩ := Option.map_eq_some_iff.mp hwrite
    have hfirst := (Option.ite_none_right_eq_some.mp hmiddle).2
    cases hfirst
    exact ⟨fun _ => rfl, fun _ => rfl⟩

abbrev FollowsIntegration (state : State) (mark : Option (Mark ℕ String IntegrationFields))
    (row : Integration) : Prop :=
  Follows integrationView integrationView (fun actor authors => authors.head? ≠ some actor)
    state.db.integrations.rows state.integrationMarks mark row

theorem integration_kept {mark : Option (Mark ℕ String IntegrationFields)} {row : Integration}
    (hold : row ∈ state.db.integrations.rows) (hmark : ∀ made ∈ mark, made.key ≠ row.id) :
    FollowsIntegration state mark row :=
  .kept row hold rfl hmark rfl (fun _ => rfl) .inl

/-- What an admitted write does to the integrations. -/
theorem integrations_follow (hwrite : write.perform state.db actor now = some after)
    (hallowed : Allowed state actor write) :
    ∀ row ∈ after.integrations.rows,
      FollowsIntegration state (write.integrationMark state.db actor) row := by
  intro row hrow
  have hsame := (frame_of_perform hwrite).1
  cases write with
  | createIntegration code fields =>
    have hafter := (Option.ite_none_right_eq_some.mp hwrite).2
    cases hafter
    rcases List.mem_append.mp hrow with hold | hnew
    · apply integration_kept hold
      intro made hmade
      cases hmade
      exact (state.db.integrations.below row hold).ne'
    · rw [List.mem_singleton.mp hnew]
      exact .written actor rfl (by simp [integrationView])
  | updateIntegration id fields =>
    have hafter := (Option.ite_none_right_eq_some.mp hwrite).2
    cases hafter
    obtain ⟨old, hold, rfl⟩ := List.mem_map.mp hrow
    by_cases hid : old.id = id
    · rw [if_pos hid, ← hid]
      exact .written actor rfl (by simp [integrationView])
    · rw [if_neg hid]
      apply integration_kept hold
      intro made hmade
      cases hmade
      exact Ne.symm hid
  | approveIntegration id seen =>
    have hafter := (Option.ite_none_right_eq_some.mp hwrite).2
    cases hafter
    obtain ⟨old, hold, rfl⟩ := List.mem_map.mp hrow
    by_cases hid : old.id = id
    · have hseen := hallowed.1 old (Log.find?_eq_some.mpr ⟨hold, hid⟩)
      rw [if_pos hid, ← hid, ← hseen]
      refine .approved actor rfl rfl ?_
      have hindependent := hallowed.2
      rw [← hid] at hindependent
      exact hindependent
    · rw [if_neg hid]
      apply integration_kept hold
      intro made hmade
      cases hmade
      exact Ne.symm hid
  | createScoreProvider _ _ | updateScoreProvider _ _ | approveScoreProvider _ _
  | createMaster _ _ | updateMaster _ _ | cloneMaster _ | addRule _ _ | updateRule _ _ _
  | deleteRule _ _ | submit _ | approve _ | reject _ _ | activate _ | retire _ =>
    rw [hsame rfl] at hrow
    exact integration_kept hrow (by simp [Write.integrationMark])

abbrev FollowsProvider (state : State) (mark : Option (Mark ℕ String ProviderFields))
    (row : Provider) : Prop :=
  Follows providerView providerView (fun actor authors => authors.head? ≠ some actor)
    state.db.providers.rows state.providerMarks mark row

theorem provider_kept {mark : Option (Mark ℕ String ProviderFields)} {row : Provider}
    (hold : row ∈ state.db.providers.rows) (hmark : ∀ made ∈ mark, made.key ≠ row.id) :
    FollowsProvider state mark row :=
  .kept row hold rfl hmark rfl (fun _ => rfl) .inl

theorem undefaulted_self (row : Provider) : Database.undefaulted row.id row = row := by
  apply if_neg
  intro h
  exact h.2 rfl

theorem undefaulted_isActive (id : ℕ) (row : Provider) :
    (Database.undefaulted id row).isActive = row.isActive := by
  unfold Database.undefaulted
  split <;> rfl

theorem undefaulted_approvedBy (id : ℕ) (row : Provider) :
    (Database.undefaulted id row).approvedBy = row.approvedBy := by
  unfold Database.undefaulted
  split <;> rfl

/-- The providers after an approval: the approved one, and the others, that may have lost to be
the default. -/
theorem mem_approveScoreProvider {id : ℕ} {isDefault : Bool}
    (happrove : db.approveScoreProvider id isDefault actor = some after) {row : Provider}
    (hrow : row ∈ after.providers.rows) :
    ∃ old ∈ db.providers.rows,
      (old.id = id ∧ row = { old with isActive := true, approvedBy := some actor }) ∨
      (old.id ≠ id ∧ (row = old ∨ (isDefault ∧ row = Database.undefaulted id old))) := by
  have hafter := (Option.ite_none_right_eq_some.mp happrove).2
  cases hafter
  obtain ⟨middle, hmiddle, rfl⟩ := List.mem_map.mp hrow
  cases isDefault with
  | false =>
    refine ⟨middle, hmiddle, ?_⟩
    by_cases hid : middle.id = id
    · exact .inl ⟨hid, if_pos hid⟩
    · exact .inr ⟨hid, .inl (if_neg hid)⟩
  | true =>
    obtain ⟨old, hold, rfl⟩ := List.mem_map.mp hmiddle
    refine ⟨old, hold, ?_⟩
    by_cases hid : old.id = id
    · refine .inl ⟨hid, ?_⟩
      rw [if_pos ((Database.undefaulted_id id old).trans hid), ← hid, undefaulted_self]
    · refine .inr ⟨hid, .inr ⟨rfl, ?_⟩⟩
      rw [if_neg fun h => hid ((Database.undefaulted_id id old).symm.trans h)]

/-- What an admitted write does to the providers. -/
theorem providers_follow (hwrite : write.perform state.db actor now = some after)
    (hallowed : Allowed state actor write) :
    ∀ row ∈ after.providers.rows,
      FollowsProvider state (write.providerMark state.db actor) row := by
  intro row hrow
  have hsame := (frame_of_perform hwrite).2
  cases write with
  | createScoreProvider code fields =>
    have hafter := (Option.ite_none_right_eq_some.mp hwrite).2
    cases hafter
    rcases List.mem_append.mp hrow with hold | hnew
    · apply provider_kept hold
      intro made hmade
      cases hmade
      exact (state.db.providers.below row hold).ne'
    · rw [List.mem_singleton.mp hnew]
      exact .written actor rfl (by simp [providerView])
  | updateScoreProvider id fields =>
    have hafter := (Option.ite_none_right_eq_some.mp hwrite).2
    cases hafter
    obtain ⟨old, hold, rfl⟩ := List.mem_map.mp hrow
    by_cases hid : old.id = id
    · rw [if_pos hid, ← hid]
      exact .written actor rfl (by simp [providerView])
    · rw [if_neg hid]
      apply provider_kept hold
      intro made hmade
      cases hmade
      exact Ne.symm hid
  | approveScoreProvider id seen =>
    obtain ⟨⟨hseen, hindependent⟩, hdefault⟩ := hallowed
    obtain ⟨old, hold, ⟨hid, rfl⟩ | ⟨hid, hrow⟩⟩ := mem_approveScoreProvider hwrite hrow
    · have hfields := hseen old (Log.find?_eq_some.mpr ⟨hold, hid⟩)
      rw [← hid] at hindependent ⊢
      rw [← hfields]
      exact .approved actor rfl rfl hindependent
    · have hmark : ∀ made ∈ (Write.approveScoreProvider id seen).providerMark state.db actor,
          made.key ≠ old.id := by
        intro made hmade
        cases hmade
        exact Ne.symm hid
      rcases hrow with rfl | ⟨hisDefault, rfl⟩
      · exact provider_kept hold hmark
      · refine .kept old hold (Database.undefaulted_id id old) hmark
          (undefaulted_approvedBy id old) ?_ ?_
        · intro hstanding
          show (Database.undefaulted id old).fields = old.fields
          rw [Database.undefaulted, if_neg]
          intro hlost
          have hnone := hdefault hisDefault old hold hid hlost.1
          exact Option.isSome_iff_ne_none.mp hstanding hnone
        · intro hactive
          exact .inl ((undefaulted_isActive id old).symm.trans hactive)
  | createIntegration _ _ | updateIntegration _ _ | approveIntegration _ _
  | createMaster _ _ | updateMaster _ _ | cloneMaster _ | addRule _ _ | updateRule _ _ _
  | deleteRule _ _ | submit _ | approve _ | reject _ _ | activate _ | retire _ =>
    rw [hsame rfl] at hrow
    exact provider_kept hrow (by simp [Write.providerMark])

end

/-! ## Runs -/

section

variable {checks : Checks} {state after : State} {event : Event}

/-- An event leaves the tables and the histories as they are, or it performs a write. -/
theorem step_cases (hstep : step checks state event = some after) :
    (after.db = state.db ∧ after.masterMarks = state.masterMarks ∧
      after.integrationMarks = state.integrationMarks ∧
      after.providerMarks = state.providerMarks) ∨
    ∃ actor now write middle, state.write? event = some (actor, write) ∧
      state.perform actor now write = some middle ∧
      after = { middle with pending := after.pending } := by
  cases event with
  | call call actor =>
    cases hstep
    exact .inl ⟨rfl, rfl, rfl, rfl⟩
  | proceed index now =>
    cases hpending : state.pending[index]? with
    | none => simp [step, hpending] at hstep
    | some operation =>
      obtain ⟨actor, program⟩ := operation
      cases program with
      | look next =>
        simp only [step, hpending, Option.some.injEq] at hstep
        subst hstep
        exact .inl ⟨rfl, rfl, rfl, rfl⟩
      | fail => simp [step, hpending] at hstep
      | write write =>
        simp only [step, hpending, Option.map_eq_some_iff] at hstep
        obtain ⟨middle, hperform, rfl⟩ := hstep
        refine .inr ⟨actor, now, write, middle, ?_, hperform, rfl⟩
        rw [State.write?, hpending]

theorem Agrees.perform {actor : String} {now : ℤ} {write : Write} (hagrees : Agrees state)
    (hallowed : Allowed state actor write) (hperform : state.perform actor now write = some after) :
    Agrees after := by
  obtain ⟨db, hwrite, rfl⟩ := Option.map_eq_some_iff.mp hperform
  exact
    { masters := hagrees.masters.step (masters_follow hwrite hallowed)
      integrations := hagrees.integrations.step (integrations_follow hwrite hallowed)
      providers := hagrees.providers.step (providers_follow hwrite hallowed) }

theorem Agrees.step (hagrees : Agrees state) (hleaves : Leaves state event)
    (hstep : Credit.step checks state event = some after) : Agrees after := by
  rcases step_cases hstep with ⟨hdb, hmasters, hintegrations, hproviders⟩ |
    ⟨actor, now, write, middle, hwrite, hperform, hafter⟩
  · refine ⟨?_, ?_, ?_⟩
    · rw [hdb, hmasters]
      exact hagrees.masters
    · rw [hdb, hintegrations]
      exact hagrees.integrations
    · rw [hdb, hproviders]
      exact hagrees.providers
  · have hmiddle := hagrees.perform (hleaves (actor, write) hwrite) hperform
    rw [hafter]
    exact ⟨hmiddle.masters, hmiddle.integrations, hmiddle.providers⟩

theorem agrees_empty : Agrees {} where
  masters := .nil
  integrations := .nil
  providers := .nil

/-- In every interleaving whose writes leave them, the two pairs of eyes hold. -/
theorem four_eyes (hrun : ReachesUnder (Credit.step checks) Leaves {} state) : FourEyes state :=
  (hrun.preserves Agrees (fun _ _ _ hagrees hleaves => hagrees.step hleaves) agrees_empty).fourEyes

theorem FourEyes.not_mem_writers (heyes : FourEyes state) {master : Master} {actor : String}
    (hmaster : master ∈ state.db.masters.rows) (hactive : master.status = .active)
    (happroved : master.approvedBy = some actor) :
    actor ∉ Mark.writers master.id state.masterMarks := by
  obtain ⟨checker, -, hchecker, hindependent⟩ := heyes.1 master hmaster hactive
  rw [happroved, Option.some.injEq] at hchecker
  rw [hchecker]
  exact hindependent

theorem FourEyes.approved_content (heyes : FourEyes state) {master : Master}
    (hmaster : master ∈ state.db.masters.rows) (hactive : master.status = .active) :
    (Mark.approval? master.id state.masterMarks).map Prod.snd = some (state.db.content master) := by
  obtain ⟨checker, happroval, -, -⟩ := heyes.1 master hmaster hactive
  rw [happroval]
  rfl

end

/-! ## A policy and its makers -/

/-- Calls one after the other, each with its actor and the number of its statements. -/
def inTurn (calls : List (Call × String × ℕ)) : List Event :=
  calls.zipIdx.flatMap fun entry =>
    .call entry.1.1 entry.1.2.1 :: List.replicate entry.1.2.2 (.proceed entry.2 1)

def retailPolicy : MasterFields where
  name := "Retail"
  customerCategory := "ANY"
  productId := "LOAN"
  maximumLimit := 1000
  effectiveFrom := some 0

def scoreRule (priority : ℤ) : RuleFields where
  name := "Score"
  priority := priority
  sourceType := .aiResult
  aiResultField := some "score"
  dataType := .decimal
  condition := "EXISTS"
  actionOnMatch := "CONTINUE"
  actionOnNoMatch := "REJECT"
  sourceFailureAction := "MANUAL_REVIEW"

/-- A source of scores. -/
def scoreApi : IntegrationFields where
  name := "Scores"
  urlTemplate := "https://scores"

def scoreModel : ProviderFields where
  name := "Scores"
  httpIntegrationId := 1
  scoreResponsePath := "score"
  categoryResponsePath := "grade"
  isDefault := true

/-- The life of a policy that goes as it should. -/
def orderly : List Event :=
  inTurn [(.createIntegration "API" scoreApi, "maker", 1), (.approveIntegration 1, "checker", 2),
    (.createScoreProvider "MODEL" scoreModel, "maker", 2), (.approveScoreProvider 1, "checker", 2),
    (.createMaster "RETAIL" { retailPolicy with scoreProviderId := some 1 }, "maker", 2),
    (.addRule 1 (scoreRule 1), "maker", 3), (.submit 1, "maker", 7), (.approve 1, "checker", 6),
    (.activate 1, "maker", 6)]

/-- The policy, its provider and the integration are active, and the two pairs of eyes hold. -/
theorem four_eyes_orderly :
    ∃ state, ReachesUnder (step lenient) Leaves {} state ∧
      state.db.masters.rows.map Master.status = [.active] ∧
      state.db.providers.rows.map Provider.isActive = [true] ∧
      state.db.integrations.rows.map Integration.isActive = [true] ∧ FourEyes state := by
  have hany : (runInputs (guardedStep (step lenient) Leaves) {} orderly).any (fun state =>
      decide (state.db.masters.rows.map Master.status = [.active] ∧
        state.db.providers.rows.map Provider.isActive = [true] ∧
        state.db.integrations.rows.map Integration.isActive = [true])) := by decide +kernel
  obtain ⟨state, hrun, hfacts⟩ := (Option.any_eq_true _ _).mp hany
  obtain ⟨hmaster, hprovider, hintegration⟩ := of_decide_eq_true hfacts
  have hreaches := (Reaches.of_runInputs hrun).under
  exact ⟨state, hreaches, hmaster, hprovider, hintegration, four_eyes hreaches⟩

def selfApproved : List Event :=
  inTurn [(.createMaster "RETAIL" retailPolicy, "maker", 1), (.addRule 1 (scoreRule 1), "maker", 3),
    (.updateMaster 1 { maximumLimit := some 9000 }, "editor", 2), (.submit 1, "maker", 7),
    (.approve 1, "editor", 6), (.activate 1, "maker", 6)]

/-- A rule is added to a draft, and written when the policy is active. -/
def lateRule : List Event :=
  inTurn [(.createMaster "RETAIL" retailPolicy, "maker", 1), (.addRule 1 (scoreRule 1), "maker", 3),
    (.addRule 1 (scoreRule 2), "maker", 2), (.submit 1, "maker", 7), (.approve 1, "checker", 6),
    (.activate 1, "maker", 6)] ++ [.proceed 2 1]

/-- The two pairs of eyes fail if an editor approves, and if a rule is written late. -/
theorem editor_approves :
    (∃ state, Reaches (step lenient) {} state ∧ ¬ FourEyes state ∧
      ∃ master ∈ state.db.masters.rows, master.status = .active ∧
        master.approvedBy = some "editor" ∧
        "editor" ∈ Mark.writers master.id state.masterMarks) ∧
    ∃ state, Reaches (step lenient) {} state ∧ ¬ FourEyes state ∧
      ∃ master ∈ state.db.masters.rows, master.status = .active ∧
        (Mark.approval? master.id state.masterMarks).map Prod.snd ≠
          some (state.db.content master) := by
  constructor
  · have hany : (runInputs (step lenient) {} selfApproved).any (fun state =>
        decide (∃ master ∈ state.db.masters.rows, master.status = .active ∧
          master.approvedBy = some "editor" ∧
          "editor" ∈ Mark.writers master.id state.masterMarks)) := by decide +kernel
    obtain ⟨state, hrun, hfacts⟩ := (Option.any_eq_true _ _).mp hany
    obtain ⟨master, hmaster, hactive, happroved, hwrote⟩ := of_decide_eq_true hfacts
    refine ⟨state, Reaches.of_runInputs hrun, ?_, master, hmaster, hactive, happroved, hwrote⟩
    intro heyes
    exact heyes.not_mem_writers hmaster hactive happroved hwrote
  · have hany : (runInputs (step lenient) {} lateRule).any (fun state =>
        decide (∃ master ∈ state.db.masters.rows, master.status = .active ∧
          (Mark.approval? master.id state.masterMarks).map Prod.snd ≠
            some (state.db.content master))) := by decide +kernel
    obtain ⟨state, hrun, hfacts⟩ := (Option.any_eq_true _ _).mp hany
    obtain ⟨master, hmaster, hactive, hchanged⟩ := of_decide_eq_true hfacts
    refine ⟨state, Reaches.of_runInputs hrun, ?_, master, hmaster, hactive, hchanged⟩
    intro heyes
    exact hchanged (heyes.approved_content hmaster hactive)

end Finify.Credit
