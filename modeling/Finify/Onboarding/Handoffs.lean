/-
# Handoffs and steps

`consumeHandoff` beside the step of `advance_journey_step` that it stands for: the `SUCCESS` of
the handoff's source node.
-/

import Finify.Onboarding.Progress

namespace Finify.Onboarding.Services

open Finify.Foundations

/-! ## The step that a handoff stands for -/

/-- The call of `advance_journey_step` that a handoff stands for. -/
def Handoff.request (handoff : Handoff) (row : Instance) (now : ℤ) : StepRequest :=
  { instanceId := row.id
    resumeTokenHash := row.resumeTokenHash
    expectedNodeKey := handoff.sourceNode
    outcome := "SUCCESS"
    idempotencyKey := handoff.stepKey
    inputHash := "handoff token " ++ toString handoff.id
    now := now }

/-- An instance is in progress, unexpired, and at the source node of a handoff. -/
def Standing (db : Database) (handoff : Handoff) (now : ℤ) : Prop :=
  ∃ row, db.instances.find? handoff.instanceId = some row ∧ row.status = .inProgress ∧
    now < row.expiresAt ∧ row.currentNode = some handoff.sourceNode

/-- A call moves the instance of a handoff from the source node as the step does: to the same
node and status, and with the same customers. -/
def MovesLikeStep (before after : Database) (handoff : Handoff) (now : ℤ) : Prop :=
  Standing before handoff now ∧ ∃ row source target moved,
    before.instances.find? handoff.instanceId = some row ∧
    before.nextNode row handoff.sourceNode "SUCCESS" = some target ∧
    source.key = handoff.sourceNode ∧
    after.instances.find? handoff.instanceId = some moved ∧
    moved.currentNode = (row.moveTo target now).currentNode ∧
    moved.status = (row.moveTo target now).status ∧
    moved.completedAt = (row.moveTo target now).completedAt ∧
    after.customers = (before.move row source target (handoff.request row now)).customers

/-- A call adds the events of the step. -/
def TellsLikeStep (before after : Database) (handoff : Handoff) (now : ℤ) : Prop :=
  ∃ row source target, before.instances.find? handoff.instanceId = some row ∧
    after.events = (before.move row source target (handoff.request row now)).events

/-- The step would complete the journey of a customer who is in onboarding. -/
def Activates (db : Database) (handoff : Handoff) : Prop :=
  ∃ row target, db.instances.find? handoff.instanceId = some row ∧
    db.nextNode row handoff.sourceNode "SUCCESS" = some target ∧ target.type = .finish ∧
    ∃ customer ∈ db.customers.rows, customer.id = row.customerId ∧ customer.status = .onboarding

/-- A step from the source node of a handoff is recorded. -/
def Left (db : Database) (handoff : Handoff) : Prop :=
  ∃ execution ∈ db.executions, execution.instanceId = handoff.instanceId ∧
    execution.node = handoff.sourceNode

/-- The handoff waits: it is pending and unexpired, for the channel that resolves, its node has a
transition for `SUCCESS`, and the customer has no other open instance. -/
def Waits (db : Database) (handoff : Handoff) (trusted : TrustedChannel) (now : ℤ) : Prop :=
  handoff.status = .pending ∧ now < handoff.expiresAt ∧
    handoff.targetVersion = trusted.versionId ∧ ∃ row target,
      db.instances.find? handoff.instanceId = some row ∧
        db.nextNode row handoff.sourceNode "SUCCESS" = some target ∧
        Database.isOpenElsewhere db row target.nextStatus = false

section

variable {otpHash : ℕ → String → String} {state after : State}

theorem nextStatus_eq_completed {node : Node} :
    node.nextStatus = .completed ↔ node.type = .finish := by
  unfold Node.nextStatus
  cases node.type <;> simp

/-- Tables with the same rows are the same. -/
theorem table_eq_of_rows {ρ κ : Type} {key : ρ → κ} {first second : Table key}
    (hrows : first.rows = second.rows) : first = second := by
  cases first
  cases second
  cases hrows
  rfl

/-- The step changes the customers where it activates one. -/
theorem customers_move {db : Database} {row : Instance} {source target : Node}
    {request : StepRequest} :
    db.customers = (db.move row source target request).customers ↔
      ¬ (target.type = .finish ∧
        ∃ customer ∈ db.customers.rows, customer.id = row.customerId ∧
          customer.status = .onboarding) := by
  constructor
  · intro hsame hactivates
    obtain ⟨hfinish, customer, hcustomer, hid, hstatus⟩ := hactivates
    have hmodify : (db.move row source target request).customers =
        db.customers.modify row.customerId
          (fun customer =>
            { customer with
              status := if customer.status = .onboarding then .active else customer.status })
          fun _ => rfl := if_pos (nextStatus_eq_completed.mpr hfinish)
    rw [hmodify] at hsame
    have hfound : db.customers.find? row.customerId = some customer :=
      Table.find?_eq_some.mpr ⟨hcustomer, hid⟩
    have hactive := Table.find?_modify_of_find? hfound
      (fun customer =>
        { customer with
          status := if customer.status = .onboarding then .active else customer.status })
      fun _ => rfl
    rw [← hsame, hfound] at hactive
    have hlater := congrArg Customer.status (Option.some.inj hactive)
    rw [hstatus] at hlater
    cases hlater
  · intro hquiet
    by_cases hfinish : target.nextStatus = .completed
    · have hmodify : (db.move row source target request).customers =
          db.customers.modify row.customerId
            (fun customer =>
              { customer with
                status := if customer.status = .onboarding then .active else customer.status })
            fun _ => rfl := if_pos hfinish
      rw [hmodify]
      apply table_eq_of_rows
      rw [Table.modify, Table.rows_map]
      calc
        db.customers.rows = db.customers.rows.map id := (List.map_id _).symm
        _ = _ := List.map_congr_left fun customer hcustomer => ?_
      split
      case isTrue hid =>
        have hstatus : customer.status ≠ .onboarding := fun hstatus =>
          hquiet ⟨nextStatus_eq_completed.mp hfinish, customer, hcustomer, hid, hstatus⟩
        rw [if_neg hstatus]
        rfl
      case isFalse => rfl
    · exact (if_neg hfinish).symm

/-- A handoff that is consumed moves its instance like the step if and only if the instance
stands at the source node and the step activates no customer. -/
theorem movesLikeStep_iff {handoff : Handoff} {row : Instance} {target : Node}
    {resumeTokenHash : String} {expiresAt now : ℤ} {executions : List Execution}
    (hrow : state.db.instances.find? handoff.instanceId = some row)
    (htarget : state.db.nextNode row handoff.sourceNode "SUCCESS" = some target)
    (hdb : after.db = { state.db with
      instances := state.db.instances.modify row.id
        (Instance.handOver target resumeTokenHash expiresAt now) fun _ => rfl
      executions := executions }) :
    MovesLikeStep state.db after.db handoff now ↔
      Standing state.db handoff now ∧ ¬ Activates state.db handoff := by
  have hid : row.id = handoff.instanceId := (Table.find?_eq_some.mp hrow).2
  have hmoved : after.db.instances.find? handoff.instanceId =
      some (Instance.handOver target resumeTokenHash expiresAt now row) := by
    rw [hdb, hid]
    exact Table.find?_modify_of_find? hrow (Instance.handOver target resumeTokenHash expiresAt now)
      fun _ => rfl
  have hcustomers : after.db.customers = state.db.customers := by rw [hdb]
  constructor
  · rintro ⟨hstanding, other, source, reached, _, hother, hnext, _, _, _, _, _, hsame⟩
    obtain rfl : row = other := Option.some.inj (hrow.symm.trans hother)
    obtain rfl : target = reached := Option.some.inj (htarget.symm.trans hnext)
    refine ⟨hstanding, ?_⟩
    rintro ⟨found, next, hfound, hnextNode, hfinish, hcustomer⟩
    obtain rfl : row = found := Option.some.inj (hrow.symm.trans hfound)
    obtain rfl : target = next := Option.some.inj (htarget.symm.trans hnextNode)
    rw [hcustomers] at hsame
    exact customers_move.mp hsame ⟨hfinish, hcustomer⟩
  · rintro ⟨hstanding, hquiet⟩
    refine ⟨hstanding, row, { key := handoff.sourceNode, type := .channelHandoff }, target, _, hrow,
      htarget, rfl, hmoved, rfl, rfl, rfl, ?_⟩
    rw [hcustomers]
    apply customers_move.mpr
    rintro ⟨hfinish, hcustomer⟩
    exact hquiet ⟨row, target, hrow, htarget, hfinish, hcustomer⟩

/-- The step adds an event, and a handoff that is consumed none of those that a step adds. -/
theorem not_tellsLikeStep {handoff : Handoff} {now : ℤ}
    (hevents : after.db.events = state.db.events) :
    ¬ TellsLikeStep state.db after.db handoff now := by
  rintro ⟨row, source, target, _, hsame⟩
  have hlength := congrArg List.length (hevents.symm.trans hsame)
  have hmore : (state.db.move row source target (handoff.request row now)).events.length =
      state.db.events.length + 1 + (if target.nextStatus = .completed then
        [{ instanceId := row.id, node := target.key, actorType := .system, actorId := none,
           correlationId := (handoff.request row now).correlationId,
           payload := .journeyCompleted target.key }] else ([] : List JourneyEvent)).length := by
    change (state.db.events ++ [_] ++ _).length = _
    rw [List.length_append, List.length_append, List.length_singleton]
  omega

/-- The execution of a handoff can be stored if no step from its node is recorded, or if its key
is taken. -/
theorem executions_isSome_iff (hplaced : Placed state) (handoff : Handoff) (now : ℤ) :
    (handoff.executions state.db now).isSome ↔ ¬ Left state.db handoff ∨
      (state.db.execution? handoff.instanceId handoff.stepKey).isSome := by
  unfold Handoff.executions
  by_cases hkey : (state.db.execution? handoff.instanceId handoff.stepKey).isSome
  · simp [hkey]
  · rw [if_neg hkey]
    split
    case isTrue htaken =>
      obtain ⟨execution, hmem, hfacts⟩ := List.any_eq_true.mp htaken
      obtain ⟨hid, hnode, _⟩ := of_decide_eq_true hfacts
      refine iff_of_false (by simp) ?_
      rintro (hnone | hsome)
      · exact hnone ⟨execution, hmem, hid, hnode⟩
      · exact hkey hsome
    case isFalse hfree =>
      refine iff_of_true rfl (.inl ?_)
      rintro ⟨execution, hmem, hid, hnode⟩
      obtain ⟨first, hfirst, hsameId, hsameNode, hone⟩ := hplaced.attempts execution hmem
      exact hfree (List.any_eq_true.mpr ⟨first, hfirst,
        decide_eq_true ⟨hsameId.trans hid, hsameNode.trans hnode, hone⟩⟩)

/-- A handoff that waits is consumed unless a step from its node is recorded. -/
theorem consumeHandoff_isSome_iff (hplaced : Placed state) {handoffId : ℕ} {handoff : Handoff}
    (hhandoff : state.handoffs.find? handoffId = some handoff) {trusted : TrustedChannel}
    {resumeTokenHash : String} {now : ℤ} (hwaits : Waits state.db handoff trusted now) :
    (consumeHandoff state handoffId trusted resumeTokenHash now).isSome ↔
      ¬ Left state.db handoff ∨
        (state.db.execution? handoff.instanceId handoff.stepKey).isSome := by
  obtain ⟨hpending, hcurrent, hversion, row, target, hrow, htarget, halone⟩ := hwaits
  rw [← executions_isSome_iff hplaced handoff now]
  have hopen : ¬ (handoff.status ≠ .pending ∨ handoff.expiresAt ≤ now ∨
      handoff.targetVersion ≠ trusted.versionId) := by
    rintro (hstatus | hexpired | hother)
    · exact hstatus hpending
    · exact absurd hcurrent (not_lt.mpr hexpired)
    · exact hother hversion
  unfold consumeHandoff
  rw [hhandoff]
  dsimp only
  rw [if_neg hopen, hrow]
  dsimp only
  rw [htarget]
  cases handoff.executions state.db now with
  | none => simp
  | some executions => simp [halone]

/-- In every run: a handoff that is consumed never adds the events of the step that it stands
for; it moves its instance like that step if and only if the instance is in progress, unexpired
and at the source node, and the step activates no customer; the instance has then left the node.
A handoff that waits can be consumed if and only if no step from its node is recorded, or its
key was used for one. -/
theorem handoff_as_step {start : State} (hopening : Opening start)
    (hrun : Reaches (step otpHash) start state) {handoffId : ℕ} {handoff : Handoff}
    (hhandoff : state.handoffs.find? handoffId = some handoff) (trusted : TrustedChannel)
    (resumeTokenHash : String) (now : ℤ) :
    (∀ after, consumeHandoff state handoffId trusted resumeTokenHash now = some after →
      ¬ TellsLikeStep state.db after.db handoff now ∧
      (MovesLikeStep state.db after.db handoff now ↔
        Standing state.db handoff now ∧ ¬ Activates state.db handoff) ∧
      ¬ Standing after.db handoff now) ∧
    (Waits state.db handoff trusted now →
      ((consumeHandoff state handoffId trusted resumeTokenHash now).isSome ↔
        ¬ Left state.db handoff ∨
          (state.db.execution? handoff.instanceId handoff.stepKey).isSome)) := by
  have hplaced := hopening.placed.run hrun
  refine ⟨fun after hconsume => ?_, consumeHandoff_isSome_iff hplaced hhandoff⟩
  obtain ⟨found, row, target, hfound, _, _, _, hrow, htarget, _, hdb, _⟩ :=
    consumeHandoff_eq_some hconsume
  obtain rfl : handoff = found := Option.some.inj (hhandoff.symm.trans hfound)
  refine ⟨not_tellsLikeStep (by rw [hdb]), movesLikeStep_iff hrow htarget hdb, ?_⟩
  rintro ⟨moved, hmoved, _, _, hcurrent⟩
  have hid : row.id = handoff.instanceId := (Table.find?_eq_some.mp hrow).2
  have hlater : after.db.instances.find? handoff.instanceId = some (Instance.handOver target
      resumeTokenHash (now + trusted.resumeTimeoutSeconds) now row) := by
    rw [hdb, hid]
    exact Table.find?_modify_of_find? hrow (Instance.handOver target resumeTokenHash
      (now + trusted.resumeTimeoutSeconds) now) fun _ => rfl
  obtain rfl := Option.some.inj (hlater.symm.trans hmoved)
  exact key_ne_of_nextNode hplaced htarget (Option.some.inj hcurrent)

end

/-! ## A journey with a handoff -/

/-- A graph with a handoff that a journey can come to again. -/
def deskGraph : Graph where
  scopes := [mobileScope]
  nodes := [{ key := "start", type := .start, entry := true },
    { key := "desk", type := .channelHandoff, configuration := [("targetChannel", .text "BRANCH")] },
    { key := "kyc", type := .kyc, configuration := [("kycConfigurationVersionId", .text "basic")] },
    { key := "end", type := .finish }]
  transitions := [{ source := "start", target := "desk", outcome := "SUCCESS", priority := 1 },
    { source := "desk", target := "end", outcome := "SUCCESS", priority := 1 },
    { source := "desk", target := "kyc", outcome := "MORE", priority := 1 },
    { source := "kyc", target := "desk", outcome := "SUCCESS", priority := 1 }]

/-- An instance at the START of the graph. -/
def deskStart : State where
  otp :=
    { db :=
        { versions := ⟨[{ id := 1, graph := deskGraph }], by decide⟩
          instances := twoSteps.instances
          customers := twoSteps.customers } }

theorem deskStart_opening : Opening deskStart := by
  constructor
  · constructor
    · rfl
    · intro row hmem
      obtain rfl := List.mem_singleton.mp hmem
      exact ⟨rfl, deskGraph, _, rfl, by decide, rfl, rfl⟩
  · intro version hmem
    obtain rfl := List.mem_singleton.mp hmem
    show Accepted deskGraph
    decide
  · rfl

/-- The step from the START, and a handoff from the node after it. -/
def deskEvents : List Event :=
  [.call { now := 0 }
    { instanceId := 1, resumeTokenHash := "token", idempotencyKey := "first-key",
      input := .advanceStep "start" "SUCCESS" none },
    .createHandoff
      { instanceId := 1, resumeTokenHash := "token", idempotencyKey := "desk-key",
        targetVersion := some 7, now := 1 }]

/-- The step from the START, one through the other nodes and back, and a handoff then. -/
def deskDetour : List Event :=
  [.call { now := 0 }
    { instanceId := 1, resumeTokenHash := "token", idempotencyKey := "first-key",
      input := .advanceStep "start" "SUCCESS" none },
    .call { now := 0 }
      { instanceId := 1, resumeTokenHash := "token", idempotencyKey := "more-key",
        input := .callback "CHANNEL_HANDOFF" "MORE" "reference" {} },
    .call { now := 0 }
      { instanceId := 1, resumeTokenHash := "token", idempotencyKey := "back-key",
        input := .callback "KYC" "SUCCESS" "reference" {} },
    .createHandoff
      { instanceId := 1, resumeTokenHash := "token", idempotencyKey := "desk-key",
        targetVersion := some 7, now := 1 }]

/-- The instance at the node of the handoff. -/
def deskRow : Instance :=
  { id := 1, customerId := 1, versionId := 1, currentNode := some "desk",
    resumeTokenHash := "token", expiresAt := 100 }

def deskHandoff : Handoff :=
  { id := 1, instanceId := 1, targetVersion := 7, sourceNode := "desk",
    idempotencyKey := "desk-key", expiresAt := 301 }

/-- The handoff of the first visit waits, and is consumed. -/
theorem handoff_as_step_desk :
    ∃ state, Reaches (step fun _ code => code) deskStart state ∧
      (∀ after, consumeHandoff state 1 { versionId := 7, resumeTimeoutSeconds := 100 } "new" 2 =
          some after →
        ¬ TellsLikeStep state.db after.db deskHandoff 2 ∧
        (MovesLikeStep state.db after.db deskHandoff 2 ↔
          Standing state.db deskHandoff 2 ∧ ¬ Activates state.db deskHandoff) ∧
        ¬ Standing after.db deskHandoff 2) ∧
      ((consumeHandoff state 1 { versionId := 7, resumeTimeoutSeconds := 100 } "new" 2).isSome ↔
        ¬ Left state.db deskHandoff ∨
          (state.db.execution? deskHandoff.instanceId deskHandoff.stepKey).isSome) := by
  have hany : (runInputs (step fun _ code => code) deskStart deskEvents).any (fun state =>
      decide (state.handoffs.find? 1 = some deskHandoff ∧
        state.db.instances.find? 1 = some deskRow ∧
        state.db.nextNode deskRow "desk" "SUCCESS" = some { key := "end", type := .finish })) := by
    decide +kernel
  obtain ⟨state, hrun, hfacts⟩ := (Option.any_eq_true _ _).mp hany
  obtain ⟨hhandoff, hrow, htarget⟩ := of_decide_eq_true hfacts
  have hreach := Reaches.of_runInputs hrun
  have hall := handoff_as_step deskStart_opening hreach hhandoff
    { versionId := 7, resumeTimeoutSeconds := 100 } "new" 2
  exact ⟨state, hreach, hall.1, hall.2 ⟨rfl, by decide, rfl, deskRow, _, hrow, htarget, rfl⟩⟩

/-- A handoff that completes a journey leaves its customer in onboarding and adds no event of a
step, and the handoff of a node that the journey has come to again cannot be consumed. -/
theorem handoff_is_no_step :
    Opening deskStart ∧
      (∃ state after, Reaches (step fun _ code => code) deskStart state ∧
        state.handoffs.find? 1 = some deskHandoff ∧ Standing state.db deskHandoff 2 ∧
        consumeHandoff state 1 { versionId := 7, resumeTimeoutSeconds := 100 } "new" 2 =
          some after ∧
        (∃ row ∈ after.db.instances.rows, row.id = 1 ∧ row.status = .completed) ∧
        (∃ customer ∈ after.db.customers.rows, customer.id = 1 ∧ customer.status = .onboarding) ∧
        ¬ MovesLikeStep state.db after.db deskHandoff 2 ∧
        ¬ TellsLikeStep state.db after.db deskHandoff 2) ∧
      ∃ state, Reaches (step fun _ code => code) deskStart state ∧
        state.handoffs.find? 1 = some deskHandoff ∧ Standing state.db deskHandoff 2 ∧
        Waits state.db deskHandoff { versionId := 7, resumeTimeoutSeconds := 100 } 2 ∧
        consumeHandoff state 1 { versionId := 7, resumeTimeoutSeconds := 100 } "new" 2 = none := by
  refine ⟨deskStart_opening, ?_, ?_⟩
  · have hany : (runInputs (step fun _ code => code) deskStart deskEvents).any (fun state =>
        decide (state.handoffs.find? 1 = some deskHandoff ∧
          state.db.instances.find? 1 = some deskRow ∧
          state.db.nextNode deskRow "desk" "SUCCESS" = some { key := "end", type := .finish } ∧
          state.db.customers.find? 1 = some { id := 1, status := .onboarding }) &&
        (consumeHandoff state 1 { versionId := 7, resumeTimeoutSeconds := 100 } "new" 2).any
          fun after =>
            decide (∃ row ∈ after.db.instances.rows, row.id = 1 ∧ row.status = .completed)) := by
      decide +kernel
    obtain ⟨state, hrun, hfacts⟩ := (Option.any_eq_true _ _).mp hany
    obtain ⟨hbefore, hconsumed⟩ := Bool.and_eq_true_iff.mp hfacts
    obtain ⟨hhandoff, hrow, htarget, hcustomer⟩ := of_decide_eq_true hbefore
    obtain ⟨after, hconsume, hafter⟩ := (Option.any_eq_true _ _).mp hconsumed
    obtain ⟨found, row, target, hfound, _, _, _, hinstance, hnext, _, hdb, _⟩ :=
      consumeHandoff_eq_some hconsume
    obtain rfl : deskHandoff = found := Option.some.inj (hhandoff.symm.trans hfound)
    have hcustomers : after.db.customers = state.db.customers := by rw [hdb]
    have hmem := (Table.find?_eq_some.mp hcustomer).1
    refine ⟨state, after, Reaches.of_runInputs hrun, hhandoff, ⟨deskRow, hrow, rfl, by decide, rfl⟩,
      hconsume, of_decide_eq_true hafter, ?_, ?_, not_tellsLikeStep (by rw [hdb])⟩
    · rw [hcustomers]
      exact ⟨_, hmem, rfl, rfl⟩
    · intro hmoves
      apply ((movesLikeStep_iff hinstance hnext hdb).mp hmoves).2
      exact ⟨deskRow, _, hrow, htarget, rfl, _, hmem, rfl, rfl⟩
  · have hany : (runInputs (step fun _ code => code) deskStart deskDetour).any (fun state =>
        decide (state.handoffs.find? 1 = some deskHandoff ∧
          state.db.instances.find? 1 = some deskRow ∧
          state.db.nextNode deskRow "desk" "SUCCESS" = some { key := "end", type := .finish }) &&
        (consumeHandoff state 1 { versionId := 7, resumeTimeoutSeconds := 100 } "new" 2).isNone) := by
      decide +kernel
    obtain ⟨state, hrun, hfacts⟩ := (Option.any_eq_true _ _).mp hany
    obtain ⟨hbefore, hnone⟩ := Bool.and_eq_true_iff.mp hfacts
    obtain ⟨hhandoff, hrow, htarget⟩ := of_decide_eq_true hbefore
    exact ⟨state, Reaches.of_runInputs hrun, hhandoff, ⟨deskRow, hrow, rfl, by decide, rfl⟩,
      ⟨rfl, by decide, rfl, deskRow, _, hrow, htarget, rfl⟩, Option.isNone_iff_eq_none.mp hnone⟩

end Finify.Onboarding.Services
