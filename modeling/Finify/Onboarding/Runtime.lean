/-
# Verified steps

What the runtime services share: the look-up of an instance by its token, and
`onboarding.advance_verified_step`, which advances an instance on behalf of a service that has
verified the step.  A digest is represented by the text that it is taken of.
-/

import Finify.Onboarding.Steps

namespace Finify.Onboarding

open Finify.Foundations

/-! ## The context of a call -/

/-- The statuses in which a journey is open. -/
def InstanceStatus.isOpen : InstanceStatus → Bool
  | inProgress | waitingExternal | manualReview => true
  | _ => false

/-- The exceptions of the look-up. -/
inductive ContextError
  | notFound
  | closed (status : InstanceStatus)
  | otherNode (current expected : NodeType)
  deriving DecidableEq

/-- The text of an exception. -/
def ContextError.message : ContextError → String
  | notFound => "Onboarding journey was not found or has expired"
  | closed status => "Onboarding journey is " ++ status.text
  | otherNode current expected =>
    "Onboarding journey current node is " ++ current.text ++ ", not " ++ expected.text

/-- `context`. -/
def Database.context (db : Database) (instanceId : ℕ) (resumeTokenHash : String)
    (expected : NodeType) (now : ℤ) : Except ContextError (Instance × Node) :=
  match (db.openInstance instanceId resumeTokenHash).filter fun row => now < row.expiresAt with
  | none => .error .notFound
  | some row =>
    match db.currentNode row with
    | none => .error .notFound
    | some node =>
      if row.status.isOpen then
        if node.type = expected then .ok (row, node)
        else .error (.otherNode node.type expected)
      else .error (.closed row.status)

theorem context_eq_ok {db : Database} {instanceId : ℕ} {resumeTokenHash : String}
    {expected : NodeType} {now : ℤ} {row : Instance} {node : Node}
    (hcontext : db.context instanceId resumeTokenHash expected now = .ok (row, node)) :
    db.openInstance instanceId resumeTokenHash = some row ∧ now < row.expiresAt ∧
      db.currentNode row = some node ∧ row.status.isOpen ∧ node.type = expected := by
  unfold Database.context at hcontext
  cases hopened : (db.openInstance instanceId resumeTokenHash).filter
      fun row => now < row.expiresAt with
  | none =>
    rw [hopened] at hcontext
    cases hcontext
  | some found =>
    rw [hopened] at hcontext
    obtain ⟨hinstance, hcurrent⟩ := Option.filter_eq_some_iff.mp hopened
    cases hnode : db.currentNode found with
    | none =>
      simp only [hnode] at hcontext
      cases hcontext
    | some current =>
      simp only [hnode] at hcontext
      split at hcontext
      case isTrue hstatus =>
        split at hcontext
        case isTrue htype =>
          cases hcontext
          exact ⟨hinstance, of_decide_eq_true hcurrent, hnode, hstatus, htype⟩
        case isFalse => cases hcontext
      case isFalse => cases hcontext

/-! ## The function -/

/-- The call of `advance_journey_step` that a verified step makes. -/
def verifiedRequest (row : Instance) (node : Node) (outcome idempotencyKey : String)
    (output : Document) (actorId correlationId : Option String) (now : ℤ) : StepRequest :=
  { instanceId := row.id
    resumeTokenHash := row.resumeTokenHash
    expectedNodeKey := node.key
    outcome := outcome.toUpper
    idempotencyKey := idempotencyKey
    inputHash := node.key ++ ":" ++ outcome.toUpper ++ ":" ++ output.text
    output := some output
    actorId := actorId
    correlationId := correlationId
    now := now }

def JourneyEvent.leaves (instanceId : ℕ) (node : String) (event : JourneyEvent) : Bool :=
  event.instanceId = instanceId && event.node = node &&
    match event.payload with
    | .stepSucceeded _ _ _ _ => true
    | .journeyCompleted _ => false

def changeFirst {α : Type} (condition : α → Bool) (change : α → α) : List α → List α
  | [] => []
  | item :: items =>
    if condition item then change item :: items
    else item :: changeFirst condition change items

theorem mem_changeFirst {α : Type} {condition : α → Bool} {change : α → α} {items : List α}
    {item : α} (hmem : item ∈ changeFirst condition change items) :
    ∃ old ∈ items, item = old ∨ item = change old := by
  induction items with
  | nil => cases hmem
  | cons first rest ih =>
    unfold changeFirst at hmem
    split at hmem
    · rcases List.mem_cons.mp hmem with rfl | hrest
      · exact ⟨first, List.mem_cons_self, .inr rfl⟩
      · exact ⟨item, List.mem_cons_of_mem _ hrest, .inl rfl⟩
    · rcases List.mem_cons.mp hmem with rfl | hrest
      · exact ⟨item, List.mem_cons_self, .inl rfl⟩
      · obtain ⟨old, hold, hsame⟩ := ih hrest
        exact ⟨old, List.mem_cons_of_mem _ hold, hsame⟩

/-- `UPDATE onboarding.journey_events SET actor_type`, for the last step from the node. -/
def Database.setActor (db : Database) (instanceId : ℕ) (node : String) (actorType : ActorType) :
    Database :=
  { db with
    events := (changeFirst (JourneyEvent.leaves instanceId node)
      (fun event => { event with actorType := actorType }) db.events.reverse).reverse }

/-- The exceptions of a verified step. -/
inductive VerifiedError
  | notFound
  | otherNode (expected : NodeType)
  | step (error : StepError)
  deriving DecidableEq

/-- `advance_verified_step`. -/
def Database.advanceVerified (db : Database) (instanceId : ℕ) (expected : NodeType)
    (outcome idempotencyKey : String) (output : Document) (actorType : ActorType)
    (actorId correlationId : Option String) (now : ℤ) :
    Except VerifiedError (Database × StepResult) :=
  match db.instances.find? instanceId with
  | none => .error .notFound
  | some row =>
    match (db.currentNode row).filter fun node => node.type = expected with
    | none => .error (.otherNode expected)
    | some node =>
      match db.advance
          (verifiedRequest row node outcome idempotencyKey output actorId correlationId now) with
      | .error error => .error (.step error)
      | .ok (after, result) => .ok (after.setActor row.id node.key actorType, result)

/-- A verified step is a step, but for the actor of its event. -/
theorem advanceVerified_eq_ok {db after : Database} {instanceId : ℕ} {expected : NodeType}
    {outcome idempotencyKey : String} {output : Document} {actorType : ActorType}
    {actorId correlationId : Option String} {now : ℤ} {result : StepResult}
    (hadvance : db.advanceVerified instanceId expected outcome idempotencyKey output actorType
      actorId correlationId now = .ok (after, result)) :
    ∃ row node middle, db.instances.find? instanceId = some row ∧
      db.currentNode row = some node ∧ node.type = expected ∧
      db.advance (verifiedRequest row node outcome idempotencyKey output actorId correlationId
        now) = .ok (middle, result) ∧
      after = middle.setActor row.id node.key actorType := by
  unfold Database.advanceVerified at hadvance
  cases hrow : db.instances.find? instanceId with
  | none =>
    rw [hrow] at hadvance
    cases hadvance
  | some row =>
    rw [hrow] at hadvance
    simp only at hadvance
    cases hnode : (db.currentNode row).filter fun node => node.type = expected with
    | none =>
      rw [hnode] at hadvance
      cases hadvance
    | some node =>
      rw [hnode] at hadvance
      simp only at hadvance
      obtain ⟨hcurrent, htype⟩ := Option.filter_eq_some_iff.mp hnode
      cases hstep : db.advance (verifiedRequest row node outcome idempotencyKey output actorId
          correlationId now) with
      | error =>
        rw [hstep] at hadvance
        cases hadvance
      | ok answer =>
        obtain ⟨middle, answered⟩ := answer
        rw [hstep] at hadvance
        cases hadvance
        exact ⟨row, node, middle, rfl, hcurrent, of_decide_eq_true htype, hstep, rfl⟩

/-- A call that finds what it needs makes its move. -/
theorem Database.Moves.advance {db : Database} {request : StepRequest} {row : Instance}
    {source target : Node} (hmoves : db.Moves request row source target)
    (hobject : request.output.all fun output => output.isObject) :
    db.advance request = .ok (db.move row source target request,
      (db.move row source target request).view (row.moveTo target request.now) false) := by
  have hvalid : (request.output.any fun output => !output.isObject) = false := by
    cases houtput : request.output with
    | none => rfl
    | some output =>
      rw [houtput] at hobject
      simpa using hobject
  rw [Database.advance, if_neg (ne_true_of_eq_false hvalid), hmoves.opened]
  dsimp only
  rw [hmoves.fresh]
  dsimp only
  rw [if_neg (not_le.mpr hmoves.current), if_neg (not_not.mpr hmoves.inProgress), hmoves.atSource]
  dsimp only
  rw [if_neg (not_not.mpr hmoves.expected), if_neg hmoves.notEnd, hmoves.toTarget]

/-- A verified step at a node of the expected type is what the step makes of it. -/
theorem advanceVerified_of_advance {db middle : Database} {instanceId : ℕ} {expected : NodeType}
    {outcome idempotencyKey : String} {output : Document} {actorId correlationId : Option String}
    {now : ℤ} {row : Instance} {node : Node} {result : StepResult}
    (hrow : db.instances.find? instanceId = some row) (hcurrent : db.currentNode row = some node)
    (htype : node.type = expected)
    (hadvance : db.advance (verifiedRequest row node outcome idempotencyKey output actorId
      correlationId now) = .ok (middle, result)) (actorType : ActorType) :
    db.advanceVerified instanceId expected outcome idempotencyKey output actorType actorId
      correlationId now = .ok (middle.setActor row.id node.key actorType, result) := by
  have hnode : (db.currentNode row).filter (fun node => node.type = expected) = some node :=
    Option.filter_eq_some_iff.mpr ⟨hcurrent, decide_eq_true htype⟩
  rw [Database.advanceVerified, hrow]
  dsimp only
  rw [hnode]
  dsimp only
  rw [hadvance]

/-- A verified step that finds what it needs adds its execution. -/
theorem advanceVerified_of_moves {db : Database} {instanceId : ℕ} {expected : NodeType}
    {outcome idempotencyKey : String} {output : Document} {actorId correlationId : Option String}
    {now : ℤ} {row : Instance} {node target : Node}
    (hrow : db.instances.find? instanceId = some row) (htype : node.type = expected)
    (hmoves : db.Moves (verifiedRequest row node outcome idempotencyKey output actorId correlationId
      now) row node target)
    (hobject : output.isObject) (actorType : ActorType) :
    ∃ after result, db.advanceVerified instanceId expected outcome idempotencyKey output actorType
        actorId correlationId now = .ok (after, result) ∧
      ∃ execution ∈ after.executions, execution.key = (instanceId, idempotencyKey) := by
  have hid : row.id = instanceId := (Table.find?_eq_some.mp hrow).2
  exact ⟨_, _, advanceVerified_of_advance hrow hmoves.atSource htype (hmoves.advance hobject)
    actorType, _, List.mem_append_right _ (List.mem_singleton_self _),
    congrArg (fun id => (id, idempotencyKey)) hid⟩

/-- Marking the actor changes nothing that an event says. -/
theorem mem_events_setActor {db : Database} {instanceId : ℕ} {node : String}
    {actorType : ActorType} {event : JourneyEvent}
    (hmem : event ∈ (db.setActor instanceId node actorType).events) :
    ∃ old ∈ db.events, event.instanceId = old.instanceId ∧ event.payload = old.payload := by
  obtain ⟨old, hold, hsame⟩ := mem_changeFirst (List.mem_reverse.mp hmem)
  refine ⟨old, List.mem_reverse.mp hold, ?_⟩
  rcases hsame with rfl | rfl
  · exact ⟨rfl, rfl⟩
  · exact ⟨rfl, rfl⟩

/-! ## The generic step -/

/-- The look of `advanceStep` at the current node, before it calls `advance_journey_step`. -/
def Database.admitsStep (db : Database) (request : StepRequest) : Bool :=
  (db.openInstance request.instanceId request.resumeTokenHash).any fun row =>
    (db.currentNode row).any fun node =>
      (node.type = .start ∨ node.type = .phoneCapture) ∧ request.outcome = "SUCCESS"

/-! ## What a step leaves in the tables -/

def LeftBySuccess (expected : NodeType) (db : Database) (event : JourneyEvent) (nodeKey : String)
    (attempt : ℕ) : Prop :=
  (∃ next, event.payload = .stepSucceeded nodeKey "SUCCESS" next attempt) ∧
    ∃ row ∈ db.instances.rows, row.id = event.instanceId ∧ ∃ graph node,
      db.graph row.versionId = some graph ∧ graph.node? nodeKey = some node ∧
        node.type = expected

section

variable {db after : Database} {request : StepRequest} {result : StepResult}

/-- Attempts are counted up, and an instance stays in its version and with its customer. -/
structure Follows (before after : Database) : Prop where
  versions : after.versions = before.versions
  rows : ∀ row ∈ after.instances.rows, ∃ old ∈ before.instances.rows,
    old.id = row.id ∧ old.versionId = row.versionId
  kept : ∀ old ∈ before.instances.rows, ∃ row ∈ after.instances.rows,
    row.id = old.id ∧ row.customerId = old.customerId
  attempts : ∀ instanceId node,
    before.nextAttempt instanceId node ≤ after.nextAttempt instanceId node

theorem Follows.refl (db : Database) : Follows db db :=
  ⟨rfl, fun row hmem => ⟨row, hmem, rfl, rfl⟩, fun row hmem => ⟨row, hmem, rfl, rfl⟩,
    fun _ _ => le_rfl⟩

theorem nextAttempt_le {instanceId : ℕ} {node : String} {more : List Execution}
    (hmore : after.executions = db.executions ++ more) :
    db.nextAttempt instanceId node ≤ after.nextAttempt instanceId node := by
  have hmax : ∀ first second : List ℕ, first.foldr max 0 ≤ (first ++ second).foldr max 0 := by
    intro first second
    induction first with
    | nil => exact Nat.zero_le _
    | cons attempt rest ih => exact max_le_max le_rfl ih
  unfold Database.nextAttempt Database.executionsOf
  rw [hmore, List.filter_append, List.filter_append, List.map_append]
  exact Nat.succ_le_succ (hmax _ _)

theorem follows_of_advance (hadvance : db.advance request = .ok (after, result)) :
    Follows db after := by
  rcases advance_cases hadvance with
    ⟨_, _, _, _, _, rfl, _⟩ | ⟨row, source, target, _, rfl, _⟩
  · exact .refl _
  · refine ⟨rfl, ?_, ?_, fun _ _ => nextAttempt_le rfl⟩
    · intro moved hmoved
      obtain ⟨old, hold, rfl⟩ := List.mem_map.mp hmoved
      refine ⟨old, hold, ?_⟩
      split <;> exact ⟨rfl, rfl⟩
    · intro old hold
      refine ⟨_, List.mem_map_of_mem hold, ?_⟩
      split <;> exact ⟨rfl, rfl⟩

/-- An event of a step is old, or tells of the move that the call has made. -/
theorem mem_events_advance (hadvance : db.advance request = .ok (after, result))
    {event : JourneyEvent} (hmem : event ∈ after.events) {nodeKey outcome next : String}
    {attempt : ℕ} (hpayload : event.payload = .stepSucceeded nodeKey outcome next attempt) :
    event ∈ db.events ∨ ∃ row source target, db.Moves request row source target ∧
      event.instanceId = row.id ∧ nodeKey = source.key ∧ outcome = request.outcome.toUpper ∧
        attempt = db.nextAttempt row.id source.key := by
  rcases advance_cases hadvance with
    ⟨_, _, _, _, _, rfl, _⟩ | ⟨row, source, target, hmoves, rfl, _⟩
  · exact .inl hmem
  · rcases List.mem_append.mp hmem with hsteps | hcompleted
    · rcases List.mem_append.mp hsteps with hold | hnew
      · exact .inl hold
      · rw [List.mem_singleton.mp hnew] at hpayload ⊢
        cases hpayload
        exact .inr ⟨row, source, target, hmoves, rfl, rfl, rfl, rfl⟩
    · split at hcompleted
      · rw [List.mem_singleton.mp hcompleted] at hpayload
        cases hpayload
      · cases hcompleted

theorem follows_of_advanceVerified {instanceId : ℕ} {expected : NodeType}
    {outcome idempotencyKey : String} {output : Document} {actorType : ActorType}
    {actorId correlationId : Option String} {now : ℤ}
    (hadvance : db.advanceVerified instanceId expected outcome idempotencyKey output actorType
      actorId correlationId now = .ok (after, result)) : Follows db after := by
  obtain ⟨row, node, middle, _, _, _, hstep, rfl⟩ := advanceVerified_eq_ok hadvance
  have hfollows := follows_of_advance hstep
  exact ⟨hfollows.versions, hfollows.rows, hfollows.kept, hfollows.attempts⟩

/-- An event of a verified step says what an old one says, or tells of the move from a node of
the expected type. -/
theorem mem_events_advanceVerified {instanceId : ℕ} {expected : NodeType}
    {outcome idempotencyKey : String} {output : Document} {actorType : ActorType}
    {actorId correlationId : Option String} {now : ℤ}
    (hadvance : db.advanceVerified instanceId expected outcome idempotencyKey output actorType
      actorId correlationId now = .ok (after, result))
    {event : JourneyEvent} (hmem : event ∈ after.events) {nodeKey said next : String}
    {attempt : ℕ} (hpayload : event.payload = .stepSucceeded nodeKey said next attempt) :
    (∃ old ∈ db.events, event.instanceId = old.instanceId ∧ event.payload = old.payload) ∨
      ∃ row source, db.instances.find? instanceId = some row ∧
        db.currentNode row = some source ∧ source.type = expected ∧
        db.execution? instanceId idempotencyKey = none ∧ event.instanceId = instanceId ∧
        nodeKey = source.key ∧ said = outcome.toUpper.toUpper ∧
        attempt = db.nextAttempt instanceId source.key := by
  obtain ⟨row, node, middle, hrow, hnode, htype, hstep, rfl⟩ := advanceVerified_eq_ok hadvance
  obtain ⟨told, htold, hsame, hpayload'⟩ := mem_events_setActor hmem
  rcases mem_events_advance hstep htold (hpayload' ▸ hpayload) with
    hold | ⟨moved, source, target, hmoves, hinstance, hkey, hsaid, hattempt⟩
  · exact .inl ⟨told, hold, hsame, hpayload'⟩
  · have hid : row.id = instanceId := (Table.find?_eq_some.mp hrow).2
    have hmoved : moved = row :=
      db.instances.eq_of_key_eq hmoves.mem.1 (Table.find?_eq_some.mp hrow).1 hmoves.mem.2
    subst hmoved
    have hsource : source = node := Option.some.inj (hmoves.atSource.symm.trans hnode)
    subst hsource
    have hfresh : db.execution? moved.id idempotencyKey = none := hmoves.fresh
    rw [hid] at hfresh hattempt
    exact .inr ⟨moved, source, hrow, hnode, htype, hfresh, hsame.trans (hinstance.trans hid), hkey,
      hsaid, hattempt⟩

theorem LeftBySuccess.before {expected : NodeType} (hfollows : Follows db after)
    {event old : JourneyEvent}
    {nodeKey : String} {attempt : ℕ} (hleft : LeftBySuccess expected after event nodeKey attempt)
    (hinstance : event.instanceId = old.instanceId) (hpayload : event.payload = old.payload) :
    LeftBySuccess expected db old nodeKey attempt := by
  obtain ⟨⟨next, hsaid⟩, row, hrow, hid, graph, node, hgraph, hnode, htype⟩ := hleft
  obtain ⟨before, hbefore, hsameId, hversion⟩ := hfollows.rows row hrow
  refine ⟨⟨next, hpayload ▸ hsaid⟩, before, hbefore, hsameId.trans (hid.trans hinstance), graph,
    node, ?_, hnode, htype⟩
  rw [Database.graph, hfollows.versions] at hgraph
  rw [Database.graph, hversion]
  exact hgraph

/-- The node that an instance has left is the one that it was at. -/
theorem LeftBySuccess.type_of_current {expected : NodeType} {event : JourneyEvent}
    {nodeKey : String} {attempt : ℕ}
    (hleft : LeftBySuccess expected db event nodeKey attempt) {row : Instance} {source : Node}
    (hrow : row ∈ db.instances.rows) (hinstance : event.instanceId = row.id)
    (hsource : db.currentNode row = some source) (hkey : nodeKey = source.key) :
    source.type = expected := by
  obtain ⟨_, other, hother, hid, graph, node, hgraph, hnode, htype⟩ := hleft
  have hsame : other = row := db.instances.eq_of_key_eq hother hrow (hid.trans hinstance)
  subst hsame
  rw [Database.currentNode, hgraph, Option.bind_some, Option.bind_eq_some_iff] at hsource
  obtain ⟨key, _, hcurrent⟩ := hsource
  rw [hkey, Graph.node?_key hcurrent, hcurrent] at hnode
  rw [Option.some.inj hnode]
  exact htype

end

end Finify.Onboarding
