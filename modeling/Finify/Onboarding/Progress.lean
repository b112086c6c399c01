/-
# The progress of a journey

What the calls of the onboarding services do to the instances, and where a journey comes to a
node from which no call takes it on.
-/

import Finify.Foundations.Text
import Finify.Onboarding.Services

namespace Finify.Onboarding.Services

open Finify.Foundations

/-! ## What a call does -/

/-- An instance that was just started. -/
def Begins (db : Database) (row : Instance) : Prop :=
  row.status = .inProgress ∧ ∃ graph entry, db.graph row.versionId = some graph ∧
    entry ∈ graph.entries ∧ row.currentNode = some entry.key

def Stays (old row : Instance) : Prop :=
  row.id = old.id ∧ row.versionId = old.versionId ∧ row.currentNode = old.currentNode ∧
    (row.status = old.status ∨ row.status = .expired)

/-- What a call does to the instances and to the executions: no step, the move of
`advance_journey_step`, or that of `consumeHandoff`. -/
inductive Change (handoffs : List Handoff) (before after : Database) : Prop
  | rested (hexecutions : after.executions = before.executions)
      (hrows : ∀ row ∈ after.instances.rows,
        (∃ old ∈ before.instances.rows, Stays old row) ∨ Begins before row)
      (hkept : ∀ old ∈ before.instances.rows, ∃ row ∈ after.instances.rows,
        row.id = old.id ∧ row.versionId = old.versionId)
  | moved {request : StepRequest} {row : Instance} {source target : Node}
      (hmoves : before.Moves request row source target)
      (hexecutions : after.executions = (before.move row source target request).executions)
      (hinstances : after.instances = (before.move row source target request).instances)
  | handedOver {handoff : Handoff} {row : Instance} {target : Node} {resumeTokenHash : String}
      {expiresAt now : ℤ} (hhandoff : handoff ∈ handoffs)
      (hrow : before.instances.find? handoff.instanceId = some row)
      (htarget : before.nextNode row handoff.sourceNode "SUCCESS" = some target)
      (hexecutions : handoff.executions before now = some after.executions)
      (hinstances : after.instances = before.instances.modify row.id
        (Instance.handOver target resumeTokenHash expiresAt now) fun _ => rfl)

section

variable {handoffs : List Handoff} {before after : Database}

theorem Stays.refl (row : Instance) : Stays row row := ⟨rfl, rfl, rfl, .inl rfl⟩

/-- Nothing happens to the instances. -/
theorem Change.of_eq (hexecutions : after.executions = before.executions)
    (hinstances : after.instances = before.instances) : Change handoffs before after := by
  apply Change.rested hexecutions
  · intro row hrow
    exact .inl ⟨row, hinstances ▸ hrow, .refl row⟩
  · intro old hold
    exact ⟨old, hinstances ▸ hold, rfl, rfl⟩

theorem Change.of_advance {request : StepRequest} {middle : Database} {result : StepResult}
    (hadvance : before.advance request = .ok (middle, result))
    (hexecutions : after.executions = middle.executions)
    (hinstances : after.instances = middle.instances) : Change handoffs before after := by
  rcases advance_cases hadvance with ⟨_, _, _, _, _, rfl, _⟩ | ⟨row, source, target, hmoves, rfl, _⟩
  · exact .of_eq hexecutions hinstances
  · exact .moved hmoves hexecutions hinstances

theorem Change.of_advanceVerified {instanceId : ℕ} {expected : NodeType}
    {outcome idempotencyKey : String} {output : Document} {actorType : ActorType}
    {actorId correlationId : Option String} {now : ℤ} {result : StepResult}
    (hadvance : before.advanceVerified instanceId expected outcome idempotencyKey output actorType
      actorId correlationId now = .ok (after, result)) : Change handoffs before after := by
  obtain ⟨row, node, middle, _, _, _, hstep, rfl⟩ := advanceVerified_eq_ok hadvance
  exact .of_advance hstep rfl rfl

end

/-- What a call does: to the instances one change, and to the versions nothing. -/
structure Changes (before after : State) : Prop where
  versions : after.db.versions = before.db.versions
  change : Change before.handoffs.rows before.db after.db

/-- A step operation that `advance_verified_step` makes for a service, but for wallets. -/
def Input.isVerified : Input → Bool
  | advanceStep _ _ _ => false
  | allocateWallet => false
  | _ => true

section

variable {otpHash : ℕ → String → String} {state after : State} {call : Call}
  {circumstances : Circumstances} {answer : Answer}

/-- A verified step of the journeys that a call finds, after writes to other tables. -/
def VerifiedStep (call : Call) (circumstances : Circumstances) (state after : State)
    (answer : Answer) : Prop :=
  ∃ middle type outcome output actorType actorId, State.db middle = state.db ∧
    middle.requests = state.requests ∧
    middle.advance call circumstances type outcome output actorType actorId = some (after, answer)

theorem VerifiedStep.of_advance {middle : State} {type : NodeType} {outcome actorId : String}
    {output : Document} {actorType : ActorType}
    (hadvance : middle.advance call circumstances type outcome output actorType actorId =
      some (after, answer)) (hdb : middle.db = state.db)
    (hhandoffs : middle.handoffs = state.handoffs) (hrequests : middle.requests = state.requests) :
    after.handoffs = state.handoffs ∧ after.requests = state.requests ∧
      (answer = .refused ∧ after.db = state.db ∨
        VerifiedStep call circumstances state after answer) := by
  have hstep : VerifiedStep call circumstances state after answer :=
    ⟨middle, type, outcome, output, actorType, actorId, hdb, hrequests, hadvance⟩
  obtain ⟨_, _, heq⟩ := Option.map_eq_some_iff.mp hadvance
  cases heq
  exact ⟨hhandoffs, hrequests, .inr hstep⟩

/-- A verified step operation refuses without a step, or makes a verified step. -/
theorem verified_cases (hverified : call.input.isVerified)
    (hperform : perform otpHash state call circumstances = some (after, answer)) :
    after.handoffs = state.handoffs ∧ after.requests = state.requests ∧
      (answer = .refused ∧ after.db = state.db ∨
        VerifiedStep call circumstances state after answer) := by
  unfold perform at hperform
  cases hinput : call.input with
  | advanceStep nodeKey outcome output | allocateWallet =>
    rw [hinput] at hverified
    cases hverified
  | verifyOtp code =>
    rw [hinput] at hperform
    dsimp only at hperform
    unfold verifyOtp at hperform
    split at hperform
    · cases hperform
    · split at hperform
      · cases hperform
      · split at hperform
        · exact VerifiedStep.of_advance hperform rfl rfl rfl
        · split at hperform
          · cases hperform
          · split at hperform
            · cases hperform
              exact ⟨rfl, rfl, .inl ⟨rfl, rfl⟩⟩
            · exact VerifiedStep.of_advance hperform rfl rfl rfl
        · cases hperform
  | createPin pin confirmPin =>
    rw [hinput] at hperform
    dsimp only at hperform
    unfold createPin at hperform
    split at hperform
    · cases hperform
    · split at hperform
      · cases hperform
      · split at hperform
        · cases hperform
        · exact VerifiedStep.of_advance hperform rfl rfl rfl
  | acceptConsent consentVersionId accepted =>
    rw [hinput] at hperform
    dsimp only at hperform
    unfold acceptConsent at hperform
    split at hperform
    · cases hperform
    · split at hperform
      · cases hperform
      · split at hperform
        · exact VerifiedStep.of_advance hperform rfl rfl rfl
        · cases hperform
  | submitProfile formVersionId response =>
    rw [hinput] at hperform
    dsimp only at hperform
    unfold submitProfile at hperform
    split at hperform
    · cases hperform
    · split at hperform
      · split at hperform
        · exact VerifiedStep.of_advance hperform rfl rfl rfl
        · cases hperform
      · cases hperform
  | callback nodeType outcome reference output =>
    rw [hinput] at hperform
    dsimp only at hperform
    unfold callback at hperform
    split at hperform
    · cases hperform
    · exact VerifiedStep.of_advance hperform rfl rfl rfl

theorem Changes.of_db (hdb : after.db = state.db) : Changes state after :=
  ⟨congrArg Database.versions hdb,
    .of_eq (congrArg Database.executions hdb) (congrArg Database.instances hdb)⟩

/-- What `advance` does. -/
theorem Changes.advance {type : NodeType} {outcome actorId : String} {output : Document}
    {actorType : ActorType} {middle : State}
    (hadvance : middle.advance call circumstances type outcome output actorType actorId =
      some (after, answer)) (hdb : middle.db = state.db)
    (hhandoffs : middle.handoffs = state.handoffs) :
    Changes state after ∧ after.handoffs = state.handoffs := by
  obtain ⟨⟨db, result⟩, hresult, heq⟩ := Option.map_eq_some_iff.mp hadvance
  have hok := ok_of_toOption hresult
  rw [hdb] at hok
  cases heq
  exact ⟨⟨(follows_of_advanceVerified hok).versions, .of_advanceVerified hok⟩, hhandoffs⟩

theorem Changes.succeed {type : NodeType} {output : Document} {middle : State}
    (hadvance : middle.succeed call circumstances type output = some (after, answer))
    (hdb : middle.db = state.db) (hhandoffs : middle.handoffs = state.handoffs) :
    Changes state after ∧ after.handoffs = state.handoffs :=
  Changes.advance hadvance hdb hhandoffs

theorem changes_advanceStep {nodeKey outcome : String} {output : Option Document}
    (hperform : advanceStep state call circumstances nodeKey outcome output =
      some (after, answer)) : Changes state after ∧ after.handoffs = state.handoffs := by
  unfold advanceStep at hperform
  dsimp only at hperform
  split at hperform
  case isTrue =>
    obtain ⟨⟨db, result⟩, hresult, heq⟩ := Option.map_eq_some_iff.mp hperform
    have hok := ok_of_toOption hresult
    cases heq
    exact ⟨⟨(follows_of_advance hok).versions, .of_advance hok rfl rfl⟩, rfl⟩
  case isFalse => cases hperform

theorem changes_allocateWallet
    (hperform : allocateWallet state call circumstances = some (after, answer)) :
    Changes state after ∧ after.handoffs = state.handoffs := by
  unfold allocateWallet at hperform
  split at hperform
  · cases hperform
  · split at hperform
    · cases hperform
    · split at hperform
      · cases hperform
        exact ⟨.of_db rfl, rfl⟩
      · split at hperform
        · cases hperform
        · dsimp only at hperform
          split at hperform
          · cases hperform
            exact ⟨.of_db rfl, rfl⟩
          · split at hperform
            · cases hperform
              exact ⟨.of_db rfl, rfl⟩
            case h_2 hadvance =>
              cases hperform
              have hsucceed : Changes state _ ∧ _ := Changes.succeed hadvance rfl rfl
              exact ⟨⟨hsucceed.1.versions, hsucceed.1.change⟩, hsucceed.2⟩

/-- A step operation makes one change, and none to the handoffs. -/
theorem changes_perform (hperform : perform otpHash state call circumstances =
    some (after, answer)) : Changes state after ∧ after.handoffs = state.handoffs := by
  by_cases hverified : call.input.isVerified
  · obtain ⟨hhandoffs, _, ⟨_, hdb⟩ | ⟨middle, _, _, _, _, _, hdb, _, hadvance⟩⟩ :=
      verified_cases hverified hperform
    · exact ⟨.of_db hdb, hhandoffs⟩
    · obtain ⟨_, hresult, heq⟩ := Option.map_eq_some_iff.mp hadvance
      have hok := ok_of_toOption hresult
      rw [hdb] at hok
      cases heq
      exact ⟨⟨(follows_of_advanceVerified hok).versions, .of_advanceVerified hok⟩, hhandoffs⟩
  · unfold perform at hperform
    cases hinput : call.input with
    | advanceStep =>
      rw [hinput] at hperform
      exact changes_advanceStep hperform
    | allocateWallet =>
      rw [hinput] at hperform
      exact changes_allocateWallet hperform
    | verifyOtp | createPin | acceptConsent | submitProfile | callback =>
      rw [hinput] at hverified
      exact absurd rfl hverified

/-- The look-up that begins an instance finds the version of the database. -/
theorem graph_of_versions {before after : Database} (hversions : after.versions = before.versions)
    (versionId : ℕ) : after.graph versionId = before.graph versionId := by
  unfold Database.graph
  rw [hversions]

/-- A new instance is at the entry of its version, and no other instance changes. -/
theorem begin_eq_some {db begun : Database} {request : StartRequest}
    (hbegin : Database.begin db request = some begun) :
    begun.versions = db.versions ∧ begun.executions = db.executions ∧
      ∃ row, Begins db row ∧ begun.instances.rows = db.instances.rows ++ [row] := by
  unfold Database.begin at hbegin
  obtain ⟨graph, hgraph, hentry⟩ := Option.bind_eq_some_iff.mp hbegin
  obtain ⟨entry, hhead, hinsert⟩ := Option.bind_eq_some_iff.mp hentry
  obtain ⟨instances, hinstances, heq⟩ := Option.map_eq_some_iff.mp hinsert
  obtain ⟨versionId, hversion, hfound⟩ := Option.bind_eq_some_iff.mp hgraph
  cases heq
  refine ⟨rfl, rfl, _, ⟨rfl, graph, entry, ?_, List.mem_of_head? hhead, rfl⟩,
    (Table.insert?_eq_some hinstances).2⟩
  rw [hversion]
  exact hfound

/-- The instances of one table are where they are in another. -/
structure AllStay (before after : Table Instance.id) : Prop where
  rows : ∀ row ∈ after.rows, ∃ old ∈ before.rows, Stays old row
  kept : ∀ old ∈ before.rows, ∃ row ∈ after.rows, row.id = old.id ∧ row.versionId = old.versionId

theorem AllStay.refl (table : Table Instance.id) : AllStay table table :=
  ⟨fun row hrow => ⟨row, hrow, .refl row⟩, fun row hrow => ⟨row, hrow, rfl, rfl⟩⟩

/-- Rewriting one row so that its instance stays where it is leaves all instances there. -/
theorem AllStay.modify (table : Table Instance.id) (id : ℕ) (change : Instance → Instance)
    (hkey : ∀ row, (change row).id = row.id) (hstays : ∀ row, Stays row (change row)) :
    AllStay table (table.modify id change hkey) := by
  constructor
  · intro row hrow
    obtain ⟨old, hold, rfl⟩ := List.mem_map.mp hrow
    refine ⟨old, hold, ?_⟩
    split
    · exact hstays old
    · exact .refl old
  · intro old hold
    have hmem : (if old.id = id then change old else old) ∈ (table.modify id change hkey).rows :=
      List.mem_map_of_mem hold
    refine ⟨_, hmem, ?_⟩
    split
    · exact ⟨(hstays old).1, (hstays old).2.1⟩
    · exact ⟨rfl, rfl⟩

theorem Change.of_allStay {handoffs : List Handoff} {db after : Database}
    (hexecutions : after.executions = db.executions)
    (hstay : AllStay db.instances after.instances) : Change handoffs db after :=
  .rested hexecutions (fun row hrow => .inl (hstay.rows row hrow)) hstay.kept

/-- An instance begins, and the others stay. -/
theorem Change.of_begin {handoffs : List Handoff} {db middle begun : Database}
    {request : StartRequest}
    (hbegin : Database.begin middle request = some begun)
    (hversions : middle.versions = db.versions) (hexecutions : middle.executions = db.executions)
    (hstay : AllStay db.instances middle.instances) :
    begun.versions = db.versions ∧ Change handoffs db begun := by
  obtain ⟨hsame, hnone, row, hbegins, hrows⟩ := begin_eq_some hbegin
  refine ⟨hsame.trans hversions, .rested (hnone.trans hexecutions) ?_ ?_⟩
  · intro other hother
    rw [hrows] at hother
    rcases List.mem_append.mp hother with hold | hnew
    · exact .inl (hstay.rows other hold)
    · rw [List.mem_singleton.mp hnew]
      obtain ⟨hstatus, graph, entry, hgraph, hentry⟩ := hbegins
      exact .inr ⟨hstatus, graph, entry, graph_of_versions hversions _ ▸ hgraph, hentry⟩
  · intro old hold
    obtain ⟨kept, hmem, hsame⟩ := hstay.kept old hold
    exact ⟨kept, hrows ▸ List.mem_append_left _ hmem, hsame⟩

theorem changes_startOrResume {request : StartRequest} {db : Database}
    (hstart : Database.startOrResume state.db request = some db) :
    Changes state (state.withDb db) := by
  unfold Database.startOrResume at hstart
  obtain ⟨_, hstart⟩ := Option.ite_none_left_eq_some.mp hstart
  split at hstart
  · obtain ⟨hversions, hchange⟩ := Change.of_begin hstart rfl rfl (.refl _)
    exact ⟨hversions, hchange⟩
  case h_2 row _ =>
    split at hstart
    · have hstay := AllStay.modify state.db.instances row.id Instance.expire (fun _ => rfl)
        fun row => ⟨rfl, rfl, rfl, .inr rfl⟩
      have hbegun : db.versions = state.db.versions ∧
          Change state.handoffs.rows state.db db :=
        Change.of_begin hstart rfl rfl hstay
      exact ⟨hbegun.1, hbegun.2⟩
    · split at hstart
      · have hstay := AllStay.modify state.db.instances row.id
          (Instance.resume request.resumeTokenHash) (fun _ => rfl)
          fun row => ⟨rfl, rfl, rfl, .inl rfl⟩
        cases hstart
        exact ⟨rfl, .of_allStay rfl hstay⟩
      · cases hstart

theorem consumeHandoff_eq_some {handoffId : ℕ} {trusted : TrustedChannel}
    {resumeTokenHash : String} {now : ℤ}
    (hconsume : consumeHandoff state handoffId trusted resumeTokenHash now = some after) :
    ∃ handoff row target, state.handoffs.find? handoffId = some handoff ∧
      handoff.status = .pending ∧ now < handoff.expiresAt ∧
      handoff.targetVersion = trusted.versionId ∧
      state.db.instances.find? handoff.instanceId = some row ∧
      state.db.nextNode row handoff.sourceNode "SUCCESS" = some target ∧
      handoff.executions state.db now = some after.db.executions ∧
      after.db = { state.db with
        instances := state.db.instances.modify row.id
          (Instance.handOver target resumeTokenHash (now + trusted.resumeTimeoutSeconds) now)
          fun _ => rfl
        executions := after.db.executions } ∧
      after.handoffs = state.handoffs.modify handoff.id
        (fun handoff => { handoff with status := .consumed }) fun _ => rfl := by
  unfold consumeHandoff at hconsume
  cases hhandoff : state.handoffs.find? handoffId with
  | none =>
    rw [hhandoff] at hconsume
    cases hconsume
  | some handoff =>
    rw [hhandoff] at hconsume
    dsimp only at hconsume
    split at hconsume
    · cases hconsume
    case isFalse hopen =>
      push Not at hopen
      cases hrow : state.db.instances.find? handoff.instanceId with
      | none =>
        rw [hrow] at hconsume
        cases hconsume
      | some row =>
        rw [hrow] at hconsume
        dsimp only at hconsume
        split at hconsume
        case h_1 target executions htarget hexecutions =>
          obtain ⟨_, hconsume⟩ := Option.ite_none_left_eq_some.mp hconsume
          cases hconsume
          exact ⟨handoff, row, target, rfl, hopen.1, hopen.2.1, hopen.2.2, hrow, htarget,
            hexecutions, rfl, rfl⟩
        · cases hconsume

/-- Every call makes one change. -/
theorem changes_step {event : Event} (hstep : step otpHash state event = some after) :
    Changes state after := by
  cases event with
  | call circumstances call =>
    obtain ⟨⟨done, answer⟩, hperform, heq⟩ := Option.map_eq_some_iff.mp hstep
    cases heq
    exact (changes_perform hperform).1
  | advance request =>
    obtain ⟨db, hadvance, heq⟩ := Option.map_eq_some_iff.mp hstep
    obtain ⟨result, hok⟩ := step_eq_some.mp hadvance
    cases heq
    exact ⟨(follows_of_advance hok).versions, .of_advance hok rfl rfl⟩
  | createOtpChallenge instanceId resumeTokenHash idempotencyKey policy code now =>
    obtain ⟨otp, hcreate, heq⟩ := Option.map_eq_some_iff.mp hstep
    cases heq
    refine .of_db ?_
    unfold Otp.createOtpChallenge at hcreate
    split at hcreate
    · split at hcreate
      · cases hcreate
        rfl
      · dsimp only at hcreate
        split at hcreate
        · cases hcreate
        · split at hcreate
          · cases hcreate
          · cases hcreate
            rfl
    · cases hcreate
  | review instanceId outcome idempotencyKey output actorId now =>
    obtain ⟨⟨db, result⟩, hadvance, heq⟩ := Option.map_eq_some_iff.mp hstep
    have hok := ok_of_toOption hadvance
    cases heq
    exact ⟨(follows_of_advanceVerified hok).versions, .of_advanceVerified hok⟩
  | createHandoff request =>
    change createHandoff state request = some after at hstep
    unfold createHandoff at hstep
    split at hstep
    · cases hstep
    · split at hstep
      · cases hstep
      · split at hstep
        · cases hstep
        · split at hstep
          · cases hstep
            exact .of_db rfl
          · split at hstep
            · cases hstep
            · cases hstep
              exact .of_db rfl
  | consumeHandoff handoffId trusted resumeTokenHash now =>
    obtain ⟨handoff, row, target, hhandoff, _, _, _, hrow, htarget, hexecutions, hdb, _⟩ :=
      consumeHandoff_eq_some hstep
    refine ⟨?_, Change.handedOver (Log.find?_eq_some.mp hhandoff).1 hrow htarget
      hexecutions (congrArg Database.instances hdb)⟩
    rw [hdb]
  | startOrResume request =>
    obtain ⟨db, hstart, heq⟩ := Option.map_eq_some_iff.mp hstep
    cases heq
    exact changes_startOrResume hstart

end

/-! ## Where the instances are -/

/-- Every version is accepted, every instance that is not expired has the status of its node,
every handoff is of a handoff node, and the attempts at a node begin with the first. -/
structure Placed (state : State) : Prop where
  accepted : ∀ version ∈ state.db.versions.rows, Accepted version.graph
  rows : ∀ row ∈ state.db.instances.rows, ∃ node, state.db.currentNode row = some node ∧
    (row.status = node.nextStatus ∨ row.status = .expired)
  handoffs : ∀ handoff ∈ state.handoffs.rows, ∃ row ∈ state.db.instances.rows,
    row.id = handoff.instanceId ∧ ∃ graph node, state.db.graph row.versionId = some graph ∧
      graph.node? handoff.sourceNode = some node ∧ node.type = .channelHandoff
  attempts : ∀ execution ∈ state.db.executions, ∃ first ∈ state.db.executions,
    first.instanceId = execution.instanceId ∧ first.node = execution.node ∧
      first.attemptNumber = 1

section

variable {otpHash : ℕ → String → String} {state after : State}

theorem accepted_of_graph {db : Database} {versionId : ℕ} {graph : Graph}
    (haccepted : ∀ version ∈ db.versions.rows, Accepted version.graph)
    (hgraph : db.graph versionId = some graph) : Accepted graph := by
  obtain ⟨version, hversion, rfl⟩ := Option.map_eq_some_iff.mp hgraph
  exact haccepted version (Table.find?_eq_some.mp hversion).1

theorem currentNode_of_stays {before after : Database} (hversions : after.versions = before.versions)
    {old row : Instance} (hstays : Stays old row) :
    after.currentNode row = before.currentNode old := by
  unfold Database.currentNode
  rw [graph_of_versions hversions, hstays.2.1, hstays.2.2.1]

/-- The target of a transition of an accepted graph is another node than its source. -/
theorem key_ne_of_nextNode (hplaced : Placed state) {row : Instance} {sourceNode outcome : String}
    {target : Node} (htarget : state.db.nextNode row sourceNode outcome = some target) :
    target.key ≠ sourceNode := by
  obtain ⟨graph, hgraph, hnode⟩ := Option.bind_eq_some_iff.mp htarget
  obtain ⟨transition, hchosen, hreached⟩ := Option.bind_eq_some_iff.mp hnode
  have hsound := (accepted_of_graph hplaced.accepted hgraph).sound
  obtain ⟨hmem, hfacts⟩ := List.mem_filter.mp (earliest_mem hchosen)
  rw [Graph.node?_key hreached, ← (of_decide_eq_true hfacts).1]
  exact (hsound.known transition hmem).2.2.symm

/-- The node of a key that a graph has is found. -/
theorem node?_of_mem {graph : Graph} (hsound : graph.Sound) {node : Node}
    (hnode : node ∈ graph.nodes) : graph.node? node.key = some node := by
  cases hfound : graph.node? node.key with
  | none =>
    have hnone := List.find?_eq_none.mp hfound node hnode
    exact absurd (decide_eq_true rfl) hnone
  | some other =>
    have hsame := List.inj_on_of_nodup_map hsound.nodup (List.mem_of_find?_eq_some hfound) hnode
      (Graph.node?_key hfound)
    rw [hsame]

/-- An instance that has come to a node is there. -/
theorem currentNode_of_nextNode {before after : Database}
    (hversions : after.versions = before.versions) {old row : Instance} {source outcome : String}
    {target : Node} (hnext : before.nextNode old source outcome = some target)
    (hversion : row.versionId = old.versionId) (hcurrent : row.currentNode = some target.key) :
    after.currentNode row = some target := by
  unfold Database.nextNode at hnext
  obtain ⟨graph, hgraph, hnext⟩ := Option.bind_eq_some_iff.mp hnext
  obtain ⟨transition, _, hnode⟩ := Option.bind_eq_some_iff.mp hnext
  unfold Database.currentNode
  rw [graph_of_versions hversions, hversion, hgraph, hcurrent, Option.bind_some, Option.bind_some,
    Graph.node?_key hnode]
  exact hnode

/-- Instances keep their versions. -/
theorem Change.kept {handoffs : List Handoff} {before after : Database}
    (hchange : Change handoffs before after) {old : Instance}
    (hold : old ∈ before.instances.rows) :
    ∃ row ∈ after.instances.rows, row.id = old.id ∧ row.versionId = old.versionId := by
  cases hchange with
  | rested _ _ hkept => exact hkept old hold
  | moved _ _ hinstances | handedOver _ _ _ _ hinstances =>
    rw [hinstances]
    refine ⟨_, List.mem_map_of_mem hold, ?_⟩
    split <;> exact ⟨rfl, rfl⟩

theorem handoffs_step {event : Event} (hstep : step otpHash state event = some after)
    {handoff : Handoff} (hhandoff : handoff ∈ after.handoffs.rows) :
    (∃ old ∈ state.handoffs.rows, handoff.instanceId = old.instanceId ∧
        handoff.sourceNode = old.sourceNode) ∨
      ∃ row ∈ state.db.instances.rows, row.id = handoff.instanceId ∧ ∃ node,
        state.db.currentNode row = some node ∧ node.type = .channelHandoff ∧
          handoff.sourceNode = node.key := by
  cases event with
  | call circumstances call =>
    obtain ⟨⟨done, answer⟩, hperform, heq⟩ := Option.map_eq_some_iff.mp hstep
    cases heq
    rw [(changes_perform hperform).2] at hhandoff
    exact .inl ⟨handoff, hhandoff, rfl, rfl⟩
  | advance request | startOrResume =>
    obtain ⟨db, _, heq⟩ := Option.map_eq_some_iff.mp hstep
    cases heq
    exact .inl ⟨handoff, hhandoff, rfl, rfl⟩
  | createOtpChallenge =>
    obtain ⟨otp, _, heq⟩ := Option.map_eq_some_iff.mp hstep
    cases heq
    exact .inl ⟨handoff, hhandoff, rfl, rfl⟩
  | review =>
    obtain ⟨answer, _, heq⟩ := Option.map_eq_some_iff.mp hstep
    cases heq
    exact .inl ⟨handoff, hhandoff, rfl, rfl⟩
  | createHandoff request =>
    change createHandoff state request = some after at hstep
    unfold createHandoff at hstep
    cases hrow : state.db.openInstance request.instanceId request.resumeTokenHash with
    | none =>
      rw [hrow] at hstep
      cases hstep
    | some row =>
      rw [hrow] at hstep
      cases hnode : state.db.currentNode row with
      | none =>
        simp only [hnode] at hstep
        cases hstep
      | some node =>
        simp only [hnode] at hstep
        split at hstep
        · cases hstep
        case isFalse htype =>
          split at hstep
          · cases hstep
            exact .inl ⟨handoff, hhandoff, rfl, rfl⟩
          · split at hstep
            · cases hstep
            · cases hstep
              rcases List.mem_append.mp hhandoff with hold | hnew
              · exact .inl ⟨handoff, hold, rfl, rfl⟩
              · rw [List.mem_singleton.mp hnew]
                have hfound := (Option.filter_eq_some_iff.mp hrow).1
                exact .inr ⟨row, (Table.find?_eq_some.mp hfound).1, rfl, node, hnode,
                  not_not.mp (not_or.mp htype).1, rfl⟩
  | consumeHandoff handoffId trusted resumeTokenHash now =>
    obtain ⟨consumed, _, _, _, _, _, _, _, _, _, _, hhandoffs⟩ := consumeHandoff_eq_some hstep
    rw [hhandoffs] at hhandoff
    obtain ⟨old, hold, rfl⟩ := List.mem_map.mp hhandoff
    refine .inl ⟨old, hold, ?_⟩
    split <;> exact ⟨rfl, rfl⟩

theorem nextAttempt_cases (db : Database) (instanceId : ℕ) (node : String) :
    db.nextAttempt instanceId node = 1 ∨
      ∃ execution ∈ db.executions, execution.instanceId = instanceId ∧ execution.node = node := by
  unfold Database.nextAttempt
  cases hexecutions : (db.executionsOf instanceId).filter fun execution => execution.node = node with
  | nil => exact .inl rfl
  | cons execution rest =>
    have hmem : execution ∈ (db.executionsOf instanceId).filter fun execution =>
        execution.node = node := by
      rw [hexecutions]
      exact List.mem_cons_self
    obtain ⟨hof, hnode⟩ := List.mem_filter.mp hmem
    obtain ⟨hall, hinstance⟩ := List.mem_filter.mp hof
    exact .inr ⟨execution, hall, of_decide_eq_true hinstance, of_decide_eq_true hnode⟩

theorem handoffExecutions_cases {handoff : Handoff} {db : Database} {now : ℤ}
    {executions : List Execution} (hexecutions : handoff.executions db now = some executions) :
    executions = db.executions ∨ ∃ execution, executions = db.executions ++ [execution] ∧
      execution.instanceId = handoff.instanceId ∧ execution.node = handoff.sourceNode ∧
      execution.attemptNumber = 1 := by
  unfold Handoff.executions at hexecutions
  split at hexecutions
  · cases hexecutions
    exact .inl rfl
  · obtain ⟨_, hexecutions⟩ := Option.ite_none_left_eq_some.mp hexecutions
    cases hexecutions
    exact .inr ⟨_, rfl, rfl, rfl, rfl⟩

theorem attempts_change {handoffs : List Handoff} {before after : Database}
    (hchange : Change handoffs before after)
    (hattempts : ∀ execution ∈ before.executions, ∃ first ∈ before.executions,
      first.instanceId = execution.instanceId ∧ first.node = execution.node ∧
        first.attemptNumber = 1) :
    ∀ execution ∈ after.executions, ∃ first ∈ after.executions,
      first.instanceId = execution.instanceId ∧ first.node = execution.node ∧
        first.attemptNumber = 1 := by
  cases hchange with
  | rested hexecutions =>
    rw [hexecutions]
    exact hattempts
  | @moved request row source target _ hexecutions _ =>
    rw [hexecutions]
    intro execution hmem
    rcases List.mem_append.mp hmem with hold | hnew
    · obtain ⟨first, hfirst, hsame⟩ := hattempts execution hold
      exact ⟨first, List.mem_append_left _ hfirst, hsame⟩
    · rcases nextAttempt_cases before row.id source.key with hone | ⟨old, hold, hid, hnode⟩
      · refine ⟨execution, hmem, rfl, rfl, ?_⟩
        rw [List.mem_singleton.mp hnew]
        exact hone
      · obtain ⟨first, hfirst, hinstance, hsource, hone⟩ := hattempts old hold
        refine ⟨first, List.mem_append_left _ hfirst, ?_, ?_, hone⟩
        · rw [List.mem_singleton.mp hnew, hinstance, hid]
        · rw [List.mem_singleton.mp hnew, hsource, hnode]
  | handedOver _ _ _ hexecutions _ =>
    intro execution hmem
    rcases handoffExecutions_cases hexecutions with hsame | ⟨first, hsame, _, _, hone⟩
    · rw [hsame] at hmem ⊢
      exact hattempts execution hmem
    · rw [hsame] at hmem ⊢
      rcases List.mem_append.mp hmem with hold | hnew
      · obtain ⟨first, hfirst, hfacts⟩ := hattempts execution hold
        exact ⟨first, List.mem_append_left _ hfirst, hfacts⟩
      · exact ⟨execution, hmem, rfl, rfl, List.mem_singleton.mp hnew ▸ hone⟩

/-- Every call leaves the instances at nodes of their versions. -/
theorem Placed.step (hplaced : Placed state) {event : Event}
    (hstep : step otpHash state event = some after) : Placed after := by
  obtain ⟨hversions, hchange⟩ := changes_step hstep
  constructor
  · rw [hversions]
    exact hplaced.accepted
  · intro row hrow
    cases hchange with
    | rested _ hrows _ =>
      rcases hrows row hrow with ⟨old, hold, hstays⟩ |
        ⟨hstatus, graph, entry, hgraph, hentry, hcurrent⟩
      · obtain ⟨node, hnode, hsame⟩ := hplaced.rows old hold
        refine ⟨node, (currentNode_of_stays hversions hstays).trans hnode, ?_⟩
        rcases hstays.2.2.2 with hkept | hexpired
        · rw [hkept]
          exact hsame
        · exact .inr hexpired
      · have hsound := (accepted_of_graph hplaced.accepted hgraph).sound
        have hmem : entry ∈ graph.nodes := (List.mem_filter.mp hentry).1
        obtain ⟨first, hentries, htype⟩ := hsound.entry
        rw [hentries] at hentry
        rw [← List.mem_singleton.mp hentry] at htype
        refine ⟨entry, ?_, .inl ?_⟩
        · unfold Database.currentNode
          rw [graph_of_versions hversions, hgraph, hcurrent]
          exact node?_of_mem hsound hmem
        · rw [hstatus, Node.nextStatus, htype]
    | moved hmoves _ hinstances =>
      rw [hinstances] at hrow
      obtain ⟨old, hold, rfl⟩ := List.mem_map.mp hrow
      split
      case isTrue hsame =>
        rw [state.db.instances.eq_of_key_eq hold hmoves.mem.1 hsame]
        exact ⟨_, currentNode_of_nextNode hversions hmoves.toTarget rfl rfl, .inl rfl⟩
      case isFalse =>
        obtain ⟨node, hnode, hstatus⟩ := hplaced.rows old hold
        exact ⟨node, (currentNode_of_stays hversions (.refl old)).trans hnode, hstatus⟩
    | handedOver _ hfound htarget _ hinstances =>
      rw [hinstances] at hrow
      obtain ⟨old, hold, rfl⟩ := List.mem_map.mp hrow
      split
      case isTrue hsame =>
        rw [state.db.instances.eq_of_key_eq hold (Table.find?_eq_some.mp hfound).1 hsame]
        exact ⟨_, currentNode_of_nextNode hversions htarget rfl rfl, .inl rfl⟩
      case isFalse =>
        obtain ⟨node, hnode, hstatus⟩ := hplaced.rows old hold
        exact ⟨node, (currentNode_of_stays hversions (.refl old)).trans hnode, hstatus⟩
  · intro handoff hhandoff
    rcases handoffs_step hstep hhandoff with
      ⟨old, hold, hinstance, hsource⟩ | ⟨row, hrow, hid, node, hnode, htype, hsource⟩
    · obtain ⟨row, hrow, hid, graph, node, hgraph, hnode, htype⟩ := hplaced.handoffs old hold
      obtain ⟨kept, hkept, hsame, hversion⟩ := hchange.kept hrow
      refine ⟨kept, hkept, hsame.trans (hid.trans hinstance.symm), graph, node, ?_, ?_, htype⟩
      · rw [graph_of_versions hversions, hversion]
        exact hgraph
      · rw [hsource]
        exact hnode
    · obtain ⟨kept, hkept, hsame, hversion⟩ := hchange.kept hrow
      unfold Database.currentNode at hnode
      obtain ⟨graph, hgraph, hnode⟩ := Option.bind_eq_some_iff.mp hnode
      obtain ⟨key, _, hnode⟩ := Option.bind_eq_some_iff.mp hnode
      refine ⟨kept, hkept, hsame.trans hid, graph, node, ?_, ?_, htype⟩
      · rw [graph_of_versions hversions, hversion]
        exact hgraph
      · rw [hsource, Graph.node?_key hnode]
        exact hnode
  · exact attempts_change hchange hplaced.attempts

/-- Accepted versions with instances that were just started, and no handoffs. -/
structure Opening (state : State) : Prop where
  fresh : Fresh state.db
  accepted : ∀ version ∈ state.db.versions.rows, Accepted version.graph
  handoffs : state.handoffs.rows = []

theorem Opening.placed (hopening : Opening state) : Placed state := by
  constructor
  · exact hopening.accepted
  · intro row hrow
    obtain ⟨hstatus, graph, entry, hgraph, haccepted, hentries, hcurrent⟩ :=
      hopening.fresh.started row hrow
    have hsound := haccepted.sound
    obtain ⟨first, hfirst, htype⟩ := hsound.entry
    obtain rfl : first = entry := List.singleton_inj.mp (hfirst.symm.trans hentries)
    have hmem : first ∈ graph.nodes := by
      have hentry : first ∈ graph.entries := by
        rw [hentries]
        exact List.mem_singleton_self _
      exact (List.mem_filter.mp hentry).1
    refine ⟨first, ?_, .inl ?_⟩
    · unfold Database.currentNode
      rw [hgraph, hcurrent]
      exact node?_of_mem hsound hmem
    · rw [hstatus, Node.nextStatus, htype]
  · rw [hopening.handoffs]
    exact fun _ hmem => absurd hmem List.not_mem_nil
  · rw [hopening.fresh.executions]
    exact fun _ hmem => absurd hmem List.not_mem_nil

theorem Placed.run (hplaced : Placed state) (hrun : Reaches (Services.step otpHash) state after) :
    Placed after := by
  apply Reaches.preserves Placed _ hrun hplaced
  intro before event after hbefore hstep
  exact hbefore.step hstep

end

/-! ## Leaving a node -/

def Event.now : Event → ℤ
  | call circumstances _ => circumstances.now
  | advance request => request.now
  | createOtpChallenge _ _ _ _ _ now => now
  | review _ _ _ _ _ now => now
  | createHandoff request => request.now
  | consumeHandoff _ _ _ now => now
  | startOrResume request => request.now

/-- A call takes an instance along a transition of the node at which it is: the attempt at the
node is over, and the instance is at the target. -/
def Takes (before after : Database) (instanceId : ℕ) (source : Node) : Prop :=
  ∃ row graph transition moved, before.instances.find? instanceId = some row ∧
    before.currentNode row = some source ∧ before.graph row.versionId = some graph ∧
    transition ∈ graph.transitions ∧ transition.source = source.key ∧
    after.instances.find? instanceId = some moved ∧
    moved.currentNode = some transition.target ∧
    before.nextAttempt instanceId source.key < after.nextAttempt instanceId source.key

/-- Now or after other calls, some call takes an instance on from a node. -/
def CanProceed (otpHash : ℕ → String → String) (state : State) (now : ℤ) (instanceId : ℕ)
    (source : Node) : Prop :=
  ∃ before event after, Reaches (step otpHash) state before ∧
    step otpHash before event = some after ∧ now ≤ event.now ∧
    Takes before.db after.db instanceId source

/-- A node that calls take instances on from: it is not for manual review and has a transition,
whose outcome is in upper case as `replaceGraph` stores it. -/
def Graph.Leads (graph : Graph) (source : Node) : Prop :=
  source.type ≠ .manualReview ∧ ∃ transition ∈ graph.transitions,
    transition.source = source.key ∧ transition.outcome.toUpper = transition.outcome

section

variable {otpHash : ℕ → String → String} {state after : State}

theorem lt_nextAttempt {db : Database} {execution : Execution} (hmem : execution ∈ db.executions) :
    execution.attemptNumber < db.nextAttempt execution.instanceId execution.node := by
  have hle : ∀ {numbers : List ℕ} {number : ℕ}, number ∈ numbers →
      number ≤ numbers.foldr max 0 := by
    intro numbers number hnumber
    induction numbers with
    | nil => cases hnumber
    | cons first rest ih =>
      rcases List.mem_cons.mp hnumber with rfl | hrest
      · exact le_max_left _ _
      · exact (ih hrest).trans (le_max_right _ _)
  unfold Database.nextAttempt Database.executionsOf
  apply Nat.lt_succ_of_le
  apply hle
  exact List.mem_map.mpr ⟨execution, List.mem_filter.mpr
    ⟨List.mem_filter.mpr ⟨hmem, decide_eq_true rfl⟩, decide_eq_true rfl⟩, rfl⟩

/-- A step of another instance or from another node is no attempt at the node. -/
theorem nextAttempt_append {before after : Database} {execution : Execution}
    (hexecutions : after.executions = before.executions ++ [execution]) {instanceId : ℕ}
    {node : String} (hother : ¬ (execution.instanceId = instanceId ∧ execution.node = node)) :
    after.nextAttempt instanceId node = before.nextAttempt instanceId node := by
  unfold Database.nextAttempt Database.executionsOf
  rw [hexecutions, List.filter_append, List.filter_append]
  have hnone : ([execution].filter fun execution => execution.instanceId = instanceId).filter
      (fun execution => execution.node = node) = [] := by
    rw [List.filter_filter]
    apply List.filter_eq_nil_iff.mpr
    intro new hnew hboth
    rw [List.mem_singleton.mp hnew, Bool.and_eq_true] at hboth
    exact hother ⟨of_decide_eq_true hboth.2, of_decide_eq_true hboth.1⟩
  rw [hnone, List.append_nil]

/-- The node of a handoff is a handoff node wherever its instance is. -/
theorem Graph.currentNode_type (hplaced : Placed state) {handoff : Handoff}
    (hhandoff : handoff ∈ state.handoffs.rows) {row : Instance} {instanceId : ℕ}
    (hrow : state.db.instances.find? instanceId = some row) (hid : handoff.instanceId = instanceId)
    {source : Node} (hsource : state.db.currentNode row = some source)
    (hkey : handoff.sourceNode = source.key) : source.type = .channelHandoff := by
  obtain ⟨other, hother, hsame, graph, node, hgraph, hnode, htype⟩ :=
    hplaced.handoffs handoff hhandoff
  have hfound := Table.find?_eq_some.mp hrow
  obtain rfl : other = row := state.db.instances.eq_of_key_eq hother hfound.1
    (hsame.trans (hid.trans hfound.2.symm))
  rw [Database.currentNode, hgraph, Option.bind_some, Option.bind_eq_some_iff] at hsource
  obtain ⟨key, _, hcurrent⟩ := hsource
  rw [hkey, Graph.node?_key hcurrent, hcurrent] at hnode
  rw [Option.some.inj hnode]
  exact htype

theorem Graph.Leads.of_takes (hplaced : Placed state) {after : Database} {instanceId : ℕ}
    {source : Node} (hchange : Change state.handoffs.rows state.db after)
    (htakes : Takes state.db after instanceId source) :
    ∃ row graph, state.db.instances.find? instanceId = some row ∧
      state.db.graph row.versionId = some graph ∧ Graph.Leads graph source := by
  obtain ⟨row, graph, _, _, hrow, hsource, hgraph, _, _, _, _, hattempt⟩ := htakes
  refine ⟨row, graph, hrow, hgraph, ?_⟩
  cases hchange with
  | rested hexecutions =>
    unfold Database.nextAttempt Database.executionsOf at hattempt
    rw [hexecutions] at hattempt
    exact absurd hattempt (lt_irrefl _)
  | @moved request moving leaving target hmoves hexecutions _ =>
    have hsame : moving.id = instanceId ∧ leaving.key = source.key := by
      by_contra hother
      exact hattempt.ne' (nextAttempt_append hexecutions hother)
    have hmoving : moving = row := by
      have hid := (Table.find?_eq_some.mp hrow).2
      exact state.db.instances.eq_of_key_eq hmoves.mem.1 (Table.find?_eq_some.mp hrow).1
        (hsame.1.trans hid.symm)
    subst hmoving
    have hfrom : leaving = source := Option.some.inj (hmoves.atSource.symm.trans hsource)
    subst hfrom
    constructor
    · intro htype
      obtain ⟨node, hnode, hstatus⟩ := hplaced.rows moving hmoves.mem.1
      obtain rfl : leaving = node := Option.some.inj (hsource.symm.trans hnode)
      rw [hmoves.inProgress, Node.nextStatus, htype] at hstatus
      rcases hstatus with hreview | hexpired
      · cases hreview
      · cases hexpired
    · have htarget := hmoves.toTarget
      rw [Database.nextNode, hgraph, Option.bind_some, Option.bind_eq_some_iff] at htarget
      obtain ⟨transition, hnext, _⟩ := htarget
      obtain ⟨hmem, hfacts⟩ := List.mem_filter.mp (earliest_mem hnext)
      obtain ⟨hkey, houtcome⟩ := of_decide_eq_true hfacts
      refine ⟨transition, hmem, hkey, ?_⟩
      rw [houtcome]
      exact toUpper_toUpper _
  | @handedOver handoff moving target _ _ _ hhandoff hfound htarget hexecutions _ =>
    rcases handoffExecutions_cases hexecutions with hsame | ⟨execution, hsame, hid, hnode, _⟩
    · unfold Database.nextAttempt Database.executionsOf at hattempt
      rw [hsame] at hattempt
      exact absurd hattempt (lt_irrefl _)
    · have hfacts : execution.instanceId = instanceId ∧ execution.node = source.key := by
        by_contra hother
        exact hattempt.ne' (nextAttempt_append hsame hother)
      rw [hid, hnode] at hfacts
      rw [hfacts.1] at hfound
      obtain rfl : row = moving := Option.some.inj (hrow.symm.trans hfound)
      have hof := Graph.currentNode_type hplaced hhandoff hfound hfacts.1 hsource hfacts.2
      rw [Database.nextNode, hgraph, Option.bind_some, Option.bind_eq_some_iff] at htarget
      obtain ⟨transition, hnext, _⟩ := htarget
      obtain ⟨hmem, hchosen⟩ := List.mem_filter.mp (earliest_mem hnext)
      obtain ⟨hkey, houtcome⟩ := of_decide_eq_true hchosen
      constructor
      · rw [hof]
        decide
      · refine ⟨transition, hmem, hkey.trans hfacts.2, ?_⟩
        rw [houtcome]
        decide +kernel

/-- There is always an idempotency key that an instance has not used. -/
theorem exists_fresh_key (db : Database) (instanceId : ℕ) :
    ∃ key, db.execution? instanceId key = none := by
  have hlong : ∀ executions : List Execution, ∃ bound : ℕ, ∀ execution ∈ executions,
      execution.idempotencyKey.toList.length < bound := by
    intro executions
    induction executions with
    | nil => exact ⟨0, fun _ hmem => absurd hmem List.not_mem_nil⟩
    | cons execution rest ih =>
      obtain ⟨bound, hbound⟩ := ih
      refine ⟨max bound (execution.idempotencyKey.toList.length + 1), fun other hother => ?_⟩
      rcases List.mem_cons.mp hother with rfl | hrest
      · exact lt_of_lt_of_le (Nat.lt_succ_self _) (le_max_right _ _)
      · exact lt_of_lt_of_le (hbound other hrest) (le_max_left _ _)
  obtain ⟨bound, hbound⟩ := hlong db.executions
  refine ⟨String.ofList (List.replicate bound 'k'),
    execution?_eq_none.mpr fun execution hmem hkey => ?_⟩
  have hlt := hbound execution hmem
  rw [(Prod.mk.inj hkey).2, String.toList_ofList, List.length_replicate] at hlt
  exact lt_irrefl _ hlt

theorem nodeType?_text (type : NodeType) : nodeType? type.text = some type := by
  cases type <;> decide

/-- An open instance is in progress unless its node is for manual review. -/
theorem inProgress_of_isOpen (hplaced : Placed state) {row : Instance}
    (hrow : row ∈ state.db.instances.rows) (hopen : row.status.isOpen) {source : Node}
    (hsource : state.db.currentNode row = some source) (hreview : source.type ≠ .manualReview) :
    row.status = .inProgress := by
  obtain ⟨node, hcurrent, hsame⟩ := hplaced.rows row hrow
  obtain rfl : source = node := Option.some.inj (hsource.symm.trans hcurrent)
  rcases hsame with hnext | hexpired
  · rw [hnext, Node.nextStatus] at hopen ⊢
    cases htype : source.type with
    | finish =>
      rw [htype] at hopen
      cases hopen
    | manualReview => exact absurd htype hreview
    | _ => rfl
  · rw [hexpired] at hopen
    cases hopen

/-- Among the transitions of an outcome one is taken, and its target is a node. -/
theorem exists_taken {graph : Graph} (hsound : graph.Sound) {transition : Transition}
    (hmem : transition ∈ graph.transitions) :
    ∃ taken target, graph.next? transition.source transition.outcome = some taken ∧
      taken ∈ graph.transitions ∧ taken.source = transition.source ∧
      graph.node? taken.target = some target := by
  have hcandidate : transition ∈ graph.transitions.filter fun other =>
      other.source = transition.source ∧ other.outcome = transition.outcome :=
    List.mem_filter.mpr ⟨hmem, decide_eq_true ⟨rfl, rfl⟩⟩
  cases hnext : graph.next? transition.source transition.outcome with
  | none =>
    rw [Graph.next?, earliest_eq_none] at hnext
    rw [hnext] at hcandidate
    cases hcandidate
  | some taken =>
    obtain ⟨htaken, hfacts⟩ := List.mem_filter.mp (earliest_mem hnext)
    obtain ⟨target, htarget, hkey⟩ := List.mem_map.mp (hsound.known taken htaken).2.1
    exact ⟨taken, target, rfl, htaken, (of_decide_eq_true hfacts).1,
      hkey ▸ node?_of_mem hsound htarget⟩

theorem takes_callback (hplaced : Placed state) {row : Instance}
    (hrow : row ∈ state.db.instances.rows) (hopen : row.status.isOpen) {now : ℤ}
    (hnow : now < row.expiresAt) {graph : Graph} (hgraph : state.db.graph row.versionId = some graph)
    {source : Node} (hsource : state.db.currentNode row = some source)
    (hleads : Graph.Leads graph source) :
    ∃ call after, step otpHash state (.call { now := now } call) = some after ∧
      Takes state.db after.db row.id source := by
  obtain ⟨hreview, transition, hmem, hkey, hupper⟩ := hleads
  have hsound := (accepted_of_graph hplaced.accepted hgraph).sound
  have hfound : state.db.instances.find? row.id = some row := Table.find?_key hrow
  have hnode : source ∈ graph.nodes := by
    have hcurrent := hsource
    rw [Database.currentNode, hgraph, Option.bind_some, Option.bind_eq_some_iff] at hcurrent
    obtain ⟨key, _, hnode⟩ := hcurrent
    exact List.mem_of_find?_eq_some hnode
  obtain ⟨taken, target, hnext, htaken, hsame, htarget⟩ := exists_taken hsound hmem
  obtain ⟨key, hfresh⟩ := exists_fresh_key state.db row.id
  let request := verifiedRequest row source transition.outcome key
    { text := "{}" ++ ",reference:" ++ "" } (some "") none now
  have hmoves : state.db.Moves request row source target := by
    constructor
    · exact Option.filter_eq_some_iff.mpr ⟨hfound, decide_eq_true rfl⟩
    · exact hfresh
    · exact hnow
    · exact inProgress_of_isOpen hplaced hrow hopen hsource hreview
    · exact hsource
    · rfl
    · exact fun htype => hsound.ends source hnode htype transition hmem hkey
    · change state.db.nextNode row source.key transition.outcome.toUpper.toUpper = some target
      rw [hupper, hupper, Database.nextNode, hgraph, Option.bind_some, ← hkey, hnext]
      exact htarget
  have hstep : step otpHash state (.call { now := now }
      { instanceId := row.id, resumeTokenHash := "", idempotencyKey := key,
        input := .callback source.type.text transition.outcome "" {} }) =
      some (state.withDb ((state.db.move row source target request).setActor row.id source.key
        .externalService)) := by
    unfold step perform callback State.advance
    dsimp only
    rw [nodeType?_text]
    dsimp only
    rw [advanceVerified_of_advance hfound hsource rfl (hmoves.advance rfl) .externalService]
    rfl
  refine ⟨_, _, hstep, row, graph, taken, row.moveTo target now, hfound, hsource, hgraph, htaken,
    hsame.trans hkey, ?_, congrArg some (Graph.node?_key htarget), ?_⟩
  · exact Table.find?_modify_of_find? hfound (Instance.moveTo target now) fun _ => rfl
  · have hlast : ∀ execution, execution ∈ (state.db.move row source target request).executions →
        execution.attemptNumber <
          (state.db.move row source target request).nextAttempt execution.instanceId
            execution.node := fun _ hmem => lt_nextAttempt hmem
    exact hlast _ (List.mem_append_right _ (List.mem_singleton_self _))

/-- A run leaves an instance in its version. -/
theorem graph_of_run (hrun : Reaches (Services.step otpHash) state after) {row : Instance}
    (hrow : row ∈ state.db.instances.rows) :
    ∃ kept ∈ after.db.instances.rows, kept.id = row.id ∧
      after.db.graph kept.versionId = state.db.graph row.versionId := by
  apply Reaches.preserves (fun reached : State => ∃ kept ∈ reached.db.instances.rows,
    kept.id = row.id ∧ reached.db.graph kept.versionId = state.db.graph row.versionId) _ hrun
  · exact ⟨row, hrow, rfl, rfl⟩
  · intro before event next hkept hstep
    obtain ⟨kept, hmem, hid, hgraph⟩ := hkept
    obtain ⟨hversions, hchange⟩ := changes_step hstep
    obtain ⟨later, hlater, hsame, hversion⟩ := hchange.kept hmem
    refine ⟨later, hlater, hsame.trans hid, ?_⟩
    rw [graph_of_versions hversions, hversion]
    exact hgraph

/-- A call of a run takes an instance on from nodes that lead on only. -/
theorem Graph.Leads.of_canProceed (hplaced : Placed state) {row : Instance}
    (hrow : row ∈ state.db.instances.rows) {graph : Graph}
    (hgraph : state.db.graph row.versionId = some graph) {source : Node} {now : ℤ}
    (hproceed : CanProceed otpHash state now row.id source) : Graph.Leads graph source := by
  obtain ⟨before, event, after, hrun, hstep, _, htakes⟩ := hproceed
  obtain ⟨found, other, hfound, hother, hleads⟩ :=
    Graph.Leads.of_takes (hplaced.run hrun) (changes_step hstep).change htakes
  obtain ⟨kept, hkept, hid, hsame⟩ := graph_of_run hrun hrow
  obtain rfl : kept = found := before.db.instances.eq_of_key_eq hkept
    (Table.find?_eq_some.mp hfound).1 (hid.trans (Table.find?_eq_some.mp hfound).2.symm)
  rw [hsame, hgraph] at hother
  obtain rfl : graph = other := Option.some.inj hother
  exact hleads

/-- In every run a journey that is under way can be taken on from its node if and only if the
node leads on. -/
theorem canProceed_iff {start : State} (hopening : Opening start)
    (hrun : Reaches (step otpHash) start state) {row : Instance}
    (hrow : row ∈ state.db.instances.rows) (hopen : row.status.isOpen) {now : ℤ}
    (hnow : now < row.expiresAt) :
    ∃ graph source, state.db.graph row.versionId = some graph ∧
      state.db.currentNode row = some source ∧
      (CanProceed otpHash state now row.id source ↔ Graph.Leads graph source) := by
  have hplaced := hopening.placed.run hrun
  obtain ⟨source, hsource, _⟩ := hplaced.rows row hrow
  obtain ⟨graph, hgraph, _⟩ := Option.bind_eq_some_iff.mp hsource
  refine ⟨graph, source, hgraph, hsource, ?_, ?_⟩
  · exact Graph.Leads.of_canProceed hplaced hrow hgraph
  · intro hleads
    obtain ⟨call, after, hstep, htakes⟩ :=
      takes_callback hplaced hrow hopen hnow hgraph hsource hleads
    exact ⟨state, _, after, .refl, hstep, le_rfl, htakes⟩

end

/-! ## A journey with a manual review -/

/-- A graph with a node for manual review, which has a transition. -/
def reviewGraph : Graph where
  scopes := [mobileScope]
  nodes := [{ key := "start", type := .start, entry := true },
    { key := "review", type := .manualReview }, { key := "end", type := .finish }]
  transitions := [{ source := "start", target := "review", outcome := "SUCCESS", priority := 1 },
    { source := "review", target := "end", outcome := "APPROVED", priority := 1 }]

/-- A channel that supports the nodes of the graph. -/
def reviewChannel : Channels where
  definitions := ⟨[{ id := 1, tenantId := 1, code := "MOBILE_APP" }], by decide⟩
  versions := ⟨[
    { id := 1, definitionId := 1, status := .active, countries := ["UGA"],
      capabilities := [(.start, .direct), (.manualReview, .direct), (.finish, .direct)] }],
    by decide⟩

/-- An instance at the START of the graph. -/
def reviewStart : State where
  otp :=
    { db :=
        { versions := ⟨[{ id := 1, graph := reviewGraph }], by decide⟩
          instances := twoSteps.instances
          customers := twoSteps.customers } }

theorem reviewStart_opening : Opening reviewStart := by
  constructor
  · constructor
    · rfl
    · intro row hmem
      rw [List.mem_singleton.mp hmem]
      exact ⟨rfl, _, _, rfl, by decide, rfl, rfl⟩
  · intro version hmem
    rw [List.mem_singleton.mp hmem]
    decide
  · rfl

/-- The instance can be taken on from the START. -/
theorem canProceed_iff_start :
    ∃ graph source, reviewStart.db.graph 1 = some graph ∧
      reviewStart.db.currentNode
          { id := 1, customerId := 1, versionId := 1, currentNode := some "start",
            resumeTokenHash := "token", expiresAt := 100 } = some source ∧
      (CanProceed (fun _ code => code) reviewStart 0 1 source ↔ Graph.Leads graph source) :=
  canProceed_iff reviewStart_opening .refl (List.mem_singleton_self _) rfl (by decide)

def reviewStep : Event :=
  .call { now := 0 }
    { instanceId := 1, resumeTokenHash := "token", idempotencyKey := "first-key",
      input := .advanceStep "start" "SUCCESS" none }

/-- The graph is published, and a journey that comes to its manual review stays there, although
the node has a transition. -/
theorem manual_review_strands :
    (validateVersion {} 1 reviewChannel reviewGraph).1 = true ∧ Opening reviewStart ∧
      ∃ state row source, Reaches (step fun _ code => code) reviewStart state ∧
        row ∈ state.db.instances.rows ∧ row.status.isOpen ∧ 1 < row.expiresAt ∧
        state.db.graph row.versionId = some reviewGraph ∧
        state.db.currentNode row = some source ∧
        (∃ transition ∈ reviewGraph.transitions, transition.source = source.key) ∧
        ¬ CanProceed (fun _ code => code) state 1 row.id source := by
  refine ⟨by decide +kernel, reviewStart_opening, ?_⟩
  have hany : (runInputs (step fun _ code => code) reviewStart [reviewStep]).any (fun state =>
      state.db.instances.rows.any fun row =>
        decide (row.status.isOpen ∧ 1 < row.expiresAt ∧
          state.db.graph row.versionId = some reviewGraph ∧
          state.db.currentNode row = some { key := "review", type := .manualReview })) := by
    decide +kernel
  obtain ⟨state, hrun, hrows⟩ := (Option.any_eq_true _ _).mp hany
  obtain ⟨row, hrow, hfacts⟩ := List.any_eq_true.mp hrows
  obtain ⟨hopen, hnow, hgraph, hsource⟩ := of_decide_eq_true hfacts
  have hreach := Reaches.of_runInputs hrun
  refine ⟨state, row, _, hreach, hrow, hopen, hnow, hgraph, hsource, by decide, ?_⟩
  intro hproceed
  have hleads := Graph.Leads.of_canProceed (reviewStart_opening.placed.run hreach) hrow hgraph
    hproceed
  exact hleads.1 rfl

end Finify.Onboarding.Services
