/-
# Advancing a journey

`onboarding.advance_journey_step`, as migration 047 leaves it, over the tables it reads and
writes.  The instance is locked while the function runs, so calls for one instance take effect
one after another; a call that raises changes nothing.  Node rows are known by their keys,
which are unique in a version.
-/

import Finify.Foundations.Table
import Finify.Foundations.Transition
import Finify.Onboarding.Graph
import Mathlib.Data.List.Chain

namespace Finify.Onboarding

open Finify.Foundations

/-! ## Rows -/

/-- `status` of an instance. -/
inductive InstanceStatus
  | inProgress
  | waitingExternal
  | manualReview
  | completed
  | rejected
  | cancelled
  | expired
  | failed
  deriving DecidableEq, Repr

def InstanceStatus.text : InstanceStatus → String
  | inProgress => "IN_PROGRESS"
  | waitingExternal => "WAITING_EXTERNAL"
  | manualReview => "MANUAL_REVIEW"
  | completed => "COMPLETED"
  | rejected => "REJECTED"
  | cancelled => "CANCELLED"
  | expired => "EXPIRED"
  | failed => "FAILED"

/-- `journey_versions` with its graph. -/
structure Version where
  id : ℕ
  graph : Graph
  deriving DecidableEq

/-- `journey_instances`. -/
structure Instance where
  id : ℕ
  customerId : ℕ
  versionId : ℕ
  currentNode : Option String
  status : InstanceStatus := .inProgress
  resumeTokenHash : String
  expiresAt : ℤ
  completedAt : Option ℤ := none
  deriving DecidableEq

/-- A JSON value, and whether it is an object. -/
structure Document where
  isObject : Bool := true
  text : String := "{}"
  deriving DecidableEq

/-- `step_executions`; all that are written here have succeeded. -/
structure Execution where
  instanceId : ℕ
  node : String
  attemptNumber : ℕ
  idempotencyKey : String
  inputHash : String
  output : Document
  completedAt : ℤ
  deriving DecidableEq

/-- `UQ_ONBOARDING_STEP_IDEMPOTENCY`. -/
def Execution.key (execution : Execution) : ℕ × String :=
  (execution.instanceId, execution.idempotencyKey)

/-- `actor_type` of an event. -/
inductive ActorType
  | customer
  | admin
  | system
  | externalService
  deriving DecidableEq, Repr

/-- What an event says. -/
inductive Payload
  | stepSucceeded (nodeKey outcome nextNodeKey : String) (attemptNumber : ℕ)
  | journeyCompleted (nodeKey : String)
  deriving DecidableEq

/-- `journey_events`. -/
structure JourneyEvent where
  instanceId : ℕ
  node : String
  actorType : ActorType
  actorId : Option String
  correlationId : Option String
  payload : Payload
  deriving DecidableEq

/-- `status` of a customer. -/
inductive CustomerStatus
  | prospect
  | onboarding
  | active
  | suspended
  | blocked
  | closed
  deriving DecidableEq, Repr

/-- `customer_registry.customers`. -/
structure Customer where
  id : ℕ
  status : CustomerStatus
  deriving DecidableEq

/-- The tables. -/
structure Database where
  versions : Table Version.id
  instances : Table Instance.id
  executions : List Execution := []
  events : List JourneyEvent := []
  customers : Table Customer.id

/-! ## The function -/

/-- The parameters and the time of the call. -/
structure StepRequest where
  instanceId : ℕ
  resumeTokenHash : String
  expectedNodeKey : String
  outcome : String
  idempotencyKey : String
  inputHash : String
  output : Option Document := none
  actorId : Option String := none
  correlationId : Option String := none
  now : ℤ := 0
  deriving DecidableEq

/-- The exceptions. -/
inductive StepError
  | outputNotObject
  | invalidToken
  | keyReused
  | expired
  | cannotAdvance (status : InstanceStatus)
  | nodeChanged
  | alreadyCompleted
  | noTransition (outcome nodeKey : String)
  deriving DecidableEq

/-- The text of an exception. -/
def StepError.message : StepError → String
  | outputNotObject => "Step output must be a JSON object"
  | invalidToken => "Onboarding instance or resume token is invalid"
  | keyReused => "Idempotency key was already used with different input"
  | expired => "Onboarding journey has expired"
  | cannotAdvance status => "Onboarding journey cannot advance from status " ++ status.text
  | nodeChanged => "Onboarding journey current node changed"
  | alreadyCompleted => "A completed journey cannot advance"
  | noTransition outcome nodeKey =>
    "No transition matches outcome " ++ outcome ++ " for node " ++ nodeKey

/-- The row that the function returns. -/
structure StepResult where
  instanceId : ℕ
  customerId : ℕ
  status : InstanceStatus
  currentNode : Option Node
  completedAt : Option ℤ
  replayed : Bool
  deriving DecidableEq

def Graph.node? (graph : Graph) (key : String) : Option Node :=
  graph.nodes.find? fun node => node.key = key

/-- The transition that is taken: the one with the lowest priority number. -/
def Graph.next? (graph : Graph) (source outcome : String) : Option Transition :=
  earliest Transition.priority (graph.transitions.filter fun transition =>
    transition.source = source ∧ transition.outcome = outcome)

def Node.nextStatus (node : Node) : InstanceStatus :=
  match node.type with
  | .finish => .completed
  | .manualReview => .manualReview
  | _ => .inProgress

def Instance.moveTo (target : Node) (now : ℤ) (row : Instance) : Instance :=
  { row with
    currentNode := some target.key
    status := target.nextStatus
    completedAt := if target.nextStatus = .completed then some now else none }

namespace Database

variable (db : Database)

def graph (versionId : ℕ) : Option Graph := (db.versions.find? versionId).map Version.graph

def currentNode (row : Instance) : Option Node :=
  (db.graph row.versionId).bind fun graph => row.currentNode.bind graph.node?

def openInstance (instanceId : ℕ) (resumeTokenHash : String) : Option Instance :=
  (db.instances.find? instanceId).filter fun row => row.resumeTokenHash = resumeTokenHash

def execution? (instanceId : ℕ) (idempotencyKey : String) : Option Execution :=
  db.executions.find? fun execution => execution.key = (instanceId, idempotencyKey)

def executionsOf (instanceId : ℕ) : List Execution :=
  db.executions.filter fun execution => execution.instanceId = instanceId

/-- `v_attempt`. -/
def nextAttempt (instanceId : ℕ) (node : String) : ℕ :=
  (((db.executionsOf instanceId).filter fun execution => execution.node = node).map
    Execution.attemptNumber).foldr max 0 + 1

def view (row : Instance) (replayed : Bool) : StepResult :=
  { instanceId := row.id
    customerId := row.customerId
    status := row.status
    currentNode := db.currentNode row
    completedAt := row.completedAt
    replayed := replayed }

def nextNode (row : Instance) (source outcome : String) : Option Node :=
  (db.graph row.versionId).bind fun graph =>
    (graph.next? source outcome).bind fun transition => graph.node? transition.target

def move (row : Instance) (source target : Node) (request : StepRequest) : Database :=
  { db with
    instances := db.instances.modify row.id (Instance.moveTo target request.now) fun _ => rfl
    executions := db.executions ++
      [{ instanceId := row.id
         node := source.key
         attemptNumber := db.nextAttempt row.id source.key
         idempotencyKey := request.idempotencyKey
         inputHash := request.inputHash
         output := request.output.getD {}
         completedAt := request.now }]
    events := db.events ++
      [{ instanceId := row.id
         node := source.key
         actorType := .customer
         actorId := request.actorId
         correlationId := request.correlationId
         payload := .stepSucceeded source.key request.outcome.toUpper target.key
           (db.nextAttempt row.id source.key) }] ++
      if target.nextStatus = .completed then
        [{ instanceId := row.id
           node := target.key
           actorType := .system
           actorId := none
           correlationId := request.correlationId
           payload := .journeyCompleted target.key }]
      else []
    customers :=
      if target.nextStatus = .completed then
        db.customers.modify row.customerId
          (fun customer =>
            { customer with
              status := if customer.status = .onboarding then .active else customer.status })
          fun _ => rfl
      else db.customers }

/-- `advance_journey_step`. -/
def advance (request : StepRequest) : Except StepError (Database × StepResult) :=
  if request.output.any fun output => !output.isObject then .error .outputNotObject
  else
    match db.openInstance request.instanceId request.resumeTokenHash with
    | none => .error .invalidToken
    | some row =>
      match db.execution? request.instanceId request.idempotencyKey with
      | some execution =>
        if execution.inputHash ≠ request.inputHash then .error .keyReused
        else .ok (db, db.view row true)
      | none =>
        if row.expiresAt ≤ request.now then .error .expired
        else if row.status ≠ .inProgress then .error (.cannotAdvance row.status)
        else
          match db.currentNode row with
          | none => .error .nodeChanged
          | some source =>
            if source.key ≠ request.expectedNodeKey then .error .nodeChanged
            else if source.type = .finish then .error .alreadyCompleted
            else
              match db.nextNode row source.key request.outcome.toUpper with
              | none => .error (.noTransition request.outcome.toUpper source.key)
              | some target =>
                .ok (db.move row source target request,
                  (db.move row source target request).view
                    (row.moveTo target request.now) false)

end Database

/-! ## What a call does -/

/-- The facts of a call that moves its instance. -/
structure Database.Moves (db : Database) (request : StepRequest) (row : Instance)
    (source target : Node) : Prop where
  opened : db.openInstance request.instanceId request.resumeTokenHash = some row
  fresh : db.execution? request.instanceId request.idempotencyKey = none
  current : request.now < row.expiresAt
  inProgress : row.status = .inProgress
  atSource : db.currentNode row = some source
  expected : source.key = request.expectedNodeKey
  notEnd : source.type ≠ .finish
  toTarget : db.nextNode row source.key request.outcome.toUpper = some target

section

variable {db after : Database} {request : StepRequest} {result : StepResult}

/-- A call that returns has replayed an execution or made a move. -/
theorem advance_cases (hadvance : db.advance request = .ok (after, result)) :
    (∃ row execution, db.openInstance request.instanceId request.resumeTokenHash = some row ∧
        db.execution? request.instanceId request.idempotencyKey = some execution ∧
        execution.inputHash = request.inputHash ∧ after = db ∧ result = db.view row true) ∨
      ∃ row source target, db.Moves request row source target ∧
        after = db.move row source target request ∧
        result = (db.move row source target request).view
          (row.moveTo target request.now) false := by
  unfold Database.advance at hadvance
  split at hadvance
  · cases hadvance
  · cases hopened : db.openInstance request.instanceId request.resumeTokenHash with
    | none =>
      rw [hopened] at hadvance
      cases hadvance
    | some row =>
      rw [hopened] at hadvance
      cases hfound : db.execution? request.instanceId request.idempotencyKey with
      | some execution =>
        rw [hfound] at hadvance
        simp only at hadvance
        split at hadvance
        · cases hadvance
        case isFalse hsame =>
          cases hadvance
          exact .inl ⟨row, execution, rfl, rfl, not_not.mp hsame, rfl, rfl⟩
      | none =>
        rw [hfound] at hadvance
        simp only at hadvance
        split at hadvance
        · cases hadvance
        case isFalse hcurrent =>
          split at hadvance
          · cases hadvance
          case isFalse hstatus =>
            cases hsource : db.currentNode row with
            | none =>
              rw [hsource] at hadvance
              cases hadvance
            | some source =>
              rw [hsource] at hadvance
              simp only at hadvance
              split at hadvance
              · cases hadvance
              case isFalse hexpected =>
                split at hadvance
                · cases hadvance
                case isFalse hend =>
                  cases htarget : db.nextNode row source.key request.outcome.toUpper with
                  | none =>
                    rw [htarget] at hadvance
                    cases hadvance
                  | some target =>
                    rw [htarget] at hadvance
                    cases hadvance
                    exact .inr ⟨row, source, target,
                      ⟨hopened, hfound, not_le.mp hcurrent, not_not.mp hstatus, hsource,
                        not_not.mp hexpected, hend, htarget⟩, rfl, rfl⟩

/-- A repeat of an execution returns the instance as it is now. -/
theorem advance_of_execution {row : Instance} {execution : Execution}
    (hobject : request.output.all fun output => output.isObject)
    (hopened : db.openInstance request.instanceId request.resumeTokenHash = some row)
    (hfound : db.execution? request.instanceId request.idempotencyKey = some execution)
    (hsame : execution.inputHash = request.inputHash) :
    db.advance request = .ok (db, db.view row true) := by
  have hvalid : (request.output.any fun output => !output.isObject) = false := by
    cases houtput : request.output with
    | none => rfl
    | some output =>
      rw [houtput] at hobject
      simpa using hobject
  simp [Database.advance, hvalid, hopened, hfound, hsame]

end

/-! ## Runs -/

/-- A call that returns; one that raises changes nothing. -/
def step (db : Database) (request : StepRequest) : Option Database :=
  match db.advance request with
  | .ok (after, _) => some after
  | .error _ => none

theorem step_eq_some {db after : Database} {request : StepRequest} :
    step db request = some after ↔ ∃ result, db.advance request = .ok (after, result) := by
  unfold step
  cases hadvance : db.advance request with
  | error => simp
  | ok answer =>
    obtain ⟨next, result⟩ := answer
    simp

/-- The nodes that an instance has been at. -/
def Database.history (db : Database) (row : Instance) : List String :=
  ((db.executionsOf row.id).map Execution.node) ++ row.currentNode.toList

/-- A walk along the transitions of a graph from its START. -/
structure Graph.Walk (graph : Graph) (nodes : List String) : Prop where
  begins : ∃ entry, graph.entries = [entry] ∧ entry.type = .start ∧ nodes.head? = some entry.key
  follows : nodes.IsChain fun source target =>
    ∃ transition ∈ graph.transitions, transition.source = source ∧ transition.target = target

/-- Every instance was just started: it is at the entry of an accepted version, and no step was
executed. -/
structure Fresh (db : Database) : Prop where
  executions : db.executions = []
  started : ∀ row ∈ db.instances.rows, row.status = .inProgress ∧
    ∃ graph entry, db.graph row.versionId = some graph ∧ Accepted graph ∧
      graph.entries = [entry] ∧ row.currentNode = some entry.key

/-- A key moves an instance at most once, a repeat changes nothing and returns where the
instance is, the instance walks along its version, and stays once it is completed. -/
structure OncePerKey (db : Database) : Prop where
  keys : (db.executions.map Execution.key).Nodup
  moved : ∀ request after result, db.advance request = .ok (after, result) →
    result.replayed = false →
      (∀ execution ∈ db.executions,
        execution.key ≠ (request.instanceId, request.idempotencyKey)) ∧
      ∃ execution ∈ after.executions,
        execution.key = (request.instanceId, request.idempotencyKey)
  repeated : ∀ request row execution,
    db.openInstance request.instanceId request.resumeTokenHash = some row →
      execution ∈ db.executions →
        execution.key = (request.instanceId, request.idempotencyKey) →
          execution.inputHash = request.inputHash →
            (request.output.all fun output => output.isObject) →
              db.advance request = .ok (db, db.view row true)
  walks : ∀ row ∈ db.instances.rows, ∃ graph, db.graph row.versionId = some graph ∧
    graph.Walk (db.history row)
  completed : ∀ row ∈ db.instances.rows, row.status = .completed →
    ∀ request after, step db request = some after → row ∈ after.instances.rows

/-- What a run of calls preserves. -/
structure Walking (db : Database) : Prop where
  keys : (db.executions.map Execution.key).Nodup
  walks : ∀ row ∈ db.instances.rows, ∃ graph, db.graph row.versionId = some graph ∧
    Accepted graph ∧ graph.Walk (db.history row)

section

variable {db after : Database} {request : StepRequest}

theorem Graph.node?_key {graph : Graph} {key : String} {node : Node}
    (hnode : graph.node? key = some node) : node.key = key := by
  simpa using List.find?_some hnode

/-- The facts of a move, on the level of the graph. -/
theorem Database.Moves.edge {row : Instance} {source target : Node}
    (hmoves : db.Moves request row source target) {graph : Graph}
    (hgraph : db.graph row.versionId = some graph) :
    row.currentNode = some source.key ∧ ∃ transition ∈ graph.transitions,
      transition.source = source.key ∧ transition.target = target.key := by
  have hsource := hmoves.atSource
  have htarget := hmoves.toTarget
  rw [Database.currentNode, hgraph, Option.bind_some, Option.bind_eq_some_iff] at hsource
  rw [Database.nextNode, hgraph, Option.bind_some, Option.bind_eq_some_iff] at htarget
  obtain ⟨key, hkey, hnode⟩ := hsource
  obtain ⟨transition, hnext, hnode'⟩ := htarget
  have hmem := List.mem_filter.mp (earliest_mem hnext)
  rw [Graph.node?_key hnode, hkey]
  refine ⟨rfl, transition, hmem.1, ?_, (Graph.node?_key hnode').symm⟩
  rw [(of_decide_eq_true hmem.2).1, Graph.node?_key hnode]

theorem Database.Moves.mem {row : Instance} {source target : Node}
    (hmoves : db.Moves request row source target) :
    row ∈ db.instances.rows ∧ row.id = request.instanceId :=
  Table.find?_eq_some.mp (Option.filter_eq_some_iff.mp hmoves.opened).1

theorem execution?_eq_none {instanceId : ℕ} {idempotencyKey : String} :
    db.execution? instanceId idempotencyKey = none ↔
      ∀ execution ∈ db.executions, execution.key ≠ (instanceId, idempotencyKey) := by
  simp [Database.execution?, List.find?_eq_none]

/-- A move keeps the keys apart and every history a walk. -/
theorem Walking.move (hwalking : Walking db) {row : Instance} {source target : Node}
    (hmoves : db.Moves request row source target) :
    Walking (db.move row source target request) := by
  obtain ⟨hmem, hid⟩ := hmoves.mem
  constructor
  · show ((db.executions ++ [_]).map Execution.key).Nodup
    rw [List.map_append, List.map_singleton, ← List.concat_eq_append]
    apply hwalking.keys.concat
    intro hkey
    obtain ⟨execution, hexecution, hsame⟩ := List.mem_map.mp hkey
    refine execution?_eq_none.mp hmoves.fresh execution hexecution (hsame.trans ?_)
    rw [Execution.key, hid]
  · intro other hother
    obtain ⟨old, hold, rfl⟩ := List.mem_map.mp hother
    by_cases hsame : old.id = row.id
    · rw [db.instances.eq_of_key_eq hold hmem hsame, if_pos rfl]
      obtain ⟨graph, hgraph, haccepted, hwalk⟩ := hwalking.walks row hmem
      obtain ⟨hcurrent, hedge⟩ := hmoves.edge hgraph
      refine ⟨graph, hgraph, haccepted, ?_⟩
      have hhistory : (db.move row source target request).history
          (row.moveTo target request.now) = db.history row ++ [target.key] := by
        simp [Database.history, Database.executionsOf, Database.move, Instance.moveTo, hcurrent]
        rfl
      rw [hhistory]
      have hlast : db.history row =
          (db.executionsOf row.id).map Execution.node ++ [source.key] := by
        rw [Database.history, hcurrent]
        rfl
      constructor
      · obtain ⟨entry, hentries, htype, hhead⟩ := hwalk.begins
        refine ⟨entry, hentries, htype, ?_⟩
        rw [List.head?_append, hhead]
        rfl
      · apply List.IsChain.append hwalk.follows (List.isChain_singleton _)
        intro last hlast' first hfirst
        rw [hlast, List.getLast?_append] at hlast'
        cases hlast'
        cases hfirst
        exact hedge
    · rw [if_neg hsame]
      obtain ⟨graph, hgraph, haccepted, hwalk⟩ := hwalking.walks old hold
      refine ⟨graph, hgraph, haccepted, ?_⟩
      have hhistory : (db.move row source target request).history old = db.history old := by
        simp [Database.history, Database.executionsOf, Database.move, Ne.symm hsame]
      rw [hhistory]
      exact hwalk

/-- Every call that returns keeps to it. -/
theorem Walking.step (hwalking : Walking db) (hstep : step db request = some after) :
    Walking after := by
  obtain ⟨result, hadvance⟩ := step_eq_some.mp hstep
  rcases advance_cases hadvance with ⟨_, _, _, _, _, rfl, _⟩ | ⟨row, source, target, hmoves, rfl, _⟩
  · exact hwalking
  · exact hwalking.move hmoves

theorem Fresh.walking (hfresh : Fresh db) : Walking db := by
  constructor
  · rw [hfresh.executions]
    exact List.nodup_nil
  · intro row hmem
    obtain ⟨_, graph, entry, hgraph, haccepted, hentries, hcurrent⟩ := hfresh.started row hmem
    obtain ⟨first, hfirst, htype⟩ := haccepted.sound.entry
    have hhistory : db.history row = [entry.key] := by
      rw [Database.history, Database.executionsOf, hfresh.executions, hcurrent]
      rfl
    obtain rfl : first = entry := List.singleton_inj.mp (hfirst.symm.trans hentries)
    refine ⟨graph, hgraph, haccepted, ⟨first, hfirst, htype, ?_⟩, ?_⟩
    · rw [hhistory]
      rfl
    · rw [hhistory]
      exact List.isChain_singleton _

theorem Walking.oncePerKey (hwalking : Walking db) : OncePerKey db := by
  constructor
  · exact hwalking.keys
  · intro request after result hadvance hnew
    rcases advance_cases hadvance with
      ⟨row, _, _, _, _, _, rfl⟩ | ⟨row, source, target, hmoves, rfl, _⟩
    · cases hnew
    · refine ⟨execution?_eq_none.mp hmoves.fresh, _,
        List.mem_append_right _ (List.mem_singleton_self _), ?_⟩
      rw [Execution.key, hmoves.mem.2]
  · intro request row execution hopened hmem hkey hsame hobject
    cases hfound : db.execution? request.instanceId request.idempotencyKey with
    | none => exact absurd hkey (execution?_eq_none.mp hfound execution hmem)
    | some other =>
      have hother : other.key = (request.instanceId, request.idempotencyKey) := by
        simpa using List.find?_some hfound
      have heq := List.inj_on_of_nodup_map hwalking.keys (List.mem_of_find?_eq_some hfound) hmem
        (hother.trans hkey.symm)
      exact advance_of_execution hobject hopened hfound (heq ▸ hsame)
  · intro row hmem
    obtain ⟨graph, hgraph, _, hwalk⟩ := hwalking.walks row hmem
    exact ⟨graph, hgraph, hwalk⟩
  · intro row hmem hcompleted request after hstep
    obtain ⟨result, hadvance⟩ := step_eq_some.mp hstep
    rcases advance_cases hadvance with
      ⟨_, _, _, _, _, rfl, _⟩ | ⟨other, source, target, hmoves, rfl, _⟩
    · exact hmem
    · have hother : row.id ≠ other.id := by
        intro hid
        have hsame := db.instances.eq_of_key_eq hmem hmoves.mem.1 hid
        rw [hsame, hmoves.inProgress] at hcompleted
        cases hcompleted
      exact List.mem_map.mpr ⟨row, hmem, if_neg hother⟩

end

/-- In every run of calls each key moves its instance at most once. -/
theorem each_key_advances_once {start db : Database} (hfresh : Fresh start)
    (hrun : Reaches step start db) : OncePerKey db := by
  apply Walking.oncePerKey
  apply Reaches.preserves Walking _ hrun hfresh.walking
  intro before request after hwalking hstep
  exact hwalking.step hstep

/-- An instance at the START of a graph of three nodes. -/
def twoSteps : Database where
  versions := ⟨[{ id := 1, graph :=
    { scopes := [{ countryCode := "UGA", channelCode := "MOBILE_APP",
                   customerType := "INDIVIDUAL", priority := 100 }]
      nodes := [{ key := "start", type := .start, entry := true },
        { key := "phone", type := .phoneCapture }, { key := "end", type := .finish }]
      transitions := [{ source := "start", target := "phone", outcome := "SUCCESS", priority := 1 },
        { source := "phone", target := "end", outcome := "SUCCESS", priority := 1 }] } }], by decide⟩
  instances := ⟨[{ id := 1, customerId := 1, versionId := 1, currentNode := some "start",
                   resumeTokenHash := "token", expiresAt := 100 }], by decide⟩
  customers := ⟨[{ id := 1, status := .onboarding }], by decide⟩

theorem twoSteps_fresh : Fresh twoSteps := by
  constructor
  · rfl
  · intro row hmem
    rw [List.mem_singleton.mp hmem]
    exact ⟨rfl, _, _, rfl, by decide, rfl, rfl⟩

def stepFrom (node key : String) : StepRequest :=
  { instanceId := 1, resumeTokenHash := "token", expectedNodeKey := node, outcome := "SUCCESS",
    idempotencyKey := key, inputHash := node }

/-- Two steps complete the journey, and the first can be repeated. -/
theorem each_key_advances_once_twice : ∃ db, Reaches step twoSteps db ∧
    db.executions.length = 2 ∧ OncePerKey db := by
  have hany : (runInputs step twoSteps [stepFrom "start" "first-key", stepFrom "phone" "second-key",
      stepFrom "start" "first-key"]).any (fun db => db.executions.length = 2) := by
    decide +kernel
  obtain ⟨db, hrun, hlength⟩ := (Option.any_eq_true _ _).mp hany
  have hreach := Reaches.of_runInputs hrun
  exact ⟨db, hreach, of_decide_eq_true hlength, each_key_advances_once twoSteps_fresh hreach⟩

/-- A repeat returns what the call has returned that moved the instance. -/
def ReturnsRecorded (start : Database) : Prop :=
  ∀ db request after result, Reaches step start db → db.advance request = .ok (after, result) →
    result.replayed = false → ∀ later, Reaches step after later → ∀ last again,
      later.advance request = .ok (last, again) → again = { result with replayed := true }

/-- After the second step a repeat of the first returns the END node, not the node that the
first step has led to. -/
theorem repeat_returns_current : Fresh twoSteps ∧ ¬ ReturnsRecorded twoSteps := by
  refine ⟨twoSteps_fresh, fun hrecorded => ?_⟩
  have hany : (twoSteps.advance (stepFrom "start" "first-key")).toOption.any (fun first =>
      first.2.replayed = false ∧ first.2.currentNode.map Node.key = some "phone" ∧
        (step first.1 (stepFrom "phone" "second-key")).any fun later =>
          (later.advance (stepFrom "start" "first-key")).toOption.any fun again =>
            again.2.currentNode.map Node.key = some "end") := by
    decide +kernel
  obtain ⟨first, hfirst, hfacts⟩ := (Option.any_eq_true _ _).mp hany
  obtain ⟨hnew, hphone, hlater⟩ := of_decide_eq_true hfacts
  obtain ⟨later, hsecond, hagain⟩ := (Option.any_eq_true _ _).mp hlater
  obtain ⟨again, hrepeat, hend⟩ := (Option.any_eq_true _ _).mp hagain
  have hsame := hrecorded twoSteps _ first.1 first.2 .refl (ok_of_toOption hfirst) hnew
    later (Reaches.tail .refl _ hsecond) again.1 again.2 (ok_of_toOption hrepeat)
  rw [hsame] at hend
  rw [show ({ first.2 with replayed := true } : StepResult).currentNode = first.2.currentNode
    from rfl, hphone] at hend
  revert hend
  decide

end Finify.Onboarding
