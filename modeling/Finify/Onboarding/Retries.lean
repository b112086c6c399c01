/-
# Repeats of a step

What a step operation does when a client repeats a call that has advanced its instance: with the
same key, token and input, right away or after anything else has happened.
-/

import Finify.Onboarding.Progress

namespace Finify.Onboarding.Services

open Finify.Foundations

/-! ## Calls and their repeats -/

/-- The call has advanced its instance. -/
def Answer.advances : Answer → Bool
  | step result => !result.replayed
  | wallet _ replayed => !replayed
  | refused => false

/-- `CK_ONBOARDING_NODE_KEY`. -/
def Node.keyFits (node : Node) : Bool :=
  match node.key.toList with
  | [] => false
  | first :: rest =>
    first.isAlpha && rest.length ≤ 79 &&
      rest.all fun char => char.isAlphanum || char = '_' || char = '-'

/-- The keys of the nodes are those that the table of nodes admits. -/
def KeysFit (db : Database) : Prop :=
  ∀ version ∈ db.versions.rows, ∀ node ∈ version.graph.nodes, Node.keyFits node = true

def StandsAs (before after : Database) (instanceId : ℕ) : Prop :=
  ∃ old row, before.instances.find? instanceId = some old ∧
    after.instances.find? instanceId = some row ∧ after.view row false = before.view old false

/-- The instance of the token is at a node that the generic step serves. -/
def AtGenericNode (db : Database) (call : Call) : Prop :=
  ∃ row node, db.openInstance call.instanceId call.resumeTokenHash = some row ∧
    db.currentNode row = some node ∧ (node.type = .start ∨ node.type = .phoneCapture)

/-- The instance of the token is open and unexpired at a node for the allocation of a wallet, and
the product binding of the node is found. -/
def AtWalletNode (state : State) (call : Call) (circumstances : Circumstances) : Prop :=
  ∃ row node binding,
    state.db.context call.instanceId call.resumeTokenHash .walletAllocation circumstances.now =
      .ok (row, node) ∧
    circumstances.catalogue.walletBinding (circumstances.context node) = .ok binding

/-- The condition for a repeat, in a state after the one that the first call has left: a generic
step where the instance still stands at a generic node, and an allocation at a wallet node. -/
def Repeats (left state : State) (call : Call) (circumstances : Circumstances) : Prop :=
  match call.input with
  | .advanceStep _ _ _ => AtGenericNode state.db call ∧ StandsAs left.db state.db call.instanceId
  | .allocateWallet => AtWalletNode state call circumstances
  | _ => False

section

variable {otpHash : ℕ → String → String} {state after : State} {call : Call}
  {circumstances : Circumstances} {answer : Answer}

/-! ## What a step operation does -/

/-- The verified step of a service is a step at the node where the instance is. -/
theorem verified_advance {middle : State} {type : NodeType} {outcome actorId : String}
    {output : Document} {actorType : ActorType}
    (hadvance : middle.advance call circumstances type outcome output actorType actorId =
      some (after, answer)) :
    ∃ row node db result, middle.db.instances.find? call.instanceId = some row ∧
      middle.db.currentNode row = some node ∧
      middle.db.advance (verifiedRequest row node outcome call.idempotencyKey output (some actorId)
        none circumstances.now) = .ok (db, result) ∧
      after = middle.withDb (db.setActor row.id node.key actorType) ∧ answer = .step result := by
  obtain ⟨⟨db, result⟩, hresult, heq⟩ := Option.map_eq_some_iff.mp hadvance
  obtain ⟨row, node, stepped, hrow, hnode, _, hstep, hdb⟩ :=
    advanceVerified_eq_ok (ok_of_toOption hresult)
  cases heq
  exact ⟨row, node, stepped, result, hrow, hnode, hstep, by rw [hdb], rfl⟩

theorem verified_step (hverified : call.input.isVerified) {result : StepResult}
    (hperform : perform otpHash state call circumstances = some (after, .step result)) :
    ∃ row node outcome output actorId db, state.db.instances.find? call.instanceId = some row ∧
      state.db.currentNode row = some node ∧
      state.db.advance (verifiedRequest row node outcome call.idempotencyKey output (some actorId)
        none circumstances.now) = .ok (db, result) ∧
      after.db.executions = db.executions := by
  rcases (verified_cases hverified hperform).2.2 with
    ⟨hrefused, _⟩ | ⟨middle, _, outcome, output, _, actorId, hdb, _, hadvance⟩
  · cases hrefused
  · obtain ⟨row, node, db, _, hrow, hnode, hstep, rfl, hresult⟩ := verified_advance hadvance
    cases hresult
    rw [hdb] at hrow hnode hstep
    exact ⟨row, node, outcome, output, actorId, db, hrow, hnode, hstep, rfl⟩

/-! ## What a run keeps -/

theorem Change.executions_eq {handoffs : List Handoff} {before after : Database}
    (hchange : Change handoffs before after) :
    ∃ more, after.executions = before.executions ++ more := by
  cases hchange with
  | rested hexecutions => exact ⟨[], by rw [hexecutions, List.append_nil]⟩
  | moved _ hexecutions _ => exact ⟨_, hexecutions⟩
  | handedOver _ _ _ hexecutions _ =>
    rcases handoffExecutions_cases hexecutions with hsame | ⟨execution, hsame, _⟩
    · exact ⟨[], by rw [hsame, List.append_nil]⟩
    · exact ⟨[execution], hsame⟩

/-- The execution of a key stays. -/
theorem execution_of_change {handoffs : List Handoff} {before after : Database}
    (hchange : Change handoffs before after) {instanceId : ℕ} {idempotencyKey : String}
    {execution : Execution} (hfound : before.execution? instanceId idempotencyKey = some execution) :
    after.execution? instanceId idempotencyKey = some execution := by
  obtain ⟨more, hmore⟩ := hchange.executions_eq
  unfold Database.execution? at hfound ⊢
  rw [hmore, List.find?_append, hfound, Option.some_or]

theorem execution_of_run (hrun : Reaches (step otpHash) state after) {instanceId : ℕ}
    {idempotencyKey : String} {execution : Execution}
    (hfound : state.db.execution? instanceId idempotencyKey = some execution) :
    after.db.execution? instanceId idempotencyKey = some execution := by
  apply Reaches.preserves (fun reached : State =>
    reached.db.execution? instanceId idempotencyKey = some execution) _ hrun hfound
  intro before event next hbefore hstep
  exact execution_of_change (changes_step hstep).change hbefore

theorem versions_of_run (hrun : Reaches (step otpHash) state after) :
    after.db.versions = state.db.versions := by
  apply Reaches.preserves (fun reached : State => reached.db.versions = state.db.versions) _ hrun
    rfl
  intro before event next hbefore hstep
  exact (changes_step hstep).versions.trans hbefore

/-- In every run the records of executions stay, in their order and with more behind them, no
journey leaves its graph, and no version changes. -/
theorem records_only_grow (hrun : Reaches (step otpHash) state after) :
    state.db.executions <+: after.db.executions ∧ after.db.versions = state.db.versions ∧
      ∀ row ∈ state.db.instances.rows, ∃ kept ∈ after.db.instances.rows, kept.id = row.id ∧
        after.db.graph kept.versionId = state.db.graph row.versionId := by
  refine ⟨?_, versions_of_run hrun, fun row hrow => graph_of_run hrun hrow⟩
  apply Reaches.preserves (fun reached : State =>
    state.db.executions <+: reached.db.executions) _ hrun List.prefix_rfl
  intro before event next hbefore hstep
  obtain ⟨more, hmore⟩ := (changes_step hstep).change.executions_eq
  exact hbefore.trans ⟨more, hmore.symm⟩

/-- A call that makes a move records its input under its key. -/
theorem execution_of_move {db : Database} {request : StepRequest} {row : Instance}
    {source target : Node} (hmoves : db.Moves request row source target) :
    ∃ execution, (db.move row source target request).execution? request.instanceId
        request.idempotencyKey = some execution ∧ execution.inputHash = request.inputHash := by
  have hid : row.id = request.instanceId :=
    (Table.find?_eq_some.mp (Option.filter_eq_some_iff.mp hmoves.opened).1).2
  have hfresh := hmoves.fresh
  unfold Database.execution? at hfresh ⊢
  refine ⟨{
    instanceId := row.id
    node := source.key
    attemptNumber := db.nextAttempt row.id source.key
    idempotencyKey := request.idempotencyKey
    inputHash := request.inputHash
    output := request.output.getD {}
    completedAt := request.now }, ?_, rfl⟩
  change List.find? _ (db.executions ++ [_]) = _
  rw [List.find?_append, hfresh, Option.none_or, List.find?_singleton, if_pos]
  exact decide_eq_true (congrArg (fun id => (id, request.idempotencyKey)) hid)

/-! ## Keys of nodes -/

theorem colon_notMem_of_keyFits {node : Node} (hfits : Node.keyFits node = true) :
    ':' ∉ node.key.toList := by
  unfold Node.keyFits at hfits
  intro hmem
  split at hfits
  case h_1 hnil =>
    rw [hnil] at hmem
    cases hmem
  case h_2 first rest hcons =>
    rw [hcons] at hmem
    obtain ⟨hhead, hrest⟩ := Bool.and_eq_true_iff.mp hfits
    rcases List.mem_cons.mp hmem with rfl | htail
    · exact absurd (Bool.and_eq_true_iff.mp hhead).1 (by decide)
    · exact absurd (List.all_eq_true.mp hrest ':' htail) (by decide)

theorem keyFits_of_node? {db : Database} (hkeys : KeysFit db) {versionId : ℕ} {graph : Graph}
    (hgraph : db.graph versionId = some graph) {key : String} {node : Node}
    (hnode : graph.node? key = some node) : Node.keyFits node = true := by
  obtain ⟨version, hversion, rfl⟩ := Option.map_eq_some_iff.mp hgraph
  exact hkeys version (Table.find?_eq_some.mp hversion).1 node (List.mem_of_find?_eq_some hnode)

theorem keyFits_of_currentNode {db : Database} (hkeys : KeysFit db) {row : Instance} {node : Node}
    (hnode : db.currentNode row = some node) : Node.keyFits node = true := by
  obtain ⟨graph, hgraph, hfound⟩ := Option.bind_eq_some_iff.mp hnode
  obtain ⟨key, _, hkey⟩ := Option.bind_eq_some_iff.mp hfound
  exact keyFits_of_node? hkeys hgraph hkey

/-- Inputs of verified steps that are the same are of the same node. -/
theorem key_eq_of_inputHash {row other : Instance} {source node : Node}
    {outcome again key more : String} {output document : Document}
    {actorId someone correlationId related : Option String} {now later : ℤ}
    (hsource : Node.keyFits source = true) (hnode : Node.keyFits node = true)
    (hsame : (verifiedRequest row source outcome key output actorId correlationId now).inputHash =
      (verifiedRequest other node again more document someone related later).inputHash) :
    source.key = node.key := by
  have hchars : source.key.toList ++ ':' :: (outcome.toUpper.toList ++ ':' :: output.text.toList) =
      node.key.toList ++ ':' :: (again.toUpper.toList ++ ':' :: document.text.toList) := by
    have hlists := congrArg String.toList hsame
    simpa [verifiedRequest, String.toList_append] using hlists
  exact String.toList_injective (eq_of_append_cons (colon_notMem_of_keyFits hsource)
    (colon_notMem_of_keyFits hnode) hchars)

/-! ## Verified steps -/

/-- No repeat of a verified step operation answers as the call did that has advanced the
instance: the recorded input is that of the node that the call has left, so that a repeat that is
recognized finds the instance there again, and answers with that node. -/
theorem not_repeats_of_verified (hplaced : Placed state) (hkeys : KeysFit state.db)
    (hverified : call.input.isVerified)
    (hfirst : perform otpHash state call circumstances = some (after, answer))
    (hadvances : answer.advances) {later : State} (hlater : Reaches (step otpHash) after later)
    (again : Circumstances) (final : State) :
    perform otpHash later call again ≠ some (final, answer.replay) := by
  intro hagain
  cases answer with
  | refused => cases hadvances
  | wallet walletReference replayed =>
    rcases (verified_cases hverified hfirst).2.2 with ⟨hrefused, _⟩ | hstep
    · cases hrefused
    · obtain ⟨middle, _, _, _, _, _, _, _, hadvance⟩ := hstep
      obtain ⟨_, _, _, _, _, _, _, _, hresult⟩ := verified_advance hadvance
      cases hresult
  | step result =>
    have hnew : result.replayed = false := Bool.not_eq_true' _ ▸ hadvances
    obtain ⟨row, source, outcome, output, actorId, db, hrow, hsource, hstep, hexecutions⟩ :=
      verified_step hverified hfirst
    obtain ⟨other, node, next, document, someone, stepped, hother, hnode, hrepeat, _⟩ :=
      verified_step hverified hagain
    rcases advance_cases hstep with
      ⟨_, _, _, _, _, _, hview⟩ | ⟨moving, leaving, target, hmoves, hdb, hview⟩
    · rw [hview] at hnew
      cases hnew
    rcases advance_cases hrepeat with
      ⟨found, execution, hopened, hexecution, hhash, _, hsame⟩ | ⟨_, _, _, _, _, hsame⟩
    · obtain ⟨recorded, hrecorded, hinput⟩ := execution_of_move hmoves
      have hid : row.id = call.instanceId := (Table.find?_eq_some.mp hrow).2
      have hotherId : other.id = call.instanceId := (Table.find?_eq_some.mp hother).2
      obtain rfl : row = moving := by
        have hmoving := (Option.filter_eq_some_iff.mp hmoves.opened).1
        rw [verifiedRequest, hid] at hmoving
        exact Option.some.inj (hrow.symm.trans hmoving)
      obtain rfl : source = leaving := Option.some.inj (hsource.symm.trans hmoves.atSource)
      obtain rfl : other = found := by
        have hfound := (Option.filter_eq_some_iff.mp hopened).1
        rw [verifiedRequest, hotherId] at hfound
        exact Option.some.inj (hother.symm.trans hfound)
      -- The execution of the first call is the one that the repeat finds.
      have hkept : after.db.execution? row.id call.idempotencyKey = some recorded := by
        unfold Database.execution? at hrecorded ⊢
        rw [hexecutions, hdb]
        exact hrecorded
      obtain rfl : recorded = execution := by
        have hfound := execution_of_run hlater hkept
        rw [verifiedRequest, hotherId] at hexecution
        rw [hid] at hfound
        exact Option.some.inj (hfound.symm.trans hexecution)
      have hversions : later.db.versions = state.db.versions :=
        (versions_of_run hlater).trans (changes_perform hfirst).1.versions
      have hkey : source.key = node.key := by
        apply key_eq_of_inputHash (keyFits_of_currentNode hkeys hsource) _ (hinput.symm.trans hhash)
        apply keyFits_of_currentNode _ hnode
        unfold KeysFit
        rw [hversions]
        exact hkeys
      -- The repeat answers with the node that the call has left, the call with the next one.
      have hanswer := congrArg StepResult.currentNode hsame
      rw [hview] at hanswer
      have harrived : (state.db.move row source target (verifiedRequest row source outcome
          call.idempotencyKey output (some actorId) none circumstances.now)).currentNode
            (row.moveTo target circumstances.now) = some target :=
        currentNode_of_nextNode rfl hmoves.toTarget rfl rfl
      obtain rfl : target = node :=
        Option.some.inj (harrived.symm.trans (hanswer.trans hnode))
      exact key_ne_of_nextNode hplaced hmoves.toTarget hkey.symm
    · have hreplayed := congrArg StepResult.replayed hsame
      cases hreplayed

/-! ## Generic steps -/

theorem admitsStep_iff {db : Database} {nodeKey outcome : String} {output : Option Document}
    {now : ℤ} :
    db.admitsStep (call.stepRequest nodeKey outcome output now) = true ↔
      AtGenericNode db call ∧ outcome = "SUCCESS" := by
  unfold Database.admitsStep AtGenericNode
  constructor
  · intro hadmits
    obtain ⟨row, hopened, hnode⟩ := (Option.any_eq_true _ _).mp hadmits
    obtain ⟨node, hcurrent, hfacts⟩ := (Option.any_eq_true _ _).mp hnode
    obtain ⟨htype, houtcome⟩ := of_decide_eq_true hfacts
    exact ⟨⟨row, node, hopened, hcurrent, htype⟩, houtcome⟩
  · rintro ⟨⟨row, node, hopened, hcurrent, htype⟩, rfl⟩
    apply (Option.any_eq_true _ _).mpr
    refine ⟨row, hopened, (Option.any_eq_true _ _).mpr ⟨node, hcurrent, ?_⟩⟩
    exact decide_eq_true ⟨htype, rfl⟩

/-- What `advanceStep` does. -/
theorem generic_step {nodeKey outcome : String} {output : Option Document}
    (hinput : call.input = .advanceStep nodeKey outcome output)
    (hperform : perform otpHash state call circumstances = some (after, answer)) :
    AtGenericNode state.db call ∧ outcome = "SUCCESS" ∧ ∃ db result,
      state.db.advance (call.stepRequest nodeKey outcome output circumstances.now) =
        .ok (db, result) ∧ after = state.withDb db ∧ answer = .step result := by
  unfold perform at hperform
  rw [hinput] at hperform
  dsimp only at hperform
  unfold advanceStep at hperform
  dsimp only at hperform
  split at hperform
  case isTrue hadmits =>
    obtain ⟨hnode, houtcome⟩ := admitsStep_iff.mp hadmits
    obtain ⟨⟨db, result⟩, hresult, heq⟩ := Option.map_eq_some_iff.mp hperform
    cases heq
    exact ⟨hnode, houtcome, db, result, ok_of_toOption hresult, rfl, rfl⟩
  case isFalse => cases hperform

/-- The output of a step that is made is an object. -/
theorem isObject_of_advance {db stepped : Database} {request : StepRequest} {result : StepResult}
    (hadvance : db.advance request = .ok (stepped, result)) :
    (request.output.all fun output => output.isObject) = true := by
  unfold Database.advance at hadvance
  split at hadvance
  case isTrue => cases hadvance
  case isFalse hvalid =>
    cases houtput : request.output with
    | none => rfl
    | some output =>
      rw [houtput] at hvalid
      simpa using hvalid

/-- A repeat of a generic step answers as the call did if and only if the instance is at a
generic node and is returned as the call has left it. -/
theorem repeats_of_generic {nodeKey outcome : String} {output : Option Document}
    (hinput : call.input = .advanceStep nodeKey outcome output)
    (hfirst : perform otpHash state call circumstances = some (after, answer))
    (hadvances : answer.advances) {later : State} (hlater : Reaches (step otpHash) after later)
    (again : Circumstances) :
    perform otpHash later call again = some (later, answer.replay) ↔
      AtGenericNode later.db call ∧ StandsAs after.db later.db call.instanceId := by
  obtain ⟨_, rfl, db, result, hstep, rfl, rfl⟩ := generic_step hinput hfirst
  have hnew : result.replayed = false := Bool.not_eq_true' _ ▸ hadvances
  rcases advance_cases hstep with ⟨_, _, _, _, _, _, hview⟩ |
    ⟨row, source, target, hmoves, rfl, hview⟩
  · rw [hview] at hnew
    cases hnew
  have hrow := (Option.filter_eq_some_iff.mp hmoves.opened).1
  have hid : row.id = call.instanceId := (Table.find?_eq_some.mp hrow).2
  have hmoved : (state.db.move row source target (call.stepRequest nodeKey "SUCCESS" output
      circumstances.now)).instances.find? call.instanceId =
        some (row.moveTo target circumstances.now) := by
    rw [← hid]
    exact Table.find?_modify_of_find? (hid ▸ hrow) (Instance.moveTo target circumstances.now)
      fun _ => rfl
  constructor
  · intro hagain
    obtain ⟨hnode, _, _, answered, hrepeat, _, hanswer⟩ := generic_step hinput hagain
    refine ⟨hnode, ?_⟩
    cases hanswer
    rcases advance_cases hrepeat with ⟨found, _, hopened, _, _, _, hsame⟩ | ⟨_, _, _, _, _, hsame⟩
    · refine ⟨_, found, hmoved, (Option.filter_eq_some_iff.mp hopened).1, ?_⟩
      calc
        later.db.view found false = { later.db.view found true with replayed := false } := rfl
        _ = { result with replayed := false } := by rw [← hsame]
        _ = result := by rw [← hnew]
        _ = _ := hview
    · have hreplayed := congrArg StepResult.replayed hsame
      cases hreplayed
  · rintro ⟨hnode, old, found, hold, hfound, hsame⟩
    obtain ⟨opened, node, hopened, hcurrent, htype⟩ := hnode
    obtain rfl : opened = found :=
      Option.some.inj ((Option.filter_eq_some_iff.mp hopened).1.symm.trans hfound)
    obtain rfl : row.moveTo target circumstances.now = old :=
      Option.some.inj (hmoved.symm.trans hold)
    obtain ⟨recorded, hrecorded, hinputHash⟩ := execution_of_move hmoves
    have hkept : later.db.execution? call.instanceId call.idempotencyKey = some recorded :=
      execution_of_run hlater hrecorded
    have hobject := isObject_of_advance hstep
    have hrepeat : later.db.advance (call.stepRequest nodeKey "SUCCESS" output again.now) =
        .ok (later.db, later.db.view opened true) :=
      advance_of_execution hobject hopened hkept hinputHash
    have hview' : later.db.view opened true = { result with replayed := true } := by
      calc
        later.db.view opened true = { later.db.view opened false with replayed := true } := rfl
        _ = { result with replayed := true } := by
          rw [hsame, hview]
          rfl
    unfold perform
    rw [hinput]
    dsimp only
    unfold advanceStep
    dsimp only
    rw [if_pos (admitsStep_iff.mpr ⟨⟨opened, node, hopened, hcurrent, htype⟩, rfl⟩), hrepeat, hview']
    rfl

/-! ## Allocations -/

def Stored (state : State) (call : Call) (walletReference : Option String) : Prop :=
  ∃ request, state.request? call = some request ∧ request.status = .succeeded ∧
    request.walletReference = walletReference

theorem Stored.of_requests {walletReference : Option String}
    (hstored : Stored state call walletReference) (hrequests : after.requests = state.requests) :
    Stored after call walletReference := by
  unfold Stored State.request? at hstored ⊢
  rw [hrequests]
  exact hstored

/-- What `allocateWallet` does: it finds its request as one that has succeeded, or it stores it. -/
theorem allocateWallet_cases (hperform : allocateWallet state call circumstances =
    some (after, answer)) :
    AtWalletNode state call circumstances ∧
      ((∃ walletReference, Stored state call walletReference ∧ after = state ∧
          answer = .wallet walletReference true) ∨
        (∀ walletReference, ¬ Stored state call walletReference) ∧ ∃ binding status walletReference,
          after.requests = state.storeRequest call binding status walletReference ∧
          (answer = .refused ∨ ∃ reference, walletReference = some reference ∧
            status = .succeeded ∧ answer = .wallet walletReference false)) := by
  unfold allocateWallet at hperform
  split at hperform
  · cases hperform
  case h_2 row node hcontext =>
    split at hperform
    · cases hperform
    case h_2 binding hbinding =>
      refine ⟨⟨row, node, binding, ok_of_toOption hcontext, ok_of_toOption hbinding⟩, ?_⟩
      cases hrequest : (state.request? call).filter fun request => request.status = .succeeded with
      | some request =>
        rw [hrequest] at hperform
        cases hperform
        obtain ⟨hfound, hstatus⟩ := Option.filter_eq_some_iff.mp hrequest
        exact .inl ⟨_, ⟨request, hfound, of_decide_eq_true hstatus, rfl⟩, rfl, rfl⟩
      | none =>
        rw [hrequest] at hperform
        dsimp only at hperform
        have hnone : ∀ walletReference, ¬ Stored state call walletReference := by
          rintro walletReference ⟨request, hfound, hstatus, _⟩
          rw [hfound, Option.filter_some, if_pos (decide_eq_true hstatus)] at hrequest
          cases hrequest
        obtain ⟨_, hperform⟩ := Option.ite_none_left_eq_some.mp hperform
        split at hperform
        · cases hperform
          exact .inr ⟨hnone, _, _, _, rfl, .inl rfl⟩
        · split at hperform
          · cases hperform
            exact .inr ⟨hnone, _, _, _, rfl, .inl rfl⟩
          · cases hperform
            exact .inr ⟨hnone, _, _, _, rfl, .inr ⟨_, rfl, rfl, rfl⟩⟩

theorem request_key {request : Allocation.AllocationRequest}
    (hfound : state.request? call = some request) :
    request.instanceId = call.instanceId ∧ request.idempotencyKey = call.idempotencyKey := by
  unfold State.request? at hfound
  have hkey := List.find?_some hfound
  exact of_decide_eq_true hkey

/-- Requests are found as before where a change keeps their keys. -/
theorem request_of_map {change : Allocation.AllocationRequest → Allocation.AllocationRequest}
    (hkeys : ∀ request, (change request).instanceId = request.instanceId ∧
      (change request).idempotencyKey = request.idempotencyKey)
    (hrequests : after.requests = state.requests.map change) :
    after.request? call = (state.request? call).map change := by
  unfold State.request?
  rw [hrequests, List.find?_map]
  congr 2
  funext request
  rw [Function.comp, (hkeys request).1, (hkeys request).2]

/-- The request of another call is stored as it was. -/
theorem Stored.of_other {other : Call} {binding : WalletProductBinding}
    {status : Allocation.RequestStatus} {walletReference reference : Option String}
    (hstored : Stored state call walletReference)
    (hother : ¬ (call.instanceId = other.instanceId ∧ call.idempotencyKey = other.idempotencyKey))
    (hrequests : after.requests = state.storeRequest other binding status reference) :
    Stored after call walletReference := by
  obtain ⟨request, hfound, hfacts⟩ := hstored
  refine ⟨request, ?_, hfacts⟩
  have hkey := request_key hfound
  unfold State.storeRequest at hrequests
  split at hrequests
  · rw [request_of_map _ hrequests, hfound, Option.map_some, if_neg]
    · rwa [hkey.1, hkey.2]
    · intro request
      split <;> exact ⟨rfl, rfl⟩
  · unfold State.request? at hfound ⊢
    rw [hrequests, List.find?_append, hfound, Option.some_or]

theorem Stored.of_storeRequest {binding : WalletProductBinding} {walletReference : String}
    (hrequests : after.requests =
      state.storeRequest call binding .succeeded (some walletReference)) :
    Stored after call (some walletReference) := by
  unfold State.storeRequest at hrequests
  split at hrequests
  case isTrue hsome =>
    obtain ⟨request, hfound⟩ := Option.isSome_iff_exists.mp hsome
    refine ⟨{ request with
      status := .succeeded
      walletReference := some walletReference }, ?_, rfl, rfl⟩
    rw [request_of_map _ hrequests, hfound, Option.map_some, if_pos (request_key hfound)]
    · rfl
    · intro request
      split <;> exact ⟨rfl, rfl⟩
  case isFalse hnone =>
    refine ⟨{
      instanceId := call.instanceId
      idempotencyKey := call.idempotencyKey
      walletType := binding.walletType
      currency := binding.currency
      status := .succeeded
      walletReference := some walletReference }, ?_, rfl, rfl⟩
    unfold State.request? at hnone ⊢
    rw [hrequests, List.find?_append, Option.not_isSome_iff_eq_none.mp hnone, Option.none_or,
      List.find?_singleton, if_pos]
    exact decide_eq_true ⟨rfl, rfl⟩

/-- A request that has succeeded stays stored, whatever step operation follows. -/
theorem Stored.perform {other : Call} {walletReference : Option String}
    (hstored : Stored state call walletReference)
    (hperform : perform otpHash state other circumstances = some (after, answer)) :
    Stored after call walletReference := by
  by_cases hverified : other.input.isVerified
  · exact hstored.of_requests (verified_cases hverified hperform).2.1
  · cases hinput : other.input with
    | advanceStep nodeKey outcome output =>
      obtain ⟨_, _, db, _, _, rfl, _⟩ := generic_step hinput hperform
      exact hstored.of_requests rfl
    | allocateWallet =>
      have hallocate : allocateWallet state other circumstances = some (after, answer) := by
        unfold Services.perform at hperform
        rwa [hinput] at hperform
      rcases (allocateWallet_cases hallocate).2 with
        ⟨_, _, rfl, _⟩ | ⟨hnone, _, _, _, hrequests, _⟩
      · exact hstored
      · apply hstored.of_other _ hrequests
        rintro ⟨hinstance, hkey⟩
        apply hnone walletReference
        unfold Stored State.request? at hstored ⊢
        rwa [← hinstance, ← hkey]
    | verifyOtp | createPin | acceptConsent | submitProfile | callback =>
      rw [hinput] at hverified
      exact absurd rfl hverified

theorem Stored.step {event : Event} {walletReference : Option String}
    (hstored : Stored state call walletReference)
    (hstep : step otpHash state event = some after) : Stored after call walletReference := by
  cases event with
  | call circumstances other =>
    obtain ⟨⟨done, answer⟩, hperform, rfl⟩ := Option.map_eq_some_iff.mp hstep
    exact hstored.perform hperform
  | advance | review | startOrResume | createOtpChallenge =>
    obtain ⟨_, _, rfl⟩ := Option.map_eq_some_iff.mp hstep
    exact hstored.of_requests rfl
  | createHandoff request =>
    change createHandoff state request = some after at hstep
    unfold createHandoff at hstep
    split at hstep
    · cases hstep
    · split at hstep
      · cases hstep
      · split at hstep
        · cases hstep
        · split at hstep
          · cases hstep
            exact hstored
          · split at hstep
            · cases hstep
            · cases hstep
              exact hstored.of_requests rfl
  | consumeHandoff handoffId trusted resumeTokenHash now =>
    change consumeHandoff state handoffId trusted resumeTokenHash now = some after at hstep
    unfold consumeHandoff at hstep
    split at hstep
    · cases hstep
    · split at hstep
      · cases hstep
      · split at hstep
        · cases hstep
        · split at hstep
          · split at hstep
            · cases hstep
            · cases hstep
              exact hstored.of_requests rfl
          · cases hstep

/-- A repeat of an allocation answers as the call did if and only if the instance is at a wallet
node whose binding is found. -/
theorem repeats_of_allocation (hinput : call.input = .allocateWallet)
    (hfirst : perform otpHash state call circumstances = some (after, answer))
    (hadvances : answer.advances) {later : State} (hlater : Reaches (step otpHash) after later)
    (again : Circumstances) :
    perform otpHash later call again = some (later, answer.replay) ↔
      AtWalletNode later call again := by
  have hallocate : ∀ state circumstances,
      perform otpHash state call circumstances = allocateWallet state call circumstances := by
    intro state circumstances
    unfold perform
    rw [hinput]
  rw [hallocate] at hfirst ⊢
  obtain ⟨reference, hstored, rfl⟩ : ∃ reference, Stored after call (some reference) ∧
      answer = .wallet (some reference) false := by
    rcases (allocateWallet_cases hfirst).2 with ⟨_, _, _, rfl⟩ | ⟨_, _, _, _, hrequests, hanswer⟩
    · cases hadvances
    · rcases hanswer with rfl | ⟨reference, rfl, rfl, rfl⟩
      · cases hadvances
      · exact ⟨reference, .of_storeRequest hrequests, rfl⟩
  have hkept : Stored later call (some reference) := by
    apply Reaches.preserves (fun reached => Stored reached call (some reference)) _ hlater hstored
    intro before event next hbefore hstep
    exact hbefore.step hstep
  obtain ⟨request, hfound, hstatus, hreference⟩ := hkept
  constructor
  · intro hagain
    exact (allocateWallet_cases hagain).1
  · rintro ⟨row, node, binding, hcontext, hbinding⟩
    have hfilter : (later.request? call).filter (fun request => request.status = .succeeded) =
        some request :=
      Option.filter_eq_some_iff.mpr ⟨hfound, decide_eq_true hstatus⟩
    unfold allocateWallet State.context
    rw [hcontext]
    dsimp only [Except.toOption]
    rw [hbinding]
    dsimp only
    rw [hfilter]
    dsimp only
    rw [hreference]
    rfl

/-- In every run, a repeat of a call that has advanced its instance changes nothing and answers as
the call did if and only if it is a generic step whose instance stands as the call has left it, at
a node that the generic step serves, or an allocation whose instance is at a wallet node. -/
theorem perform_repeat_iff {start : State} (hopening : Opening start) (hkeys : KeysFit start.db)
    (hrun : Reaches (step otpHash) start state)
    (hfirst : perform otpHash state call circumstances = some (after, answer))
    (hadvances : answer.advances) {later : State} (hlater : Reaches (step otpHash) after later)
    (again : Circumstances) :
    perform otpHash later call again = some (later, answer.replay) ↔
      Repeats after later call again := by
  have hplaced := hopening.placed.run hrun
  have hfit : KeysFit state.db := by
    unfold KeysFit
    rw [versions_of_run hrun]
    exact hkeys
  unfold Repeats
  cases hinput : call.input with
  | advanceStep nodeKey outcome output =>
    exact repeats_of_generic hinput hfirst hadvances hlater again
  | allocateWallet => exact repeats_of_allocation hinput hfirst hadvances hlater again
  | verifyOtp | createPin | acceptConsent | submitProfile | callback =>
    refine iff_of_false ?_ not_false
    apply not_repeats_of_verified hplaced hfit _ hfirst hadvances hlater
    rw [hinput]
    rfl

end

/-! ## A journey with repeats -/

def startCallback : Call :=
  { instanceId := 1, resumeTokenHash := "token", idempotencyKey := "first-key",
    input := .callback "START" "SUCCESS" "reference" {} }

theorem records_only_grow_start :
    ∃ after, Reaches (step fun _ code => code) reviewStart after ∧
      after.db.executions.length = 1 ∧
      (reviewStart.db.executions <+: after.db.executions ∧
        after.db.versions = reviewStart.db.versions ∧
        ∀ row ∈ reviewStart.db.instances.rows, ∃ kept ∈ after.db.instances.rows,
          kept.id = row.id ∧
            after.db.graph kept.versionId = reviewStart.db.graph row.versionId) := by
  have hany : (runInputs (step fun _ code => code) reviewStart
      [.call { now := 0 } startCallback]).any
        (fun after => decide (after.db.executions.length = 1)) := by
    decide +kernel
  obtain ⟨after, hrun, hlength⟩ := (Option.any_eq_true _ _).mp hany
  have hreaches := Reaches.of_runInputs hrun
  exact ⟨after, hreaches, of_decide_eq_true hlength, records_only_grow hreaches⟩

/-- The first call takes the instance on, and its repeat is as the condition says. -/
theorem perform_repeat_iff_start :
    ∃ after answer,
      perform (fun _ code => code) reviewStart startCallback { now := 0 } = some (after, answer) ∧
      (perform (fun _ code => code) after startCallback { now := 1 } =
          some (after, answer.replay) ↔ Repeats after after startCallback { now := 1 }) := by
  have hany : (perform (fun _ code => code) reviewStart startCallback { now := 0 }).any
      fun answered => answered.2.advances := by
    decide +kernel
  obtain ⟨⟨after, answer⟩, hfirst, hadvances⟩ := (Option.any_eq_true _ _).mp hany
  have hkeys : KeysFit reviewStart.db := by
    unfold KeysFit
    decide
  exact ⟨after, answer, hfirst, perform_repeat_iff reviewStart_opening hkeys .refl hfirst hadvances
    .refl { now := 1 }⟩

/-- A step from the START to the next node, repeated right away, is refused. -/
theorem repeat_is_refused :
    Opening reviewStart ∧ KeysFit reviewStart.db ∧ ∃ call after answer,
      perform (fun _ code => code) reviewStart call { now := 0 } = some (after, answer) ∧
      answer.advances ∧ (∃ row ∈ after.db.instances.rows, row.id = call.instanceId ∧
        row.resumeTokenHash = call.resumeTokenHash ∧ row.status.isOpen ∧ 0 < row.expiresAt) ∧
      perform (fun _ code => code) after call { now := 0 } = none := by
  have hkeys : KeysFit reviewStart.db := by
    unfold KeysFit
    decide
  have hany : (perform (fun _ code => code) reviewStart
      { startCallback with input := .advanceStep "start" "SUCCESS" none } { now := 0 }).any
      fun answered => answered.2.advances && decide (∃ row ∈ answered.1.db.instances.rows,
          row.id = 1 ∧ row.resumeTokenHash = "token" ∧ row.status.isOpen ∧ 0 < row.expiresAt) &&
        (perform (fun _ code => code) answered.1
          { startCallback with input := .advanceStep "start" "SUCCESS" none }
            { now := 0 }).isNone := by
    decide +kernel
  obtain ⟨⟨after, answer⟩, hfirst, hfacts⟩ := (Option.any_eq_true _ _).mp hany
  obtain ⟨hboth, hnone⟩ := Bool.and_eq_true_iff.mp hfacts
  obtain ⟨hadvances, hrow⟩ := Bool.and_eq_true_iff.mp hboth
  exact ⟨reviewStart_opening, hkeys, _, after, answer, hfirst, hadvances, of_decide_eq_true hrow,
    Option.isNone_iff_eq_none.mp hnone⟩

end Finify.Onboarding.Services
