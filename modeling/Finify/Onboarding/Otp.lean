/-
# One-time passwords

`createOtpChallenge` and `verifyOtp` of the runtime service beside the other ways to advance
an instance.  `advanceStep` looks at the current node before it calls the function, so that
other calls can come in between.  A visit to a node is known by the number of the attempt that
will leave it.
-/

import Finify.Onboarding.Runtime

namespace Finify.Onboarding.Otp

open Finify.Foundations

/-! ## Rows -/

/-- What is read of `otp_policies`. -/
structure Policy where
  expirySeconds : ℕ := 300
  maximumAttempts : ℕ := 5
  resendSeconds : ℕ := 60
  maximumSendsPerHour : ℕ := 5
  deriving DecidableEq

/-- `status` of a challenge. -/
inductive ChallengeStatus
  | pending
  | verified
  | locked
  | expired
  | cancelled
  deriving DecidableEq, Repr

/-- `otp_challenges`, with the attempts that its policy allows.  `node` and `attempt` are no
columns: they say in which visit the challenge was issued. -/
structure Challenge where
  id : ℕ
  instanceId : ℕ
  secretHash : String
  status : ChallengeStatus := .pending
  attemptCount : ℕ := 0
  maximumAttempts : ℕ
  idempotencyKey : String
  createdAt : ℤ
  expiresAt : ℤ
  resendAvailableAt : ℤ
  node : String
  attempt : ℕ
  deriving DecidableEq

/-- The correct code of a challenge was submitted in a visit. -/
structure Submission where
  instanceId : ℕ
  node : String
  attempt : ℕ
  challengeNode : String
  deriving DecidableEq

/-- The tables, the calls of `advanceStep` that have looked at the current node, and the codes
that were submitted. -/
structure State where
  db : Database
  challenges : Log Challenge.id := .empty
  verifiedContacts : List ℕ := []
  checked : List StepRequest := []
  submissions : List Submission := []

/-! ## The services -/

section

variable (otpHash : ℕ → String → String) (state : State)

def State.challengesOf (instanceId : ℕ) : List Challenge :=
  state.challenges.rows.filter fun challenge => challenge.instanceId = instanceId

def State.latestChallenge (instanceId : ℕ) : Option Challenge :=
  latest Challenge.createdAt (state.challengesOf instanceId)

/-- The challenges after the pending ones of an instance are cancelled. -/
def State.cancelPending (instanceId : ℕ) : Log Challenge.id :=
  state.challenges.map
    (fun challenge =>
      if challenge.instanceId = instanceId ∧ challenge.status = .pending then
        { challenge with status := .cancelled }
      else challenge)
    fun challenge => by split <;> rfl

/-- `createOtpChallenge`, with the policy that the node's configuration selects and the code
that was drawn. -/
def createOtpChallenge (instanceId : ℕ) (resumeTokenHash idempotencyKey : String)
    (policy : Option Policy) (code : String) (now : ℤ) : Option State :=
  match (state.db.context instanceId resumeTokenHash .otpVerification now).toOption, policy with
  | some (row, node), some policy =>
    if (state.challengesOf instanceId).any fun challenge =>
        challenge.idempotencyKey = idempotencyKey then some state
    else
      let recent := (state.challengesOf instanceId).filter fun challenge =>
        now - 3600 < challenge.createdAt
      if policy.maximumSendsPerHour ≤ recent.length then none
      else if recent.any fun challenge => now < challenge.resendAvailableAt then none
      else
        some { state with
          challenges := (state.cancelPending instanceId).append
            (fun id =>
              { id := id
                instanceId := instanceId
                secretHash := otpHash instanceId code
                maximumAttempts := policy.maximumAttempts
                idempotencyKey := idempotencyKey
                createdAt := now
                expiresAt := now + policy.expirySeconds
                resendAvailableAt := now + policy.resendSeconds
                node := node.key
                attempt := state.db.nextAttempt row.id node.key })
            fun _ => rfl }
  | _, _ => none

def otpOutput (challenge : Challenge) : Document :=
  { text := "\x7botpChallengeId:" ++ toString challenge.id ++ "\x7d" }

/-- `advance` with the outcome `SUCCESS` and a challenge. -/
def State.succeed (instanceId : ℕ) (idempotencyKey : String) (challenge : Challenge) (now : ℤ) :
    Option State :=
  ((state.db.advanceVerified instanceId .otpVerification "SUCCESS" idempotencyKey
    (otpOutput challenge) .customer (some "customer") none now).toOption).map fun answer =>
      { state with db := answer.1 }

/-- The challenge after a wrong code. -/
def Challenge.fail (challenge : Challenge) : Challenge :=
  { challenge with
    attemptCount := challenge.attemptCount + 1
    status :=
      if challenge.maximumAttempts ≤ challenge.attemptCount + 1 then .locked else .pending }

theorem Challenge.fail_id (challenge : Challenge) : challenge.fail.id = challenge.id := rfl

/-- The state after the correct code: the challenge and the contact are verified. -/
def State.submit (row : Instance) (node : Node) (challenge : Challenge) : State :=
  { state with
    challenges := state.challenges.modify challenge.id
      (fun challenge => { challenge with status := .verified }) fun _ => rfl
    verifiedContacts := row.customerId :: state.verifiedContacts
    submissions :=
      { instanceId := row.id
        node := node.key
        attempt := state.db.nextAttempt row.id node.key
        challengeNode := challenge.node } :: state.submissions }

/-- `verifyOtp`.  A call that raises before its transaction ends changes nothing; that of a
wrong code raises afterwards. -/
def verifyOtp (instanceId : ℕ) (resumeTokenHash idempotencyKey code : String) (now : ℤ) :
    Option State :=
  match (state.db.context instanceId resumeTokenHash .otpVerification now).toOption with
  | none => none
  | some (row, node) =>
    match state.latestChallenge instanceId with
    | none => none
    | some challenge =>
      match challenge.status with
      | .verified => state.succeed instanceId idempotencyKey challenge now
      | .pending =>
        if challenge.expiresAt ≤ now then none
        else if otpHash instanceId code ≠ challenge.secretHash then
          some { state with
            challenges :=
              state.challenges.modify challenge.id Challenge.fail Challenge.fail_id }
        else (state.submit row node challenge).succeed instanceId idempotencyKey challenge now
      | _ => none

/-- The look of `advanceStep` at the current node. -/
def checkStep (request : StepRequest) : Option State :=
  if state.db.admitsStep request then some { state with checked := request :: state.checked }
  else none

/-- The call of the function that follows it. -/
def advanceStep (request : StepRequest) : Option State :=
  if request ∈ state.checked then
    (step state.db request).map fun db =>
      { state with db := db, checked := state.checked.erase request }
  else none

/-- A verified step of another service, or the callback of a provider, which names the type of
the node and the outcome. -/
def advanceService (instanceId : ℕ) (expected : NodeType) (outcome idempotencyKey : String)
    (output : Document) (actorType : ActorType) (actorId : Option String) (now : ℤ) :
    Option State :=
  ((state.db.advanceVerified instanceId expected outcome idempotencyKey output actorType actorId
    none now).toOption).map fun answer => { state with db := answer.1 }

end

/-! ## Runs -/

/-- The calls. -/
inductive Event
  | create (instanceId : ℕ) (resumeTokenHash idempotencyKey : String) (policy : Option Policy)
      (code : String) (now : ℤ)
  | verify (instanceId : ℕ) (resumeTokenHash idempotencyKey code : String) (now : ℤ)
  | check (request : StepRequest)
  | advance (request : StepRequest)
  | service (instanceId : ℕ) (expected : NodeType) (outcome idempotencyKey : String)
      (output : Document) (actorType : ActorType) (actorId : Option String) (now : ℤ)

/-- One call. -/
def stepOtp (otpHash : ℕ → String → String) (state : State) : Event → Option State
  | .create instanceId resumeTokenHash idempotencyKey policy code now =>
    createOtpChallenge otpHash state instanceId resumeTokenHash idempotencyKey policy code now
  | .verify instanceId resumeTokenHash idempotencyKey code now =>
    verifyOtp otpHash state instanceId resumeTokenHash idempotencyKey code now
  | .check request => checkStep state request
  | .advance request => advanceStep state request
  | .service instanceId expected outcome idempotencyKey output actorType actorId now =>
    advanceService state instanceId expected outcome idempotencyKey output actorType actorId now

/-- Instances that were just started, without challenges and calls under way. -/
structure Opening (state : State) : Prop where
  fresh : Fresh state.db
  events : state.db.events = []
  challenges : state.challenges.rows = []
  submissions : state.submissions = []

/-- Whenever an instance has left an OTP node by its success transition, the correct code of a
challenge issued for the node was submitted in that visit. -/
def Verified (state : State) : Prop :=
  ∀ event ∈ state.db.events, ∀ nodeKey attempt,
    LeftBySuccess .otpVerification state.db event nodeKey attempt →
    { instanceId := event.instanceId, node := nodeKey, attempt := attempt,
      challengeNode := nodeKey : Submission } ∈ state.submissions

/-- A code is accepted only for a challenge of the node, and without a code only for a challenge
of the visit. -/
def CurrentChallenge (otpHash : ℕ → String → String) (state : State) (instanceId : ℕ)
    (idempotencyKey code : String) (node : Node) : Prop :=
  ∀ challenge ∈ state.latestChallenge instanceId,
    (challenge.status = .pending → otpHash instanceId code = challenge.secretHash →
      challenge.node = node.key) ∧
    (challenge.status = .verified → state.db.execution? instanceId idempotencyKey = none →
      challenge.node = node.key ∧ challenge.attempt = state.db.nextAttempt instanceId node.key)

instance (otpHash : ℕ → String → String) (state : State) (instanceId : ℕ)
    (idempotencyKey code : String) (node : Node) :
    Decidable (CurrentChallenge otpHash state instanceId idempotencyKey code node) :=
  inferInstanceAs (Decidable (∀ challenge ∈ state.latestChallenge instanceId, _))

/-- The challenge that lets an instance pass belongs to the current node and visit, no instance
comes to an OTP node between the look and the call of `advanceStep`, and no provider reports the
success of an OTP node. -/
def Guarded (otpHash : ℕ → String → String) (state : State) : Event → Prop
  | .verify instanceId resumeTokenHash idempotencyKey code now =>
    ∀ context ∈ (state.db.context instanceId resumeTokenHash .otpVerification now).toOption,
      CurrentChallenge otpHash state instanceId idempotencyKey code context.2
  | .advance request =>
    ∀ row ∈ state.db.openInstance request.instanceId request.resumeTokenHash,
      ∀ node ∈ state.db.currentNode row, node.type ≠ .otpVerification
  | .service _ expected outcome _ _ _ _ _ =>
    ¬ (expected = .otpVerification ∧ outcome.toUpper.toUpper = "SUCCESS")
  | _ => True

instance (otpHash : ℕ → String → String) (state : State) :
    (event : Event) → Decidable (Guarded otpHash state event)
  | .verify _ _ _ _ _ => inferInstanceAs (Decidable (∀ context ∈ (_ : Option (Instance × Node)), _))
  | .advance _ => inferInstanceAs (Decidable (∀ row ∈ (_ : Option Instance), _))
  | .create _ _ _ _ _ _ => .isTrue trivial
  | .check _ => .isTrue trivial
  | .service _ expected outcome _ _ _ _ _ =>
    inferInstanceAs (Decidable (¬ (expected = .otpVerification ∧
      outcome.toUpper.toUpper = "SUCCESS")))

/-! ## The invariant -/

/-- A verified challenge has a submission of its own node that is not older than the visit in
which it was issued. -/
structure Recorded (state : State) : Prop where
  verified : Verified state
  challenges : ∀ challenge ∈ state.challenges.rows,
    challenge.attempt ≤ state.db.nextAttempt challenge.instanceId challenge.node
  submissions : ∀ submission ∈ state.submissions,
    submission.attempt ≤ state.db.nextAttempt submission.instanceId submission.node
  proofs : ∀ challenge ∈ state.challenges.rows, challenge.status = .verified →
    ∃ submission ∈ state.submissions, submission.instanceId = challenge.instanceId ∧
      submission.node = challenge.node ∧ submission.challengeNode = challenge.node ∧
      challenge.attempt ≤ submission.attempt

section

variable {otpHash : ℕ → String → String} {state after : State}

/-- The law holds after a step if its event is old or has its submission. -/
theorem Verified.step (hlaw : Verified state) (hfollows : Follows state.db after.db)
    (hsame : after.submissions = state.submissions)
    (hevents : ∀ event ∈ after.db.events, ∀ nodeKey attempt,
      LeftBySuccess .otpVerification after.db event nodeKey attempt →
        (∃ old ∈ state.db.events, event.instanceId = old.instanceId ∧
          event.payload = old.payload) ∨
        { instanceId := event.instanceId, node := nodeKey, attempt := attempt,
          challengeNode := nodeKey : Submission } ∈ state.submissions) :
    Verified after := by
  intro event hevent nodeKey attempt hleft
  rw [hsame]
  rcases hevents event hevent nodeKey attempt hleft with ⟨old, hold, hinstance, hpayload⟩ | hnew
  · rw [hinstance]
    exact hlaw old hold nodeKey attempt (hleft.before hfollows hinstance hpayload)
  · exact hnew

/-- A step of the journey keeps the challenges and the submissions. -/
theorem Recorded.step (hrecorded : Recorded state) (hfollows : Follows state.db after.db)
    (hchallenges : after.challenges = state.challenges)
    (hsame : after.submissions = state.submissions) (hlaw : Verified after) : Recorded after := by
  constructor
  · exact hlaw
  · rw [hchallenges]
    intro challenge hmem
    exact (hrecorded.challenges challenge hmem).trans (hfollows.attempts _ _)
  · rw [hsame]
    intro submission hmem
    exact (hrecorded.submissions submission hmem).trans (hfollows.attempts _ _)
  · rw [hchallenges, hsame]
    exact hrecorded.proofs

theorem Recorded.advanceVerified (hrecorded : Recorded state) {instanceId : ℕ}
    {expected : NodeType} {outcome idempotencyKey : String} {output : Document}
    {actorType : ActorType} {actorId : Option String} {now : ℤ} {answer : Database × StepResult}
    (hadvance : (state.db.advanceVerified instanceId expected outcome idempotencyKey output
      actorType actorId none now).toOption = some answer)
    (hsubmitted : expected = .otpVerification → outcome.toUpper.toUpper = "SUCCESS" →
      state.db.execution? instanceId idempotencyKey = none →
      ∀ row source, state.db.instances.find? instanceId = some row →
        state.db.currentNode row = some source →
        { instanceId := instanceId, node := source.key,
          attempt := state.db.nextAttempt instanceId source.key,
          challengeNode := source.key : Submission } ∈ state.submissions) :
    Recorded { state with db := answer.1 } := by
  obtain ⟨next, result⟩ := answer
  have hok := ok_of_toOption hadvance
  have hfollows := follows_of_advanceVerified hok
  refine hrecorded.step hfollows rfl rfl (hrecorded.verified.step hfollows rfl ?_)
  intro event hevent nodeKey attempt hleft
  obtain ⟨target, hpayload⟩ := hleft.1
  rcases mem_events_advanceVerified hok hevent hpayload with
    hold | ⟨row, source, hrow, hsource, htype, hfresh, hinstance, hkey, hsaid, hattempt⟩
  · exact .inl hold
  · obtain ⟨hmem, hid⟩ := Table.find?_eq_some.mp hrow
    have hotp := (hleft.before hfollows rfl rfl).type_of_current hmem (hinstance.trans hid.symm)
      hsource hkey
    rw [hinstance, hkey, hattempt]
    exact .inr (hsubmitted (htype.symm.trans hotp) hsaid.symm hfresh row source hrow hsource)

/-- The newest challenge is one of the instance. -/
theorem mem_of_latestChallenge {instanceId : ℕ} {challenge : Challenge}
    (hlatest : state.latestChallenge instanceId = some challenge) :
    challenge ∈ state.challenges.rows ∧ challenge.instanceId = instanceId := by
  obtain ⟨hmem, hinstance⟩ := List.mem_filter.mp (latest_mem hlatest)
  exact ⟨hmem, of_decide_eq_true hinstance⟩

/-- Changes that verify no challenge keep the invariant. -/
theorem Recorded.withChallenges (hrecorded : Recorded state) {challenges : Log Challenge.id}
    (hchallenges : ∀ challenge ∈ challenges.rows,
      challenge.attempt ≤ state.db.nextAttempt challenge.instanceId challenge.node ∧
        (challenge.status = .verified → challenge ∈ state.challenges.rows)) :
    Recorded { state with challenges := challenges } := by
  constructor
  · exact hrecorded.verified
  · intro challenge hmem
    exact (hchallenges challenge hmem).1
  · exact hrecorded.submissions
  · intro challenge hmem hverified
    exact hrecorded.proofs challenge ((hchallenges challenge hmem).2 hverified) hverified

theorem Recorded.create (hrecorded : Recorded state) {instanceId : ℕ}
    {resumeTokenHash idempotencyKey code : String} {policy : Option Policy} {now : ℤ}
    (hcreate : createOtpChallenge otpHash state instanceId resumeTokenHash idempotencyKey policy
      code now = some after) : Recorded after := by
  unfold createOtpChallenge at hcreate
  cases hcontext : (state.db.context instanceId resumeTokenHash .otpVerification now).toOption with
  | none =>
    rw [hcontext] at hcreate
    cases hcreate
  | some context =>
    cases policy with
    | none =>
      rw [hcontext] at hcreate
      cases hcreate
    | some policy =>
      obtain ⟨row, node⟩ := context
      have hopened := (context_eq_ok (ok_of_toOption hcontext)).1
      have hid : row.id = instanceId :=
        (Table.find?_eq_some.mp (Option.filter_eq_some_iff.mp hopened).1).2
      rw [hcontext] at hcreate
      dsimp only at hcreate
      split at hcreate
      · cases hcreate
        exact hrecorded
      · obtain ⟨_, hcreate⟩ := Option.ite_none_left_eq_some.mp hcreate
        obtain ⟨_, hcreate⟩ := Option.ite_none_left_eq_some.mp hcreate
        cases hcreate
        apply hrecorded.withChallenges
        intro challenge hmem
        rw [Log.rows_append] at hmem
        rcases List.mem_append.mp hmem with hkept | hnew
        · obtain ⟨old, hold, rfl⟩ := List.mem_map.mp hkept
          split
          · exact ⟨hrecorded.challenges old hold, fun hverified => by cases hverified⟩
          · exact ⟨hrecorded.challenges old hold, fun _ => hold⟩
        · rw [List.mem_singleton.mp hnew]
          refine ⟨?_, fun hverified => by cases hverified⟩
          show state.db.nextAttempt row.id node.key ≤ _
          rw [hid]

theorem mem_submit {row : Instance} {node : Node} {challenge other : Challenge} :
    other ∈ (state.submit row node challenge).challenges.rows ↔
      ∃ old ∈ state.challenges.rows,
        other = if old.id = challenge.id then { old with status := .verified } else old := by
  rw [State.submit, Log.mem_modify]

/-- The submission of a code that is accepted proves its challenge. -/
theorem Recorded.submit (hrecorded : Recorded state) {row : Instance} {node : Node}
    {challenge : Challenge} (hlatest : state.latestChallenge row.id = some challenge)
    (hnode : challenge.node = node.key) : Recorded (state.submit row node challenge) := by
  obtain ⟨hmem, hinstance⟩ := mem_of_latestChallenge hlatest
  constructor
  · intro event hevent nodeKey attempt hleft
    exact List.mem_cons_of_mem _ (hrecorded.verified event hevent nodeKey attempt hleft)
  · intro other hother
    obtain ⟨old, hold, rfl⟩ := mem_submit.mp hother
    split <;> exact hrecorded.challenges old hold
  · intro submission hsubmission
    rcases List.mem_cons.mp hsubmission with rfl | hold
    · exact le_rfl
    · exact hrecorded.submissions submission hold
  · intro other hother hverified
    obtain ⟨old, hold, rfl⟩ := mem_submit.mp hother
    split at hverified
    case isTrue hsame =>
      have heq := state.challenges.eq_of_serial_eq hold hmem hsame
      subst heq
      have hissued := hrecorded.challenges old hmem
      rw [hinstance, hnode] at hissued
      rw [if_pos rfl]
      exact ⟨_, List.mem_cons_self, hinstance.symm, hnode.symm, rfl, hissued⟩
    case isFalse hother' =>
      rw [if_neg hother']
      obtain ⟨submission, hsubmission, hproof⟩ := hrecorded.proofs old hold hverified
      exact ⟨submission, List.mem_cons_of_mem _ hsubmission, hproof⟩

theorem Recorded.verify (hrecorded : Recorded state) {instanceId : ℕ}
    {resumeTokenHash idempotencyKey code : String} {now : ℤ}
    (hguard : Guarded otpHash state
      (.verify instanceId resumeTokenHash idempotencyKey code now))
    (hverify : verifyOtp otpHash state instanceId resumeTokenHash idempotencyKey code now =
      some after) : Recorded after := by
  unfold verifyOtp at hverify
  cases hcontext : (state.db.context instanceId resumeTokenHash .otpVerification now).toOption with
  | none =>
    rw [hcontext] at hverify
    cases hverify
  | some context =>
    obtain ⟨row, node⟩ := context
    obtain ⟨hopened, _, hcurrent, _, _⟩ := context_eq_ok (ok_of_toOption hcontext)
    have hrow := (Option.filter_eq_some_iff.mp hopened).1
    have hid : row.id = instanceId := (Table.find?_eq_some.mp hrow).2
    have hat : ∀ other source, state.db.instances.find? instanceId = some other →
        state.db.currentNode other = some source → source = node := by
      intro other source hother hsource
      rw [← Option.some.inj (hrow.symm.trans hother)] at hsource
      exact Option.some.inj (hsource.symm.trans hcurrent)
    have hchallenge := hguard (row, node) hcontext
    rw [hcontext] at hverify
    dsimp only at hverify
    cases hlatest : state.latestChallenge instanceId with
    | none =>
      rw [hlatest] at hverify
      cases hverify
    | some challenge =>
      obtain ⟨hmem, hinstance⟩ := mem_of_latestChallenge hlatest
      obtain ⟨hpending, hverified⟩ := hchallenge challenge hlatest
      rw [hlatest] at hverify
      dsimp only at hverify
      cases hstatus : challenge.status with
      | verified =>
        -- the challenge was submitted in the visit in which it was issued, which is this one
        rw [hstatus] at hverify
        obtain ⟨answer, hadvance, rfl⟩ := Option.map_eq_some_iff.mp hverify
        apply hrecorded.advanceVerified hadvance
        intro _ _ hfresh other source hother hsource
        obtain ⟨hnode, hvisit⟩ := hverified hstatus hfresh
        obtain ⟨submission, hsubmission, hsame, hsubmitted, hissued, hattempt⟩ :=
          hrecorded.proofs challenge hmem hstatus
        have hbound := hrecorded.submissions submission hsubmission
        rw [hsame, hsubmitted, hinstance, hnode] at hbound
        have hnow := le_antisymm hbound (hvisit ▸ hattempt)
        rw [hat other source hother hsource, ← hnow, ← hnode, ← hinstance]
        obtain ⟨submittedFor, submittedAt, visit, challengeNode⟩ := submission
        dsimp only at hsame hsubmitted hissued
        subst hsame hsubmitted hissued
        exact hsubmission
      | pending =>
        rw [hstatus] at hverify
        dsimp only at hverify
        obtain ⟨_, hverify⟩ := Option.ite_none_left_eq_some.mp hverify
        split at hverify
        · cases hverify
          apply hrecorded.withChallenges
          intro other hother
          obtain ⟨old, hold, rfl⟩ := Log.mem_modify.mp hother
          split
          · refine ⟨hrecorded.challenges old hold, fun hnever => ?_⟩
            unfold Challenge.fail at hnever
            dsimp only at hnever
            split at hnever <;> cases hnever
          · exact ⟨hrecorded.challenges old hold, fun _ => hold⟩
        case isFalse hcode =>
          obtain ⟨answer, hadvance, rfl⟩ := Option.map_eq_some_iff.mp hverify
          have hsubmit := hrecorded.submit (hid.symm ▸ hlatest)
            (hpending hstatus (not_not.mp hcode))
          apply hsubmit.advanceVerified hadvance
          intro _ _ _ other source hother hsource
          have hnewest : (⟨row.id, node.key, state.db.nextAttempt row.id node.key,
              challenge.node⟩ : Submission) ∈
                (state.submit row node challenge).submissions := List.mem_cons_self
          rw [hpending hstatus (not_not.mp hcode)] at hnewest
          rw [hat other source hother hsource, ← hid]
          exact hnewest
      | locked | expired | cancelled =>
        rw [hstatus] at hverify
        cases hverify

theorem Recorded.check (hrecorded : Recorded state) {request : StepRequest}
    (hcheck : checkStep state request = some after) : Recorded after := by
  unfold checkStep at hcheck
  split at hcheck
  · cases hcheck
    exact ⟨hrecorded.verified, hrecorded.challenges, hrecorded.submissions, hrecorded.proofs⟩
  · cases hcheck

theorem Recorded.advance (hrecorded : Recorded state) {request : StepRequest}
    (hguard : Guarded otpHash state (.advance request))
    (hadvance : advanceStep state request = some after) : Recorded after := by
  rw [advanceStep, Option.ite_none_right_eq_some] at hadvance
  obtain ⟨db, hstep, rfl⟩ := Option.map_eq_some_iff.mp hadvance.2
  obtain ⟨result, hok⟩ := step_eq_some.mp hstep
  have hfollows := follows_of_advance hok
  refine hrecorded.step hfollows rfl rfl (hrecorded.verified.step hfollows rfl ?_)
  intro event hevent nodeKey attempt hleft
  obtain ⟨target, hpayload⟩ := hleft.1
  rcases mem_events_advance hok hevent hpayload with
    hold | ⟨row, source, _, hmoves, hinstance, hkey, _, _⟩
  · exact .inl ⟨event, hold, rfl, rfl⟩
  · have hotp := (hleft.before hfollows rfl rfl).type_of_current hmoves.mem.1 hinstance
      hmoves.atSource hkey
    exact absurd hotp (hguard row hmoves.opened source hmoves.atSource)

/-- Every guarded call keeps the invariant. -/
theorem Recorded.stepOtp (hrecorded : Recorded state) {event : Event}
    (hguard : Guarded otpHash state event) (hstep : stepOtp otpHash state event = some after) :
    Recorded after := by
  cases event with
  | create => exact hrecorded.create hstep
  | verify => exact hrecorded.verify hguard hstep
  | check => exact hrecorded.check hstep
  | advance => exact hrecorded.advance hguard hstep
  | service instanceId expected outcome idempotencyKey output actorType actorId now =>
    obtain ⟨answer, hadvance, rfl⟩ := Option.map_eq_some_iff.mp hstep
    apply hrecorded.advanceVerified hadvance
    intro htype houtcome
    exact absurd ⟨htype, houtcome⟩ hguard

theorem Opening.recorded (hopening : Opening state) : Recorded state := by
  constructor
  · intro event hmem
    rw [hopening.events] at hmem
    cases hmem
  · intro challenge hmem
    rw [hopening.challenges] at hmem
    cases hmem
  · intro submission hmem
    rw [hopening.submissions] at hmem
    cases hmem
  · intro challenge hmem
    rw [hopening.challenges] at hmem
    cases hmem

end

/-- In runs in which only challenges of the current node and visit let an instance pass, every
OTP step is verified in its visit. -/
theorem passed_only_verified {otpHash : ℕ → String → String} {start state : State}
    (hopening : Opening start)
    (hrun : ReachesUnder (stepOtp otpHash) (Guarded otpHash) start state) : Verified state := by
  apply Recorded.verified
  apply ReachesUnder.preserves Recorded _ hrun hopening.recorded
  intro before event after hrecorded hguard hstep
  exact hrecorded.stepOtp hguard hstep

/-- An instance at the START of a graph with two OTP nodes in a row. -/
def twoOtps : State where
  db :=
    { versions := ⟨[{ id := 1, graph :=
        { scopes := [{ countryCode := "UGA", channelCode := "MOBILE_APP",
                       customerType := "INDIVIDUAL", priority := 100 }]
          nodes := [{ key := "start", type := .start, entry := true },
            { key := "phone-code", type := .otpVerification },
            { key := "mail-code", type := .otpVerification }, { key := "end", type := .finish }]
          transitions :=
            [{ source := "start", target := "phone-code", outcome := "SUCCESS", priority := 1 },
              { source := "phone-code", target := "mail-code", outcome := "SUCCESS",
                priority := 1 },
              { source := "mail-code", target := "end", outcome := "SUCCESS", priority := 1 }] } }],
        by decide⟩
      instances :=
        .single
          { id := 1, customerId := 1, versionId := 1, currentNode := some "start",
            resumeTokenHash := "token", expiresAt := 100 }
      customers := .single { id := 1, status := .onboarding } }

theorem twoOtps_opening : Opening twoOtps := by
  constructor
  · constructor
    · rfl
    · intro row hmem
      rw [List.mem_singleton.mp hmem]
      exact ⟨rfl, _, _, rfl, by decide, rfl, rfl⟩
  · rfl
  · rfl
  · rfl

/-- A digest that is the code itself. -/
def plainHash (_ : ℕ) (code : String) : String := code

def firstCode : List Event :=
  [.check (stepFrom "start" "start-key"), .advance (stepFrom "start" "start-key"),
    .create 1 "token" "phone-challenge" (some {}) "123456" 1,
    .verify 1 "token" "phone-key" "123456" 2]

/-- A journey with two codes, each submitted for its own node. -/
theorem passed_only_verified_twice : ∃ state,
    ReachesUnder (stepOtp plainHash) (Guarded plainHash) twoOtps state ∧
      state.submissions.length = 2 ∧ Verified state := by
  have hany : (runInputs (guardedStep (stepOtp plainHash) (Guarded plainHash)) twoOtps
      (firstCode ++ [.create 1 "token" "mail-challenge" (some {}) "654321" 70,
        .verify 1 "token" "mail-key" "654321" 71])).any
        (fun state => state.submissions.length = 2) := by
    decide +kernel
  obtain ⟨state, hrun, hlength⟩ := (Option.any_eq_true _ _).mp hany
  have hreach := (Reaches.of_runInputs hrun).under
  exact ⟨state, hreach, of_decide_eq_true hlength, passed_only_verified twoOtps_opening hreach⟩

/-- In every run every OTP step is verified in its visit. -/
def AlwaysVerified (otpHash : ℕ → String → String) : Prop :=
  ∀ start state, Opening start → Reaches (stepOtp otpHash) start state → Verified state

/-- The challenge of the first node is still the newest at the second, which it passes with any
code. -/
theorem second_code_unchecked : ¬ AlwaysVerified plainHash := by
  intro halways
  have hany : (runInputs (stepOtp plainHash) twoOtps
      (firstCode ++ [.verify 1 "token" "mail-key" "000000" 3])).any fun state =>
        (state.submissions = [⟨1, "phone-code", 1, "phone-code"⟩] ∧
        (∃ event ∈ state.db.events, event.instanceId = 1 ∧
          event.payload = .stepSucceeded "mail-code" "SUCCESS" "end" 1) ∧
        ∃ row ∈ state.db.instances.rows, row.id = 1 ∧
          (state.db.graph row.versionId).any fun graph => (graph.node? "mail-code").any fun node =>
            node.type = .otpVerification) := by
    decide +kernel
  obtain ⟨state, hrun, hfacts⟩ := (Option.any_eq_true _ _).mp hany
  obtain ⟨hsubmissions, ⟨event, hevent, hid, hpayload⟩, row, hrow, hrowId, hgraph⟩ :=
    of_decide_eq_true hfacts
  obtain ⟨graph, hfound, hnode⟩ := (Option.any_eq_true _ _).mp hgraph
  obtain ⟨node, hat, htype⟩ := (Option.any_eq_true _ _).mp hnode
  have hsubmitted := halways twoOtps state twoOtps_opening (Reaches.of_runInputs hrun) event hevent
    "mail-code" 1 ⟨⟨"end", hpayload⟩, row, hrow, hrowId.trans hid.symm, graph, node, hfound, hat,
      of_decide_eq_true htype⟩
  rw [hsubmissions] at hsubmitted
  revert hsubmitted
  simp

end Finify.Onboarding.Otp
