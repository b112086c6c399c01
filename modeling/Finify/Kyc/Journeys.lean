/-
# Decisions and the journeys they advance

A review, the profile that it writes and the step of the journey that waits for it are one
transaction, so an exception of the journey undoes the decision.  A decision is recorded and
taken along exactly if the journey can take its outcome, or cannot but has taken it before; and a
journey takes one decision at most.
-/

import Finify.Kyc.Accounts
import Finify.Kyc.Recovery

namespace Finify.Kyc

open Finify.Foundations

/-! ## A journey at its KYC node -/

section

variable (journeys : Onboarding.Database)

/-- The instance is in progress, unexpired and at a KYC node. -/
def Waits (instanceId : ℕ) (now : ℤ) : Prop :=
  ∃ row ∈ journeys.instances.find? instanceId, row.status = .inProgress ∧ now < row.expiresAt ∧
    ∃ node ∈ journeys.currentNode row, node.type = .kyc

/-- The instance has been taken from its KYC node along the transition of the outcome. -/
def Advanced (after : Onboarding.Database) (instanceId : ℕ) (outcome : String) (now : ℤ) : Prop :=
  ∃ row source target execution, journeys.instances.find? instanceId = some row ∧
    journeys.currentNode row = some source ∧ source.type = .kyc ∧
    journeys.nextNode row source.key outcome = some target ∧
    after.instances.find? instanceId = some (row.moveTo target now) ∧
    after.executions = journeys.executions ++ [execution] ∧
    execution.instanceId = instanceId ∧ execution.node = source.key

/-- The node has a transition for the outcome, and the key of the decision is not used. -/
def Accepts (row : Onboarding.Instance) (node : Onboarding.Node) (caseId : ℕ) (outcome : String) :
    Prop :=
  (journeys.nextNode row node.key outcome).isSome ∧
    journeys.execution? row.id (decisionKey caseId outcome) = none

/-- The instance waits at a node that accepts the decision. -/
def Takes (instanceId caseId : ℕ) (outcome : String) (now : ℤ) : Prop :=
  ∃ row ∈ journeys.instances.find? instanceId, row.status = .inProgress ∧ now < row.expiresAt ∧
    ∃ node ∈ journeys.currentNode row, node.type = .kyc ∧
      Accepts journeys row node caseId outcome

def decisionHash (node : Onboarding.Node) (caseId : ℕ) (outcome : String) : String :=
  node.key ++ ":" ++ outcome.toUpper ++ ":" ++ (decisionOutput caseId outcome).text

/-- The instance is at a KYC node where the decision was taken before. -/
def HasTaken (instanceId caseId : ℕ) (outcome : String) : Prop :=
  ∃ row ∈ journeys.instances.find? instanceId, ∃ node ∈ journeys.currentNode row,
    node.type = .kyc ∧ ∃ execution ∈ journeys.execution? row.id (decisionKey caseId outcome),
      execution.inputHash = decisionHash node caseId outcome

end

/-! ## A review -/

namespace State

variable (state : State)

/-- The journey that waits for the review, and the outcome that it is given. -/
def destination (review : Review) : Option (ℕ × String) :=
  (state.links.rows.find? fun link => link.caseId = review.caseId).bind fun link =>
    review.action.status.outcome.map fun outcome => (link.instanceId, outcome)

/-- The review commits its decision and advances the journey by the matching outcome exactly if
the journey waits for it. -/
def Honours (review : Review) : Prop :=
  ∃ row after, state.cases.find? review.caseId = some row ∧
    state.commitReview review = some after ∧
    after.cases.find? review.caseId =
      some (row.reviewed review.action review.actor review.now) ∧
    (state.destination review = none → after.journeys = state.journeys) ∧
    ∀ instanceId outcome, state.destination review = some (instanceId, outcome) →
      (Advanced state.journeys after.journeys instanceId outcome review.now ↔
        Waits state.journeys instanceId review.now)

/-- No journey waits for the review, or it waits at a node that accepts the decision, or it does
not wait any more but has taken the decision at the node where it is. -/
def Unhindered (review : Review) : Prop :=
  ∀ instanceId outcome, state.destination review = some (instanceId, outcome) →
    Takes state.journeys instanceId review.caseId outcome review.now ∨
      HasTaken state.journeys instanceId review.caseId outcome ∧
        ¬ Waits state.journeys instanceId review.now

end State

section

variable {journeys after : Onboarding.Database} {instanceId caseId : ℕ} {outcome : String}
  {now : ℤ}

/-- The outcomes are written in capitals. -/
theorem toUpper_of_outcome {status : CaseStatus} (houtcome : status.outcome = some outcome) :
    outcome.toUpper = outcome := by
  cases status <;> cases houtcome <;> decide +kernel

def decisionRequest (row : Onboarding.Instance) (node : Onboarding.Node) (caseId : ℕ)
    (outcome actor : String) (now : ℤ) : Onboarding.StepRequest :=
  Onboarding.verifiedRequest row node outcome (decisionKey caseId outcome)
    (decisionOutput caseId outcome) (some actor) none now

/-- The instance of a row, by its identifier and its own token. -/
theorem openInstance_of_find? {row : Onboarding.Instance}
    (hrow : journeys.instances.find? instanceId = some row) :
    journeys.openInstance row.id row.resumeTokenHash = some row := by
  rw [Onboarding.Database.openInstance, (Table.find?_eq_some.mp hrow).2, hrow]
  exact Option.filter_eq_some_iff.mpr ⟨rfl, decide_eq_true rfl⟩

theorem Takes.advanced (htakes : Takes journeys instanceId caseId outcome now)
    (hupper : outcome.toUpper = outcome) (actor : String) :
    ∃ after result, journeys.advanceVerified instanceId .kyc outcome (decisionKey caseId outcome)
        (decisionOutput caseId outcome) .externalService (some actor) none now =
          .ok (after, result) ∧ Advanced journeys after instanceId outcome now := by
  obtain ⟨row, hrow, hprogress, hcurrent, node, hnode, htype, hedge, hfresh⟩ := htakes
  obtain ⟨target, htarget⟩ := Option.isSome_iff_exists.mp hedge
  have hmoves : journeys.Moves (decisionRequest row node caseId outcome actor now) row node
      target :=
    { opened := openInstance_of_find? hrow
      fresh := hfresh
      current := hcurrent
      inProgress := hprogress
      atSource := hnode
      expected := rfl
      notEnd := by
        rw [htype]
        decide
      toTarget := by
        change journeys.nextNode row node.key outcome.toUpper.toUpper = some target
        rw [hupper, hupper]
        exact htarget }
  have hid : row.id = instanceId := (Table.find?_eq_some.mp hrow).2
  refine ⟨_, _, Onboarding.advanceVerified_of_advance hrow hnode htype (hmoves.advance rfl) _,
    row, node, target, _, hrow, hnode, htype, htarget, ?_, rfl, hid, rfl⟩
  subst hid
  exact Table.find?_modify_of_find? hrow (Onboarding.Instance.moveTo target now) fun _ => rfl

/-- A journey that has taken the decision is left where it is. -/
theorem HasTaken.kept (htaken : HasTaken journeys instanceId caseId outcome) (actor : String)
    (now : ℤ) :
    ∃ after result, journeys.advanceVerified instanceId .kyc outcome (decisionKey caseId outcome)
        (decisionOutput caseId outcome) .externalService (some actor) none now =
          .ok (after, result) ∧ after.executions = journeys.executions := by
  obtain ⟨row, hrow, node, hnode, htype, execution, hexecution, hhash⟩ := htaken
  have hadvance : journeys.advance (decisionRequest row node caseId outcome actor now) =
      .ok (journeys, journeys.view row true) :=
    Onboarding.advance_of_execution rfl (openInstance_of_find? hrow) hexecution hhash
  exact ⟨_, _, Onboarding.advanceVerified_of_advance hrow hnode htype hadvance _, rfl⟩

/-- No other journey lets the decision commit. -/
theorem takes_or_hasTaken {actor : String} {result : Onboarding.StepResult}
    (hupper : outcome.toUpper = outcome)
    (hadvance : journeys.advanceVerified instanceId .kyc outcome (decisionKey caseId outcome)
      (decisionOutput caseId outcome) .externalService (some actor) none now =
        .ok (after, result)) :
    Takes journeys instanceId caseId outcome now ∨ HasTaken journeys instanceId caseId outcome := by
  obtain ⟨row, node, middle, hrow, hnode, htype, hstep, rfl⟩ :=
    Onboarding.advanceVerified_eq_ok hadvance
  rcases Onboarding.advance_cases hstep with
    ⟨found, execution, hopened, hexecution, hhash, _⟩ | ⟨found, source, target, hmoves, _⟩
  · exact .inr ⟨row, hrow, node, hnode, htype, execution, hexecution, hhash⟩
  · have hfound : found = row :=
      Option.some.inj (hmoves.opened.symm.trans (openInstance_of_find? hrow))
    subst hfound
    have hsource : source = node := Option.some.inj (hmoves.atSource.symm.trans hnode)
    subst hsource
    have htarget : journeys.nextNode found source.key outcome.toUpper.toUpper = some target :=
      hmoves.toTarget
    rw [hupper, hupper] at htarget
    exact .inl ⟨found, hrow, hmoves.inProgress, hmoves.current, source, hnode, htype,
      Option.isSome_of_eq_some htarget, hmoves.fresh⟩

theorem Takes.waits (htakes : Takes journeys instanceId caseId outcome now) :
    Waits journeys instanceId now := by
  obtain ⟨row, hrow, hprogress, hcurrent, node, hnode, htype, _⟩ := htakes
  exact ⟨row, hrow, hprogress, hcurrent, node, hnode, htype⟩

theorem not_advanced_of_executions (hsame : after.executions = journeys.executions) :
    ¬ Advanced journeys after instanceId outcome now := by
  rintro ⟨_, _, _, execution, _, _, _, _, _, hmore, _⟩
  rw [hsame] at hmore
  simpa using congrArg List.length hmore

end

/-! ## A review that ends -/

section

variable {state : State} {review : Review}

/-- The decision of a review, carried to the journey of its case. -/
theorem propagate_eq (state : State) (review : Review) :
    propagateKycDecision state.links state.journeys review.caseId review.action.status review.actor
        review.now =
      match state.destination review with
      | none => .ok state.journeys
      | some (instanceId, outcome) =>
        (state.journeys.advanceVerified instanceId .kyc outcome
          (decisionKey review.caseId outcome) (decisionOutput review.caseId outcome)
          .externalService (some review.actor) none review.now).map Prod.fst := by
  unfold propagateKycDecision State.destination
  cases state.links.rows.find? fun link => link.caseId = review.caseId with
  | none => rfl
  | some link => cases review.action.status.outcome <;> rfl

theorem toUpper_of_destination {instanceId : ℕ} {outcome : String}
    (hdestination : state.destination review = some (instanceId, outcome)) :
    outcome.toUpper = outcome := by
  obtain ⟨link, _, hmap⟩ := Option.bind_eq_some_iff.mp hdestination
  obtain ⟨found, hfound, hsame⟩ := Option.map_eq_some_iff.mp hmap
  cases hsame
  exact toUpper_of_outcome hfound

/-- A review whose journey raises an exception leaves its case awaiting another one. -/
theorem commitReview_error {row : Case} {error : Onboarding.VerifiedError}
    (hreview : review ∈ state.reviews) (hrow : state.cases.find? review.caseId = some row)
    (herror : propagateKycDecision state.links state.journeys review.caseId review.action.status
      review.actor review.now = .error error) :
    state.commitReview review = some (state.endReview review) := by
  rw [State.commitReview, if_pos hreview, hrow]
  dsimp only
  rw [herror]

/-- A review whose journey raises none commits. -/
theorem commitReview_ok {row : Case} {journeys : Onboarding.Database}
    (hreview : review ∈ state.reviews) (hrow : state.cases.find? review.caseId = some row)
    (hjourneys : propagateKycDecision state.links state.journeys review.caseId
      review.action.status review.actor review.now = .ok journeys) :
    state.commitReview review =
      some { (state.decide review row.customerMsisdn).endReview review with
        journeys := journeys } := by
  rw [State.commitReview, if_pos hreview, hrow]
  dsimp only
  rw [hjourneys]

/-- A review that commits has recorded its decision. -/
theorem find?_decided {row : Case} (hrow : state.cases.find? review.caseId = some row) :
    (state.decidedCases review.caseId review.action review.actor review.now).find? review.caseId =
      some (row.reviewed review.action review.actor review.now) :=
  Table.find?_modify_of_find? hrow (Case.reviewed review.action review.actor review.now)
    (Case.reviewed_id _ _ _)

theorem not_awaitsReview (action : ReviewAction) : ¬ action.status.AwaitsReview := by
  cases action <;> decide

/-- A review honours its journey exactly if nothing hinders it. -/
theorem honours_iff (hlocks : state.LocksHold) (hreview : review ∈ state.reviews) :
    state.Honours review ↔ state.Unhindered review := by
  obtain ⟨row, hrow, hawaits⟩ := hlocks.awaited review hreview
  have hpropagate := propagate_eq state review
  cases hdestination : state.destination review with
  | none =>
    rw [hdestination] at hpropagate
    apply iff_of_true
    · refine ⟨row, _, hrow, commitReview_ok hreview hrow hpropagate, find?_decided hrow,
        fun _ => rfl, ?_⟩
      intro instanceId outcome hsome
      rw [hdestination] at hsome
      cases hsome
    · intro instanceId outcome hsome
      rw [hdestination] at hsome
      cases hsome
  | some destination =>
    obtain ⟨instanceId, outcome⟩ := destination
    have hupper := toUpper_of_destination hdestination
    rw [hdestination] at hpropagate
    dsimp only at hpropagate
    constructor
    · rintro ⟨found, after, hfound, hcommit, hdecided, _, hadvances⟩
      intro sameId sameOutcome hsame
      rw [hdestination] at hsame
      cases hsame
      specialize hadvances instanceId outcome hdestination
      cases hadvance : state.journeys.advanceVerified instanceId .kyc outcome
          (decisionKey review.caseId outcome) (decisionOutput review.caseId outcome)
          .externalService (some review.actor) none review.now with
      | error error =>
        rw [hadvance] at hpropagate
        rw [commitReview_error hreview hrow hpropagate] at hcommit
        cases hcommit
        rw [hrow] at hfound
        cases hfound
        have hundone : row = row.reviewed review.action review.actor review.now :=
          Option.some.inj (hrow.symm.trans hdecided)
        rw [hundone] at hawaits
        exact absurd hawaits (not_awaitsReview review.action)
      | ok answer =>
        obtain ⟨journeys, result⟩ := answer
        rw [hadvance] at hpropagate
        rw [commitReview_ok hreview hrow hpropagate] at hcommit
        cases hcommit
        rcases takes_or_hasTaken hupper hadvance with htakes | htaken
        · exact .inl htakes
        · obtain ⟨other, answered, hother, hkept⟩ := htaken.kept review.actor review.now
          rw [hadvance] at hother
          cases hother
          refine .inr ⟨htaken, fun hwaits => ?_⟩
          exact not_advanced_of_executions hkept (hadvances.mpr hwaits)
    · intro hunhindered
      rcases hunhindered instanceId outcome hdestination with htakes | ⟨htaken, hleft⟩
      · obtain ⟨journeys, result, hadvance, hadvanced⟩ := htakes.advanced hupper review.actor
        rw [hadvance] at hpropagate
        refine ⟨row, _, hrow, commitReview_ok hreview hrow hpropagate, find?_decided hrow, ?_, ?_⟩
        · intro hnone
          rw [hdestination] at hnone
          cases hnone
        · intro sameId sameOutcome hsame
          rw [hdestination] at hsame
          cases hsame
          exact iff_of_true hadvanced htakes.waits
      · obtain ⟨journeys, result, hadvance, hkept⟩ := htaken.kept review.actor review.now
        rw [hadvance] at hpropagate
        refine ⟨row, _, hrow, commitReview_ok hreview hrow hpropagate, find?_decided hrow, ?_, ?_⟩
        · intro hnone
          rw [hdestination] at hnone
          cases hnone
        · intro sameId sameOutcome hsame
          rw [hdestination] at hsame
          cases hsame
          exact iff_of_false (not_advanced_of_executions hkept) hleft

end

/-! ## Cases that are closed -/

/-- A status that comes after a decision. -/
def CaseStatus.Closed (status : CaseStatus) : Prop := status.Decided ∨ status = .failed

instance (status : CaseStatus) : Decidable status.Closed := inferInstanceAs (Decidable (_ ∨ _))

theorem CaseStatus.Closed.turnedAway {status : CaseStatus} (hclosed : status.Closed) :
    ¬ status.TakesDocuments ∧ ¬ status.AwaitsReview := by
  revert hclosed
  cases status <;> decide

namespace State

variable (state : State)

/-- The cases whose verification is between its transactions. -/
def carried : List ℕ :=
  (state.verifications.filter fun call => call.stage = .submitted).map Verification.caseId

/-- Reviews hold their locks, and a verification between its transactions is the only one of its
case. -/
structure Orderly : Prop where
  locks : state.LocksHold
  stalled : ∀ caseId ∈ state.carried, ∃ row, state.cases.find? caseId = some row ∧
    row.status.Stalled
  single : state.carried.Nodup

/-- The case is past its decision, and no verification can lead it back. -/
structure PastDecision (caseId : ℕ) : Prop where
  closed : ∃ row, state.cases.find? caseId = some row ∧ row.status.Closed
  notCarried : caseId ∉ state.carried

/-- Every case is still there with its status. -/
def KeepsStatuses (before after : State) : Prop :=
  ∀ caseId row, before.cases.find? caseId = some row →
    ∃ kept, after.cases.find? caseId = some kept ∧ kept.status = row.status

/-- What a step does to the statuses of cases and to the verifications between their
transactions. -/
inductive Move (before after : State) : Prop
  | kept (hcases : KeepsStatuses before after) (hcarried : after.carried.Sublist before.carried)
  | submitted (caseId : ℕ) (row : Case) (hrow : before.cases.find? caseId = some row)
      (htakes : row.status.TakesDocuments)
      (hcases : after.cases =
        before.cases.modify caseId (Case.inStatus .processing) (Case.inStatus_id _))
      (hcarried : after.carried = before.carried ++ [caseId])
  | stored (caseId : ℕ) (result : OcrResult)
      (hcases : after.cases =
        before.cases.modify caseId (Case.verified result) (Case.verified_id _))
      (hcarried : before.carried.Perm (caseId :: after.carried))
  | failed (caseId : ℕ)
      (hcases : after.cases =
        before.cases.modify caseId (Case.inStatus .failed) (Case.inStatus_id _))
      (hcarried : after.carried.Sublist before.carried)
  | decided (review : Review) (hreview : review ∈ before.reviews)
      (hcases : after.cases =
        before.decidedCases review.caseId review.action review.actor review.now)
      (hcarried : after.carried = before.carried)

end State

section

variable {before after : State}

/-- Verifications that are left keep what they carry. -/
theorem carried_sublist {calls : List Verification}
    (hcalls : (calls.filter fun call => call.stage = .submitted).Sublist
      (before.verifications.filter fun call => call.stage = .submitted))
    (hafter : after.verifications = calls) : after.carried.Sublist before.carried := by
  unfold State.carried
  rw [hafter]
  exact hcalls.map Verification.caseId

/-- A verification that has failed carries no case. -/
theorem carried_erase_append (calls : List Verification) (call last : Verification)
    (hstage : last.stage ≠ .submitted) :
    ((calls.erase call ++ [last]).filter fun call => call.stage = .submitted).Sublist
      (calls.filter fun call => call.stage = .submitted) := by
  have hlast : [last].filter (fun call => decide (call.stage = Stage.submitted)) = [] := by
    simp [hstage]
  rw [List.filter_append, hlast, List.append_nil]
  exact (List.erase_sublist).filter _

/-- What a step of the service does. -/
theorem move_step {event : Event} (hstep : step before event = some after) :
    State.Move before after := by
  have hkept : ∀ {next : State}, next.cases = before.cases → State.KeepsStatuses before next := by
    intro next hcases caseId row hrow
    exact ⟨row, hcases ▸ hrow, rfl⟩
  cases step_cases hstep with
  | create _ hinsert =>
    refine .kept ?_ (List.Sublist.refl _)
    intro caseId row hrow
    refine ⟨row, ?_, rfl⟩
    rw [Table.find?_of_insert? hinsert]
    split
    case isTrue hsame =>
      rw [hsame, (Table.insert?_eq_some hinsert).1] at hrow
      cases hrow
    case isFalse => exact hrow
  | @submit caseId _ hready =>
    obtain ⟨row, hrow, htakes, _⟩ := hready
    refine .submitted caseId row hrow htakes rfl ?_
    simp [State.carried, List.filter_append]
  | failSubmit =>
    refine .kept (hkept rfl) (carried_sublist ?_ rfl)
    simp [List.filter_append]
  | @storeResult call result acknowledged _ hcall hstage =>
    refine .stored call.caseId result rfl ?_
    have hperm : (before.verifications.filter fun call => call.stage = .submitted).Perm
        (call :: (before.verifications.erase call).filter
          fun call => call.stage = .submitted) := by
      have hall := (List.perm_cons_erase hcall).filter
        fun call => decide (call.stage = Stage.submitted)
      rwa [List.filter_cons_of_pos (by simpa using hstage)] at hall
    have hafter : ((before.verifications.erase call ++
        if acknowledged then [] else [{ call with stage := .caught }]).filter fun call =>
          decide (call.stage = Stage.submitted)) =
        (before.verifications.erase call).filter
          fun call => decide (call.stage = Stage.submitted) := by
      rw [List.filter_append]
      cases acknowledged <;> simp
    unfold State.carried
    dsimp only
    rw [hafter]
    exact hperm.map Verification.caseId
  | @recordFailure call =>
    exact .failed call.caseId rfl (carried_sublist ((List.erase_sublist).filter _) rfl)
  | breakOff | noteFailure =>
    exact .kept (hkept rfl) (carried_sublist (carried_erase_append _ _ _ (by simp)) rfl)
  | abandon => exact .kept (hkept rfl) (carried_sublist ((List.erase_sublist).filter _) rfl)
  | file | review | endReview => exact .kept (hkept rfl) (List.Sublist.refl _)
  | commitReview hreview => exact .decided _ hreview rfl rfl

/-- A case that awaits a review is not with a verification. -/
theorem State.Orderly.not_carried (horderly : before.Orderly) {caseId : ℕ} {row : Case}
    (hrow : before.cases.find? caseId = some row)
    (hopen : row.status.TakesDocuments ∨ row.status.AwaitsReview) : caseId ∉ before.carried := by
  intro hcarried
  obtain ⟨found, hfound, hstalled⟩ := horderly.stalled caseId hcarried
  rw [hrow] at hfound
  cases hfound
  exact hopen.elim hstalled.turnedAway.1 hstalled.turnedAway.2.1

/-- A move keeps the order, once the locks hold. -/
theorem State.Orderly.move (horderly : before.Orderly) (hmove : State.Move before after)
    (hlocks : after.LocksHold) : after.Orderly := by
  refine ⟨hlocks, ?_, ?_⟩
  · intro caseId hcarried
    cases hmove with
    | kept hcases hsub =>
      obtain ⟨row, hrow, hstalled⟩ := horderly.stalled caseId (hsub.subset hcarried)
      obtain ⟨kept, hkept, hstatus⟩ := hcases caseId row hrow
      exact ⟨kept, hkept, hstatus ▸ hstalled⟩
    | submitted written row hrow htakes hcases hmore =>
      rw [hcases]
      by_cases hsame : caseId = written
      case pos =>
        rw [hsame]
        exact ⟨_, Table.find?_modify_of_find? hrow (Case.inStatus .processing)
          (Case.inStatus_id _), .inl rfl⟩
      case neg =>
        rw [Table.find?_modify_of_ne _ hsame (Case.inStatus .processing) (Case.inStatus_id _)]
        apply horderly.stalled
        rw [hmore] at hcarried
        exact (List.mem_append.mp hcarried).resolve_right fun hlast =>
          hsame (List.mem_singleton.mp hlast)
    | stored written result hcases hperm =>
      have hne : caseId ≠ written := by
        rintro rfl
        exact (List.nodup_cons.mp (hperm.nodup_iff.mp horderly.single)).1 hcarried
      rw [hcases, Table.find?_modify_of_ne _ hne (Case.verified result) (Case.verified_id _)]
      exact horderly.stalled caseId (hperm.mem_iff.mpr (List.mem_cons_of_mem _ hcarried))
    | failed written hcases hsub =>
      obtain ⟨row, hrow, hstalled⟩ := horderly.stalled caseId (hsub.subset hcarried)
      rw [hcases]
      by_cases hsame : caseId = written
      case pos =>
        subst hsame
        exact ⟨_, Table.find?_modify_of_find? hrow (Case.inStatus .failed)
          (Case.inStatus_id _), .inr rfl⟩
      case neg =>
        rw [Table.find?_modify_of_ne _ hsame (Case.inStatus .failed) (Case.inStatus_id _)]
        exact ⟨row, hrow, hstalled⟩
    | decided review hreview hcases hsame =>
      obtain ⟨row, hrow, hawaits⟩ := horderly.locks.awaited review hreview
      rw [hsame] at hcarried
      have hne : caseId ≠ review.caseId := by
        rintro rfl
        exact horderly.not_carried hrow (.inr hawaits) hcarried
      rw [hcases, State.decidedCases, Table.find?_modify_of_ne _ hne
        (Case.reviewed review.action review.actor review.now) (Case.reviewed_id _ _ _)]
      exact horderly.stalled caseId hcarried
  · cases hmove with
    | kept hcases hsub => exact horderly.single.sublist hsub
    | submitted written row hrow htakes hcases hmore =>
      rw [hmore, ← List.concat_eq_append]
      exact horderly.single.concat (horderly.not_carried hrow (.inl htakes))
    | stored written result hcases hperm =>
      exact (List.nodup_cons.mp (hperm.nodup_iff.mp horderly.single)).2
    | failed written hcases hsub => exact horderly.single.sublist hsub
    | decided review hreview hcases hsame => exact hsame ▸ horderly.single

/-- A move does not lead a case back from its decision. -/
theorem State.PastDecision.move {caseId : ℕ} (hpast : before.PastDecision caseId)
    (hlocks : before.LocksHold) (hmove : State.Move before after) : after.PastDecision caseId := by
  obtain ⟨row, hrow, hclosed⟩ := hpast.closed
  cases hmove with
  | kept hcases hsub =>
    obtain ⟨kept, hkept, hstatus⟩ := hcases caseId row hrow
    exact ⟨⟨kept, hkept, hstatus ▸ hclosed⟩,
      fun hcarried => hpast.notCarried (hsub.subset hcarried)⟩
  | submitted written taken htaken htakes hcases hmore =>
    have hne : caseId ≠ written := by
      rintro rfl
      rw [hrow] at htaken
      cases htaken
      exact hclosed.turnedAway.1 htakes
    refine ⟨⟨row, ?_, hclosed⟩, ?_⟩
    · rw [hcases, Table.find?_modify_of_ne _ hne (Case.inStatus .processing)
        (Case.inStatus_id _)]
      exact hrow
    · rw [hmore, List.mem_append, not_or, List.mem_singleton]
      exact ⟨hpast.notCarried, hne⟩
  | stored written result hcases hperm =>
    have hne : caseId ≠ written := by
      rintro rfl
      exact hpast.notCarried (hperm.mem_iff.mpr List.mem_cons_self)
    refine ⟨⟨row, ?_, hclosed⟩, fun hcarried => ?_⟩
    · rw [hcases, Table.find?_modify_of_ne _ hne (Case.verified result) (Case.verified_id _)]
      exact hrow
    · exact hpast.notCarried (hperm.mem_iff.mpr (List.mem_cons_of_mem _ hcarried))
  | failed written hcases hsub =>
    refine ⟨?_, fun hcarried => hpast.notCarried (hsub.subset hcarried)⟩
    rw [hcases]
    by_cases hsame : caseId = written
    case pos =>
      subst hsame
      exact ⟨_, Table.find?_modify_of_find? hrow (Case.inStatus .failed) (Case.inStatus_id _),
        .inr rfl⟩
    case neg =>
      rw [Table.find?_modify_of_ne _ hsame (Case.inStatus .failed) (Case.inStatus_id _)]
      exact ⟨row, hrow, hclosed⟩
  | decided review hreview hcases hsame =>
    have hne : caseId ≠ review.caseId := by
      rintro rfl
      obtain ⟨awaited, hawaited, hawaits⟩ := hlocks.awaited review hreview
      rw [hrow] at hawaited
      cases hawaited
      exact hclosed.turnedAway.2 hawaits
    refine ⟨⟨row, ?_, hclosed⟩, hsame ▸ hpast.notCarried⟩
    rw [hcases, State.decidedCases, Table.find?_modify_of_ne _ hne
      (Case.reviewed review.action review.actor review.now) (Case.reviewed_id _ _ _)]
    exact hrow

theorem State.PastDecision.unlocked {caseId : ℕ} (hpast : before.PastDecision caseId)
    (hlocks : before.LocksHold) : before.Unlocked caseId := by
  rintro review hreview rfl
  obtain ⟨row, hrow, hclosed⟩ := hpast.closed
  obtain ⟨awaited, hawaited, hawaits⟩ := hlocks.awaited review hreview
  rw [hrow] at hawaited
  cases hawaited
  exact hclosed.turnedAway.2 hawaits

theorem State.LocksHold.of_kept (hlocks : before.LocksHold)
    (hcases : State.KeepsStatuses before after) (hreviews : after.reviews = before.reviews) :
    after.LocksHold where
  awaited := by
    intro review hreview
    rw [hreviews] at hreview
    obtain ⟨row, hrow, hawaits⟩ := hlocks.awaited review hreview
    obtain ⟨kept, hkept, hstatus⟩ := hcases review.caseId row hrow
    exact ⟨kept, hkept, hstatus ▸ hawaits⟩
  exclusive := hreviews ▸ hlocks.exclusive

end

/-! ## Steps beside the service -/

/-- A step beside the service leaves statuses, verifications, reviews and links. -/
structure Beside (before after : State) : Prop where
  statuses : State.KeepsStatuses before after
  verifications : after.verifications = before.verifications
  reviews : after.reviews = before.reviews
  links : ∀ link ∈ before.links.rows, link ∈ after.links.rows

section

variable {before after : Accounts}

theorem beside_of_same {before after : State} (hcases : after.cases = before.cases)
    (hstalleds : after.verifications = before.verifications)
    (hreviews : after.reviews = before.reviews) (hlinks : after.links = before.links) :
    Beside before after where
  statuses := fun _ row hrow => ⟨row, hcases ▸ hrow, rfl⟩
  verifications := hstalleds
  reviews := hreviews
  links := fun _ hlink => hlinks ▸ hlink

/-- A new case changes no other. -/
theorem keepsStatuses_of_inserted {before after : State} {row : Case} {table : Table Case.id}
    (hinsert : before.cases.insert? row = some table) (hcases : after.cases = table) :
    State.KeepsStatuses before after := by
  intro caseId found hfound
  refine ⟨found, ?_, rfl⟩
  rw [hcases, Table.find?_of_insert? hinsert]
  split
  case isTrue hsame =>
    rw [hsame, (Table.insert?_eq_some hinsert).1] at hfound
    cases hfound
  case isFalse => exact hfound

/-- Opening wallets and journeys is beside the service. -/
theorem beside_accountStep {event : AccountEvent} (hstep : accountStep before event = some after)
    (hevent : ∀ inner, event ≠ .kyc inner) : Beside before.kyc after.kyc := by
  cases event with
  | kyc inner => exact absurd rfl (hevent inner)
  | createCustomer customer circumstances id documentType actor now =>
    simp only [accountStep, Accounts.createCustomer] at hstep
    split at hstep
    case h_1 => cases hstep
    case h_2 =>
      split at hstep
      case isTrue =>
        cases hstep
        exact beside_of_same rfl rfl rfl rfl
      case isFalse =>
        rw [Option.ite_none_left_eq_some, Option.map_eq_some_iff] at hstep
        obtain ⟨_, found, hfound, rfl⟩ := hstep
        unfold Accounts.awaitedCase at hfound
        split at hfound
        case h_1 =>
          simp only [Option.ite_none_right_eq_some, Option.some.injEq] at hfound
          obtain ⟨_, rfl⟩ := hfound
          exact beside_of_same rfl rfl rfl rfl
        case h_2 =>
          obtain ⟨table, hinsert, rfl⟩ := Option.map_eq_some_iff.mp hfound
          exact ⟨keepsStatuses_of_inserted hinsert rfl, rfl, rfl, fun _ hlink => hlink⟩
  | completeCustomerAccountOpening owner circumstances =>
    simp only [accountStep, Accounts.completeCustomerAccountOpening] at hstep
    split at hstep
    case h_1 => cases hstep
    case h_2 =>
      obtain ⟨directory, _, rfl⟩ := Option.map_eq_some_iff.mp hstep
      exact beside_of_same rfl rfl rfl rfl
  | createAdditional owner request circumstances number =>
    obtain ⟨directory, _, rfl⟩ := Option.map_eq_some_iff.mp hstep
    exact beside_of_same rfl rfl rfl rfl
  | insertWallet owner =>
    simp only [accountStep, Accounts.insertWallet] at hstep
    split at hstep
    case h_1 => cases hstep
    case h_2 =>
      simp only [Option.ite_none_right_eq_some, Option.some.injEq] at hstep
      obtain ⟨_, rfl⟩ := hstep
      exact beside_of_same rfl rfl rfl rfl
  | finish owner =>
    simp only [accountStep, Accounts.finish] at hstep
    split at hstep
    case h_1 =>
      obtain ⟨directory, _, rfl⟩ := Option.map_eq_some_iff.mp hstep
      dsimp only
      split
      case h_1 => exact beside_of_same rfl rfl rfl rfl
      case h_2 => exact beside_of_same rfl rfl rfl rfl
    case h_2 => cases hstep
  | rollback owner | applyWalletType walletCode walletType =>
    cases hstep
    exact beside_of_same rfl rfl rfl rfl
  | changeWalletCode walletMsisdn walletCode =>
    simp only [accountStep, Accounts.changeWalletCode] at hstep
    split at hstep
    case h_1 => cases hstep
    case h_2 =>
      simp only [Option.ite_none_right_eq_some, Option.some.injEq] at hstep
      obtain ⟨_, rfl⟩ := hstep
      exact beside_of_same rfl rfl rfl rfl
  | startKyc instanceId resumeTokenHash id documentType now =>
    simp only [accountStep, Accounts.startKyc] at hstep
    split at hstep
    case h_1 => cases hstep
    case h_2 =>
      split at hstep
      case h_1 =>
        cases hstep
        exact beside_of_same rfl rfl rfl rfl
      case h_2 =>
        simp only [Option.bind_eq_some_iff, Option.map_eq_some_iff] at hstep
        obtain ⟨table, hinsert, links, hlinks, rfl⟩ := hstep
        refine ⟨keepsStatuses_of_inserted hinsert rfl, rfl, rfl, fun link hlink => ?_⟩
        show link ∈ links.rows
        rw [(Table.insert?_eq_some hlinks).2]
        exact List.mem_append_left _ hlink
  | allocateWallet instanceId resumeTokenHash now =>
    obtain ⟨found, _, rfl⟩ := Option.map_eq_some_iff.mp hstep
    exact beside_of_same rfl rfl rfl rfl
  | prepareAllocation customerId =>
    simp only [accountStep, Accounts.prepareAllocation] at hstep
    split at hstep
    case h_1 => cases hstep
    case h_2 customer _ =>
      simp only [Option.ite_none_right_eq_some, Option.some.injEq] at hstep
      obtain ⟨_, rfl⟩ := hstep
      refine ⟨fun caseId row hrow => ?_, rfl, rfl, fun _ hlink => hlink⟩
      refine ⟨row.numbered customerId customer.phone, ?_, Case.numbered_status _ _ _⟩
      exact (Table.find?_map _ _ (Case.numbered_id customerId customer.phone) caseId).trans
        (by rw [hrow, Option.map_some])
  | advance request =>
    obtain ⟨journeys, _, rfl⟩ := Option.map_eq_some_iff.mp hstep
    exact beside_of_same rfl rfl rfl rfl

end

/-! ## Runs -/

/-- A step of the service, of the wallets or of the onboarding; or journeys are started, resumed,
handed over or cancelled, or expire. -/
inductive DecisionEvent
  | account (event : AccountEvent)
  | journeys (journeys : Onboarding.Database)

def decisionStep (accounts : Accounts) : DecisionEvent → Option Accounts
  | .account event => accountStep accounts event
  | .journeys journeys =>
    some { accounts with kyc := { accounts.kyc with journeys := journeys } }

/-- No verification and no review is under way. -/
structure Accounts.Calm (accounts : Accounts) : Prop where
  verifications : accounts.kyc.verifications = []
  reviews : accounts.kyc.reviews = []

section

variable {before after : Accounts}

/-- What a step does. -/
theorem decisionStep_cases {event : DecisionEvent}
    (hstep : decisionStep before event = some after) :
    (∃ inner, step before.kyc inner = some after.kyc) ∨ Beside before.kyc after.kyc := by
  cases event with
  | account event =>
    by_cases hevent : ∃ inner, event = .kyc inner
    case pos =>
      obtain ⟨inner, rfl⟩ := hevent
      obtain ⟨kyc, hkyc, rfl⟩ := Option.map_eq_some_iff.mp hstep
      exact .inl ⟨inner, hkyc⟩
    case neg =>
      exact .inr (beside_accountStep hstep fun inner hinner => hevent ⟨inner, hinner⟩)
  | journeys journeys =>
    cases hstep
    exact .inr (beside_of_same rfl rfl rfl rfl)

theorem Beside.move {before after : State} (hbeside : Beside before after) :
    State.Move before after :=
  .kept hbeside.statuses (carried_sublist (List.Sublist.refl _) hbeside.verifications)

theorem decisionStep_move {event : DecisionEvent}
    (hstep : decisionStep before event = some after) : State.Move before.kyc after.kyc := by
  rcases decisionStep_cases hstep with ⟨inner, hinner⟩ | hbeside
  · exact move_step hinner
  · exact hbeside.move

/-- Every step keeps the order. -/
theorem State.Orderly.step (horderly : before.kyc.Orderly) {event : DecisionEvent}
    (hstep : decisionStep before event = some after) : after.kyc.Orderly := by
  apply horderly.move (decisionStep_move hstep)
  rcases decisionStep_cases hstep with ⟨inner, hinner⟩ | hbeside
  · exact horderly.locks.step hinner
  · exact horderly.locks.of_kept hbeside.statuses hbeside.reviews

theorem links_decisionStep {event : DecisionEvent}
    (hstep : decisionStep before event = some after) {link : Link}
    (hlink : link ∈ before.kyc.links.rows) : link ∈ after.kyc.links.rows := by
  rcases decisionStep_cases hstep with ⟨inner, hinner⟩ | hbeside
  · rw [links_step hinner]
    exact hlink
  · exact hbeside.links link hlink

theorem Accounts.Calm.orderly {start : Accounts} (hcalm : start.Calm) : start.kyc.Orderly := by
  have hcarried : start.kyc.carried = [] := by
    rw [State.carried, hcalm.verifications]
    rfl
  refine ⟨⟨?_, ?_⟩, ?_, ?_⟩
  · intro review hreview
    rw [hcalm.reviews] at hreview
    cases hreview
  · rw [hcalm.reviews]
    exact List.nodup_nil
  · intro caseId hmem
    rw [hcarried] at hmem
    cases hmem
  · rw [hcarried]
    exact List.nodup_nil

end

theorem State.Orderly.pastDecision {before after : State} (horderly : before.Orderly)
    {review : Review} (hcommit : before.commitReview review = some after)
    (hdecided : ∃ row ∈ after.cases.find? review.caseId, row.status.Decided) :
    after.PastDecision review.caseId := by
  obtain ⟨row, hrow, hstatus⟩ := hdecided
  refine ⟨⟨row, hrow, .inl hstatus⟩, ?_⟩
  obtain ⟨hreview, found, hfound, ⟨_, _, rfl⟩ | ⟨_, _, rfl⟩⟩ := commitReview_cases hcommit
  all_goals
    obtain ⟨awaited, hawaited, hawaits⟩ := horderly.locks.awaited review hreview
    exact horderly.not_carried hawaited (.inr hawaits)

/-- A journey is linked to one case. -/
theorem caseId_of_destination {state : State} {review : Review} {link : Link} {outcome : String}
    (hdestination : state.destination review = some (link.instanceId, outcome))
    (hlink : link ∈ state.links.rows) : link.caseId = review.caseId := by
  obtain ⟨found, hfound, hmap⟩ := Option.bind_eq_some_iff.mp hdestination
  obtain ⟨_, _, hsame⟩ := Option.map_eq_some_iff.mp hmap
  have hid : found.instanceId = link.instanceId := congrArg Prod.fst hsame
  rw [← state.links.eq_of_key_eq (List.mem_of_find?_eq_some hfound) hlink hid]
  simpa using List.find?_some hfound

/-- A review honours its journey exactly if nothing hinders it; and once a decision is recorded no
later review is of the case, or of another case of the same journey. -/
theorem reviews_honour_journeys {start : Accounts} (hcalm : start.Calm) :
    (∀ state, Reaches decisionStep start state → ∀ review ∈ state.kyc.reviews,
      (state.kyc.Honours review ↔ state.kyc.Unhindered review)) ∧
    ∀ before review middle, Reaches decisionStep start before →
      before.kyc.commitReview review = some middle.kyc →
      (∃ row ∈ middle.kyc.cases.find? review.caseId, row.status.Decided) →
      ∀ later, Reaches decisionStep middle later → ∀ again ∈ later.kyc.reviews,
        again.caseId ≠ review.caseId ∧
          ∀ link ∈ middle.kyc.links.rows, link.caseId = review.caseId →
            ∀ outcome, later.kyc.destination again ≠ some (link.instanceId, outcome) := by
  have horderly : ∀ state, Reaches decisionStep start state → state.kyc.Orderly :=
    fun state hrun => hrun.preserves (fun state => state.kyc.Orderly)
      (fun _ _ _ hbefore hstep => hbefore.step hstep) hcalm.orderly
  constructor
  · intro state hrun review hreview
    exact honours_iff (horderly state hrun).locks hreview
  · intro before review middle hrun hcommit hdecided later hlater again hagain
    have hstep : step before.kyc (.commitReview review) = some middle.kyc := hcommit
    have hmiddle : middle.kyc.Orderly :=
      (horderly before hrun).move (move_step hstep) ((horderly before hrun).locks.step hstep)
    have hkept : later.kyc.Orderly ∧ later.kyc.PastDecision review.caseId ∧
        ∀ link ∈ middle.kyc.links.rows, link ∈ later.kyc.links.rows := by
      apply hlater.preserves fun state => state.kyc.Orderly ∧
        state.kyc.PastDecision review.caseId ∧
          ∀ link ∈ middle.kyc.links.rows, link ∈ state.kyc.links.rows
      · intro state event next hstate hstep
        obtain ⟨hstateOrderly, hpast, hlinks⟩ := hstate
        exact ⟨hstateOrderly.step hstep, hpast.move hstateOrderly.locks (decisionStep_move hstep),
          fun link hlink => links_decisionStep hstep (hlinks link hlink)⟩
      · exact ⟨hmiddle, (horderly before hrun).pastDecision hcommit hdecided, fun _ hlink => hlink⟩
    obtain ⟨hlater', hpast, hlinks⟩ := hkept
    have hne : again.caseId ≠ review.caseId := hpast.unlocked hlater'.locks again hagain
    refine ⟨hne, fun link hlink hcase outcome hdestination => hne ?_⟩
    rw [← hcase]
    exact (caseId_of_destination hdestination (hlinks link hlink)).symm

/-- A case of a registered customer that awaits its review, linked to a journey at its KYC node. -/
def linkedCase (status : Onboarding.InstanceStatus) : Accounts where
  kyc :=
    { cases :=
        .single
          { id := 1
            customerMsisdn := none
            customerId := some 5
            documentType := .passport
            status := .manualReview
            screening := some .clear
            createdBy := "onboarding-runtime"
            createdAt := 0 }
      profiles := .empty
      requests := .empty
      links := .single { instanceId := 1, caseId := 1 }
      journeys :=
        { versions :=
            .single
              { id := 1
                graph :=
                  { scopes := []
                    nodes := [{ key := "kyc", type := .kyc }, { key := "end", type := .finish }]
                    transitions :=
                      [{ source := "kyc", target := "end", outcome := "APPROVED"
                         priority := 1 }] } }
          instances :=
            .single
              { id := 1
                customerId := 5
                versionId := 1
                currentNode := some "kyc"
                status := status
                resumeTokenHash := "token"
                expiresAt := 100 }
          customers := .empty } }
  directory := Wallets.Directory.empty
  walletTypes := fun _ => none
  registry := .empty

def approval : Review where
  caseId := 1
  action := .approve
  actor := "checker"
  approvedCaseId := none
  now := 1

def underReview (status : Onboarding.InstanceStatus) : Accounts :=
  { linkedCase status with kyc := { (linkedCase status).kyc with reviews := [approval] } }

theorem linkedCase_calm (status : Onboarding.InstanceStatus) : (linkedCase status).Calm :=
  ⟨rfl, rfl⟩

theorem underReview_reached (status : Onboarding.InstanceStatus) :
    Reaches decisionStep (linkedCase status) (underReview status) :=
  Reaches.tail .refl (.account (.kyc (.review 1 .approve "checker" 1))) rfl

/-- The approval of a case whose journey waits for it is honoured. -/
theorem reviews_honour_journeys_waiting :
    Reaches decisionStep (linkedCase .inProgress) (underReview .inProgress) ∧
      (underReview .inProgress).kyc.Honours approval := by
  have hreached := underReview_reached .inProgress
  refine ⟨hreached, ((reviews_honour_journeys (linkedCase_calm _)).1 _ hreached approval
    (List.mem_singleton_self _)).mpr ?_⟩
  intro instanceId outcome hdestination
  cases hdestination
  exact .inl ⟨_, rfl, rfl, by decide, _, rfl, rfl, rfl, rfl⟩

/-- The approval of a case whose journey was cancelled is undone. -/
theorem cancelled_journey_undoes_approval : (linkedCase .cancelled).Calm ∧
    Reaches decisionStep (linkedCase .cancelled) (underReview .cancelled) ∧
    approval ∈ (underReview .cancelled).kyc.reviews ∧
    ¬ (underReview .cancelled).kyc.Honours approval ∧
    ∃ after, (underReview .cancelled).kyc.commitReview approval = some after ∧
      ∃ row ∈ after.cases.rows, row.id = 1 ∧ row.status = .manualReview := by
  have hreached := underReview_reached .cancelled
  have hany : ((underReview .cancelled).kyc.commitReview approval).any (fun after =>
      decide (∃ row ∈ after.cases.rows, row.id = 1 ∧ row.status = .manualReview)) := by
    decide
  obtain ⟨after, hcommit, hfacts⟩ := (Option.any_eq_true _ _).mp hany
  obtain ⟨row, hmem, hid, hstatus⟩ := of_decide_eq_true hfacts
  refine ⟨linkedCase_calm _, hreached, List.mem_singleton_self _, ?_, after, hcommit, row, hmem,
    hid, hstatus⟩
  rintro ⟨found, committed, hfound, hsame, hdecided, _⟩
  rw [hcommit] at hsame
  cases hsame
  have hrow : after.cases.find? 1 = some row := hid ▸ Table.find?_key hmem
  rw [show approval.caseId = 1 from rfl, hrow] at hdecided
  cases hdecided
  cases hstatus

end Finify.Kyc
