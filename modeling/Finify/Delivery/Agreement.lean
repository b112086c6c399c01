/-
# The failure path and the ledger

The producer's error path, the consumer's handlers and the posting procedure
write the same request and the same reservation.  They agree in the end when the
error path keeps off a transaction that is posted, when nothing is posted for a
transaction whose reservation has been given up, and when a transaction is not
delivered in one mode after it was posted in the other.
-/

import Finify.Delivery.Submission
import Finify.Posting.SinglePosting

namespace Finify.Delivery

open Finify.Foundations Finify.Posting

/-! ## Stages and their postings -/

section Stages

variable {db : Posting.Db} {stages : Stages} {transactionId : ℤ} {mode : Mode}

theorem posted_of_completed {stage : Stage mode} {operation : Operation}
    (hstatus : stage.journalStatus operation = some .completed)
    (haction : operation.action = .post) : stage = .posted := by
  rcases operation with _ | _ | _ | ⟨_ | _⟩ <;> cases mode <;> cases stage <;>
    first | rfl | exact absurd haction (by decide) | cases hstatus

/-- A standing stage has a posting journal in effect. -/
theorem exists_reversible {stage : Stage mode} (hstanding : stage.Standing) :
    ∃ operation status, operation.mode = mode ∧ operation.action = .post ∧
      stage.journalStatus operation = some status ∧ status.reversible := by
  cases stage with
  | fresh => cases hstanding
  | reserved => exact ⟨.reserve, _, rfl, rfl, rfl, rfl⟩
  | posted =>
    cases mode with
    | direct => exact ⟨.direct, _, rfl, rfl, rfl, rfl⟩
    | twoLeg => exact ⟨.settle, _, rfl, rfl, rfl, rfl⟩
  | cancelled => cases hstanding
  | reversed => cases hstanding

theorem exists_posted (hrefines : Refines db stages)
    (hcompleted : HasCompletedPosting db transactionId) :
    ∃ mode, stages transactionId mode = .posted := by
  obtain ⟨journal, hmem, hposts, hstatus⟩ := hcompleted
  obtain ⟨rfl, haction⟩ := Journal.postsFor_iff.mp hposts
  have hstage := hrefines.status_of_mem hmem
  rw [hstatus] at hstage
  exact ⟨_, posted_of_completed hstage haction⟩

theorem hasEffectivePosting_iff (hrefines : Refines db stages) :
    HasEffectivePosting db transactionId ↔ ∃ mode, (stages transactionId mode).Standing := by
  constructor
  · rintro ⟨journal, hmem, hposts, hstatus⟩
    obtain ⟨rfl, haction⟩ := Journal.postsFor_iff.mp hposts
    exact ⟨_, Stage.standing_of_reversible (hrefines.status_of_mem hmem) haction hstatus⟩
  · rintro ⟨mode, hstanding⟩
    obtain ⟨operation, status, rfl, haction, hstatus, hreversible⟩ := exists_reversible hstanding
    rw [← hrefines.status] at hstatus
    obtain ⟨journal, hfind, rfl⟩ := Option.map_eq_some_iff.mp hstatus
    obtain ⟨hmem, htransaction, hoperation⟩ := Db.findJournal_eq_some hfind
    refine ⟨journal, hmem, Journal.postsFor_iff.mpr ⟨htransaction, ?_⟩, hreversible⟩
    rw [hoperation, haction]

/-- A stage is fresh when its first posting has no journal. -/
theorem fresh_of_unposted (hrefines : Refines db stages) {operation : Operation}
    (hfirst : operation = .direct ∨ operation = .reserve)
    (hunposted : db.findJournal transactionId operation = none) :
    stages transactionId operation.mode = .fresh := by
  have hstatus := hrefines.status transactionId operation
  rw [hunposted] at hstatus
  rcases hfirst with rfl | rfl
  · show stages transactionId .direct = .fresh
    change none = (stages transactionId .direct).journalStatus .direct at hstatus
    cases hstage : stages transactionId .direct with
    | fresh => rfl
    | posted => simp [hstage, Stage.journalStatus] at hstatus
    | reversed => simp [hstage, Stage.journalStatus] at hstatus
  · show stages transactionId .twoLeg = .fresh
    change none = (stages transactionId .twoLeg).journalStatus .reserve at hstatus
    cases hstage : stages transactionId .twoLeg with
    | fresh => rfl
    | reserved => simp [hstage, Stage.journalStatus] at hstatus
    | posted => simp [hstage, Stage.journalStatus] at hstatus
    | cancelled => simp [hstage, Stage.journalStatus] at hstatus
    | reversed => simp [hstage, Stage.journalStatus] at hstatus

theorem not_standing_fresh : ¬ (Stage.fresh : Stage mode).Standing := id

theorem not_standing_of_closed {stage : Stage mode} (hclosed : stage.Closed) :
    ¬ stage.Standing := by
  cases stage with
  | fresh => cases hclosed
  | reserved => cases hclosed
  | posted => cases hclosed
  | cancelled => exact id
  | reversed => exact id

theorem standing_posted : (Stage.posted : Stage mode).Standing := trivial

end Stages

/-! ## The reservation -/

section Reservation

variable (db : Aml.Db) (now : Stamp) (transactionId : ℤ)

/-- A completion moves a pending reservation and leaves any other. -/
theorem amlStatus_completed :
    amlStatus (db.amlFinalize now (some transactionId) .completed).2 transactionId =
      (amlStatus db transactionId).map fun status =>
        if status = .pending then .completed else status := by
  unfold Aml.Db.amlFinalize amlStatus
  cases hfind : db.reservations.find? transactionId with
  | none => simp [hfind]
  | some reservation =>
    obtain rfl := (Table.find?_eq_some.mp hfind).2
    cases hstatus : reservation.status <;>
      simp [hfind, hstatus, Aml.Outcome.transition?, Aml.Db.updateSummary, Aml.Db.setStatus]

theorem amlStatus_released :
    amlStatus (db.amlFinalize now (some transactionId) .released).2 transactionId =
      (amlStatus db transactionId).map fun status =>
        if status = .pending then .released else status := by
  unfold Aml.Db.amlFinalize amlStatus
  cases hfind : db.reservations.find? transactionId with
  | none => simp [hfind]
  | some reservation =>
    obtain rfl := (Table.find?_eq_some.mp hfind).2
    cases hstatus : reservation.status <;>
      simp [hfind, hstatus, Aml.Outcome.transition?, Aml.Db.updateSummary, Aml.Db.setStatus]

/-- A reversal moves a completed reservation, if its summary is there, and leaves
any other. -/
theorem amlStatus_reversed :
    amlStatus (db.amlFinalize now (some transactionId) .reversed).2 transactionId =
        amlStatus db transactionId ∨
      amlStatus db transactionId = some .completed ∧
        amlStatus (db.amlFinalize now (some transactionId) .reversed).2 transactionId =
          some .reversed := by
  unfold Aml.Db.amlFinalize amlStatus
  cases hfind : db.reservations.find? transactionId with
  | none => simp [hfind]
  | some reservation =>
    obtain rfl := (Table.find?_eq_some.mp hfind).2
    cases hsummary : db.summaries.find? reservation.account <;>
      cases hstatus : reservation.status <;>
        simp [hfind, hstatus, hsummary, Aml.Outcome.transition?, Aml.Db.updateSummary,
          Aml.Db.setStatus]

theorem amlStatus_other :
    amlStatus (db.amlFinalize now (some transactionId) .other).2 transactionId =
      amlStatus db transactionId := by
  unfold Aml.Db.amlFinalize
  split <;> rfl

end Reservation

/-! ## The condition -/

/-- The reservation has been given up: it is released, or a handler has still to
release it or may release it again. -/
def Withdrawn (transactionId : ℤ) (state : Submission) : Prop :=
  amlStatus state.aml transactionId = some .released ∨ .released ∈ state.due ∨
    .released ∈ state.recorded

/-- The error path writes only while no posting is in effect; a handler posts only
while the reservation has not been given up, and only asks for a posting in a mode
when the transaction has none in the other. -/
def Careful (transactionId : ℤ) (state : Submission) : SubmissionEvent → Prop
  | .release _ => ¬ HasEffectivePosting state.ledger transactionId
  | .markTransactionFailed => ¬ HasEffectivePosting state.ledger transactionId
  | .deliver handler message =>
    handler.operation.action = .post →
      ¬ state.ledger.PostedIn transactionId handler.operation.mode.other ∧
        (state.ledger.Passes (handler.call transactionId message) →
          ¬ Withdrawn transactionId state)
  | _ => True

instance (db : Posting.Db) (call : Call) : Decidable (db.Passes call) :=
  match h : db.plan call with
  | .ok plan => isTrue ⟨plan, h⟩
  | .error _ => isFalse fun ⟨_, hplan⟩ => by
      rw [h] at hplan
      cases hplan

instance (db : Posting.Db) (transactionId : ℤ) (mode : Mode) :
    Decidable (db.PostedIn transactionId mode) :=
  inferInstanceAs (Decidable (∃ journal ∈ db.journals.rows, _))

instance (transactionId : ℤ) (state : Submission) : Decidable (Withdrawn transactionId state) :=
  inferInstanceAs (Decidable (_ ∨ _ ∨ _))

instance (transactionId : ℤ) (state : Submission) (event : SubmissionEvent) :
    Decidable (Careful transactionId state event) :=
  match event with
  | .release _ => inferInstanceAs (Decidable (¬ _))
  | .markTransactionFailed => inferInstanceAs (Decidable (¬ _))
  | .deliver _ _ => inferInstanceAs (Decidable (_ → _ ∧ (_ → ¬ _)))
  | .update _ _ => isTrue trivial
  | .updateThrows => isTrue trivial
  | .send _ => isTrue trivial
  | .releaseThrows => isTrue trivial
  | .markThrows => isTrue trivial
  | .finalize _ _ => isTrue trivial
  | .finalizeAgain _ => isTrue trivial
  | .interrupt _ => isTrue trivial
  | .elsewhere _ _ => isTrue trivial

/-! ## What a handler finalises -/

namespace Handler

variable {handler : Handler} {result : Result}

/-- A handler releases when its first posting was turned down, or after a
reversal. -/
theorem of_finalizes_released (hfinalizes : handler.finalizes result = some .released) :
    (handler = .processDirect ∨ handler = .processSpecialMerchant) ∨
      handler.operation = .reverse .twoLeg ∧ result.success = true := by
  cases handler with
  | processDirect => exact .inl (.inl rfl)
  | processSpecialMerchant => exact .inl (.inr rfl)
  | settleSpecialTransaction | processDisputeReversal mode | approved =>
    simp only [finalizes] at hfinalizes
    split at hfinalizes <;> cases hfinalizes
  | reverseRejectedSpecialTransaction =>
    simp only [finalizes] at hfinalizes
    split at hfinalizes
    case isTrue haccepted =>
      rw [acceptPostingResult, Bool.and_eq_true] at haccepted
      exact .inr ⟨rfl, haccepted.1⟩
    case isFalse => cases hfinalizes
  | rejected =>
    simp only [finalizes] at hfinalizes
    split at hfinalizes
    case isTrue hsuccess => exact .inr ⟨rfl, hsuccess⟩
    case isFalse => cases hfinalizes

/-- After it has posted, a handler does not release. -/
theorem finalizes_ne_released (hsuccess : result.success = true)
    (hcode : result.statusCode = handler.operation.successCode)
    (haction : handler.operation.action = .post) : handler.finalizes result ≠ some .released := by
  cases handler with
  | processDirect =>
    simp [finalizes, acceptPostingResult, hsuccess, hcode, operation, Operation.successCode]
  | processSpecialMerchant =>
    simp [finalizes, acceptPostingResult, hsuccess, hcode, operation, Operation.successCode]
  | settleSpecialTransaction =>
    simp [finalizes, acceptPostingResult, hsuccess, hcode, operation, Operation.successCode]
  | reverseRejectedSpecialTransaction => cases haction
  | processDisputeReversal mode => cases haction
  | approved => simp [finalizes, hsuccess]
  | rejected => cases haction

/-- After a direct posting or a settlement, a handler completes. -/
theorem finalizes_completed (hsuccess : result.success = true)
    (hcode : result.statusCode = handler.operation.successCode)
    (hposts : handler.operation = .direct ∨ handler.operation = .settle) :
    handler.finalizes result = some .completed := by
  cases handler with
  | processDirect =>
    simp [finalizes, acceptPostingResult, hsuccess, hcode, operation, Operation.successCode]
  | settleSpecialTransaction =>
    simp [finalizes, acceptPostingResult, hsuccess, hcode, operation, Operation.successCode]
  | approved => simp [finalizes, hsuccess]
  | processSpecialMerchant => simp [operation] at hposts
  | reverseRejectedSpecialTransaction => simp [operation] at hposts
  | processDisputeReversal mode => simp [operation] at hposts
  | rejected => simp [operation] at hposts

end Handler

/-- A handler's call adds a release to what is given up only when it releases. -/
theorem Submission.withdrawn_answered {transactionId : ℤ} (state : Submission) {handler : Handler}
    {result : Result} {ledger : Posting.Db}
    (hwithdrawn : Withdrawn transactionId (state.answered handler result ledger)) :
    Withdrawn transactionId state ∨ handler.finalizes result = some .released := by
  rcases hwithdrawn with hstatus | hdue | hrecorded
  · exact .inl (.inl hstatus)
  · rcases List.mem_append.mp hdue with hnew | hold
    · exact .inr (Option.mem_toList.mp hnew)
    · exact .inl (.inr (.inl hold))
  · rcases List.mem_append.mp hrecorded with hnew | hold
    · refine .inr (Option.mem_toList.mp ?_)
      split at hnew
      case isTrue => exact hnew
      case isFalse => cases hnew
    · exact .inl (.inr (.inr hold))

/-! ## What every careful run keeps -/

/-- What holds between the ledger, the reservation and what is due. -/
structure Held (transactionId : ℤ) (state : Submission) (stages : Stages) : Prop where
  refines : Refines state.ledger stages
  one_mode : ∃ mode, stages transactionId mode = .fresh
  terms : ∀ mode, stages transactionId mode ≠ .fresh →
    ∃ request terms, state.ledger.requests.find? transactionId = some request ∧
      request.terms? = some terms
  idle : state.phase = .submitting ∨ state.phase = .sending → state.accepted = false
  unsent : state.accepted = false → ∀ mode, stages transactionId mode = .fresh
  status : ∀ mode, stages transactionId mode = .posted →
    requestStatus state.ledger transactionId ∈ [some 4, some 5, some 6]
  withdrawn : Withdrawn transactionId state → ∀ mode, ¬ (stages transactionId mode).Standing
  settled : ∀ mode, stages transactionId mode = .posted →
    (∀ status ∈ amlStatus state.aml transactionId, status = .completed ∨ status = .reversed) ∨
      .completed ∈ state.due

namespace Held

variable {transactionId : ℤ} {state : Submission} {stages : Stages} {handler : Handler}
  {message : Payload}

theorem opening (hstart : state.Opening transactionId) :
    Held transactionId state Stages.initial where
  refines := Refines.initial hstart.unposted
  one_mode := ⟨.direct, rfl⟩
  terms := fun _ hmoved => absurd rfl hmoved
  idle := fun _ => hstart.unsent
  unsent := fun _ _ => rfl
  status := fun _ hposted => by cases hposted
  withdrawn := fun _ _ => not_standing_fresh
  settled := fun _ hposted => by cases hposted

/-- At the end of a careful run request, reservation and ledger agree. -/
theorem consistent (hheld : Held transactionId state stages) (hfinal : state.Final) :
    state.Consistent transactionId where
  request := by
    intro hcompleted
    obtain ⟨mode, hposted⟩ := exists_posted hheld.refines hcompleted
    exact hheld.status mode hposted
  completed := by
    intro hcompleted
    obtain ⟨mode, hposted⟩ := exists_posted hheld.refines hcompleted
    refine (hheld.settled mode hposted).resolve_right ?_
    rw [hfinal.2]
    exact List.not_mem_nil
  released := by
    intro hreleased heffective
    obtain ⟨mode, hstanding⟩ := (hasEffectivePosting_iff hheld.refines).mp heffective
    exact hheld.withdrawn (.inl hreleased) mode hstanding

/-- Nothing stands when the ledger has no posting in effect. -/
theorem not_standing (hheld : Held transactionId state stages)
    (hnone : ¬ HasEffectivePosting state.ledger transactionId) (mode : Mode) :
    ¬ (stages transactionId mode).Standing :=
  fun hstanding => hnone ((hasEffectivePosting_iff hheld.refines).mpr ⟨mode, hstanding⟩)

theorem not_posted (hheld : Held transactionId state stages)
    (hnone : ¬ HasEffectivePosting state.ledger transactionId) (mode : Mode) :
    stages transactionId mode ≠ .posted := by
  intro hposted
  refine hheld.not_standing hnone mode ?_
  rw [hposted]
  exact standing_posted

/-! ### Handlers -/

/-- The other mode of an operation that the stage admits is unused. -/
theorem other_fresh (hheld : Held transactionId state stages) {operation : Operation}
    {next : Stage operation.mode}
    (hnext : (stages transactionId operation.mode).advance operation = some next)
    (hguard : operation.action = .post →
      ¬ state.ledger.PostedIn transactionId operation.mode.other) :
    stages transactionId operation.mode.other = .fresh := by
  by_cases haction : operation.action = .post
  · exact hheld.refines.fresh_of_not_postedIn (hguard haction)
  · -- What is taken back has been posted, and only one mode is in use.
    obtain ⟨mode, hfresh⟩ := hheld.one_mode
    have hmode : mode ≠ operation.mode := by
      rintro rfl
      rw [hfresh] at hnext
      rcases Stage.advance_fresh_eq_some hnext with hfirst | hfirst <;>
        simp [hfirst, Operation.action] at haction
    rw [← Mode.eq_other_of_ne hmode]
    exact hfresh

/-- A first posting that has its journal is turned down only when it was taken
back. -/
theorem not_standing_of_existing (hheld : Held transactionId state stages)
    (hfirst : handler = .processDirect ∨ handler = .processSpecialMerchant) {request : Request}
    {journal : Journal}
    (hjournal : state.ledger.findJournal transactionId handler.operation = some journal)
    (hreleased : handler.finalizes
      (state.ledger.existingResult request handler.operation journal) = some .released) :
    ¬ (stages transactionId handler.operation.mode).Standing := by
  have hstatus := hheld.refines.status transactionId handler.operation
  rw [hjournal, Option.map_some] at hstatus
  rcases hfirst with rfl | rfl
  · change some journal.status = (stages transactionId .direct).journalStatus .direct at hstatus
    show ¬ (stages transactionId .direct).Standing
    cases hstage : stages transactionId .direct with
    | fresh => exact id
    | posted =>
      rw [hstage] at hstatus
      cases hstatus' : journal.status <;> rw [hstatus'] at hstatus <;> cases hstatus
      simp [Handler.finalizes, Handler.operation, acceptPostingResult, Db.existingResult,
        existingCode, hstatus', JournalStatus.finished, Operation.action] at hreleased
    | reversed => exact id
  · change some journal.status = (stages transactionId .twoLeg).journalStatus .reserve at hstatus
    show ¬ (stages transactionId .twoLeg).Standing
    cases hstage : stages transactionId .twoLeg with
    | fresh => exact id
    | reserved | posted =>
      rw [hstage] at hstatus
      cases hstatus' : journal.status <;> rw [hstatus'] at hstatus <;> cases hstatus
      simp [Handler.finalizes, Handler.operation, acceptPostingResult, Db.existingResult,
        existingCode, hstatus', JournalStatus.finished, Operation.action] at hreleased
    | cancelled => exact id
    | reversed => exact id

/-- A transaction with a reversal journal in a mode is closed in that mode. -/
theorem closed_of_reversal (hheld : Held transactionId state stages) {mode : Mode}
    {journal : Journal}
    (hjournal : state.ledger.findJournal transactionId (.reverse mode) = some journal) :
    (stages transactionId mode).Closed := by
  have hstatus := hheld.refines.status transactionId (.reverse mode)
  rw [hjournal, Option.map_some] at hstatus
  change some journal.status = (stages transactionId mode).journalStatus (.reverse mode) at hstatus
  cases mode <;> cases hstage : stages transactionId _ <;> rw [hstage] at hstatus <;> trivial

/-- A mode in use leaves nothing standing in the other. -/
theorem not_standing_other (hheld : Held transactionId state stages) {used mode : Mode}
    (hused : stages transactionId used ≠ .fresh) (hmode : mode ≠ used) :
    ¬ (stages transactionId mode).Standing := by
  obtain ⟨unused, hfresh⟩ := hheld.one_mode
  have hunused : unused ≠ used := by
    rintro rfl
    exact hused hfresh
  rw [Mode.eq_other_of_ne hmode, ← Mode.eq_other_of_ne hunused, hfresh]
  exact not_standing_fresh

theorem not_standing_of_released (hheld : Held transactionId state stages) {result : Result}
    {ledger : Posting.Db}
    (hguard : handler.operation.action = .post →
      ¬ state.ledger.PostedIn transactionId handler.operation.mode.other)
    (hanswered : Answered state.ledger transactionId handler.operation
      (handler.call transactionId message) result ledger)
    (hunmoved : ledger.journals = state.ledger.journals)
    (hreleased : handler.finalizes result = some .released) (mode : Mode) :
    ¬ (stages transactionId mode).Standing := by
  -- A committed call has added a journal.
  have hcommitted : ∀ plan journalId entries,
      ¬ Committed state.ledger plan journalId entries ledger := by
    intro plan journalId entries hcommitted
    have hlength := congrArg List.length hcommitted.journals
    rw [hunmoved, List.length_append, List.length_map, List.length_singleton] at hlength
    omega
  rcases Handler.of_finalizes_released hreleased with hfirst | ⟨hreversal, hsuccess⟩
  · have hoperation : handler.operation = .direct ∨ handler.operation = .reserve := by
      rcases hfirst with rfl | rfl
      · exact .inl rfl
      · exact .inr rfl
    have haction : handler.operation.action = .post := by
      rcases hoperation with hop | hop <;> rw [hop] <;> rfl
    by_cases hmode : mode = handler.operation.mode
    · subst hmode
      cases hanswered with
      | unknown hnone =>
        by_contra hstanding
        have hmoved : stages transactionId handler.operation.mode ≠ .fresh := by
          intro hfresh
          rw [hfresh] at hstanding
          exact hstanding
        obtain ⟨request, _, hfound, _⟩ := hheld.terms _ hmoved
        rw [hnone] at hfound
        cases hfound
      | existing _ hjournal => exact hheld.not_standing_of_existing hfirst hjournal hreleased
      | refused _ hunposted | failed _ hunposted =>
        rw [fresh_of_unposted hheld.refines hoperation hunposted]
        exact not_standing_fresh
      | committed _ _ hcommit => exact absurd hcommit (hcommitted _ _ _)
    · rw [Mode.eq_other_of_ne hmode, hheld.refines.fresh_of_not_postedIn (hguard haction)]
      exact not_standing_fresh
  · cases hanswered with
    | unknown _ hfailure => simp [hfailure] at hsuccess
    | existing _ hjournal =>
      rw [hreversal] at hjournal
      have hclosed := hheld.closed_of_reversal hjournal
      by_cases hmode : mode = .twoLeg
      · rw [hmode]
        exact not_standing_of_closed hclosed
      · exact hheld.not_standing_other hclosed.ne_fresh hmode
    | refused _ _ hfailure => simp [hfailure] at hsuccess
    | failed _ _ hfailure => simp [hfailure] at hsuccess
    | committed _ _ hcommit => exact absurd hcommit (hcommitted _ _ _)

/-- A call that posts nothing and leaves the request of a posted transaction alone
keeps everything. -/
theorem unmoved (hheld : Held transactionId state stages) {result : Result}
    {ledger : Posting.Db} (hjournals : ledger.journals = state.ledger.journals)
    (hrequest : (∃ mode, stages transactionId mode ≠ .fresh) →
      ledger.requests.find? transactionId = state.ledger.requests.find? transactionId)
    (hreleased : handler.finalizes result = some .released →
      ∀ mode, ¬ (stages transactionId mode).Standing) :
    Held transactionId (state.answered handler result ledger) stages where
  refines := hheld.refines.congr hjournals
  one_mode := hheld.one_mode
  terms := by
    intro mode hmoved
    show ∃ request terms, ledger.requests.find? transactionId = some request ∧ _
    rw [hrequest ⟨mode, hmoved⟩]
    exact hheld.terms mode hmoved
  idle := hheld.idle
  unsent := hheld.unsent
  status := by
    intro mode hposted
    have hmoved : stages transactionId mode ≠ .fresh := by
      rw [hposted]
      exact nofun
    show requestStatus ledger transactionId ∈ _
    rw [requestStatus, hrequest ⟨mode, hmoved⟩]
    exact hheld.status mode hposted
  withdrawn := by
    intro hwithdrawn
    rcases state.withdrawn_answered hwithdrawn with hbefore | hnew
    · exact hheld.withdrawn hbefore
    · exact hreleased hnew
  settled := by
    intro mode hposted
    exact (hheld.settled mode hposted).imp_right fun hdue => List.mem_append_right _ hdue

end Held

/-- Only a direct posting and a settlement lead to a posted stage. -/
theorem operation_of_posted {mode : Mode} {stage : Stage mode} {operation : Operation}
    (hnext : stage.advance operation = some .posted) :
    operation = .direct ∨ operation = .settle := by
  rcases operation with _ | _ | _ | ⟨_ | _⟩ <;> cases mode <;> cases stage <;>
    first | exact .inl rfl | exact .inr rfl | cases hnext

theorem requestStatus_mem (operation : Operation) :
    some operation.requestStatus ∈ [some 4, some 5, some (6 : ℤ)] := by
  cases operation <;> simp [Operation.requestStatus]

/-- The handlers whose first posting starts a transaction work off the message. -/
theorem Handler.fromMessage_of_first {handler : Handler}
    (hfirst : handler.operation = .direct ∨ handler.operation = .reserve) :
    handler.fromMessage = true := by
  cases handler with
  | processDisputeReversal mode => simp [Handler.operation] at hfirst
  | _ => rfl

namespace Held

variable {transactionId : ℤ} {state : Submission} {stages : Stages} {handler : Handler}
  {message : Payload}

/-- A call that posts or reverses keeps everything, when the condition holds. -/
theorem moved {plan : Plan} (hheld : Held plan.transactionId state stages) {call : Call}
    {request : Request} {terms : Terms} {journalId : ℕ} {entries : List Entry}
    {after : Posting.Db} (hplanned : Planned state.ledger call request terms plan)
    (hcommitted : Committed state.ledger plan journalId entries after)
    (hoperation : handler.operation = plan.operation)
    (hgate : handler.fromMessage → state.accepted)
    (hguard : plan.operation.action = .post →
      ¬ state.ledger.PostedIn plan.transactionId plan.operation.mode.other ∧
        ¬ Withdrawn plan.transactionId state) :
    ∃ stages', Held plan.transactionId
      (state.answered handler (after.postedResult plan journalId) after) stages' := by
  obtain ⟨next, hnext, hrefines⟩ := hheld.refines.committed hplanned hcommitted
  have hother := hheld.other_fresh hnext fun haction => (hguard haction).1
  have hown : stages.set plan.transactionId plan.operation.mode next plan.transactionId
      plan.operation.mode = next := Stages.set_self ..
  have hrest : ∀ mode, mode ≠ plan.operation.mode →
      stages.set plan.transactionId plan.operation.mode next plan.transactionId mode = .fresh := by
    intro mode hmode
    rw [Stages.set_of_ne_mode _ _ hmode, Mode.eq_other_of_ne hmode]
    exact hother
  obtain ⟨charge, commission, _, _, hfind⟩ := hcommitted.find?_request
  have hfound : after.requests.find? plan.transactionId = some
      { request with
        transactionStatus := some plan.operation.requestStatus
        transactionFee :=
          if plan.operation.action = .post then some charge else request.transactionFee
        transactionComm :=
          if plan.operation.action = .post then some commission
          else request.transactionComm } := by
    rw [hfind, if_pos rfl, hplanned.transactionId, hplanned.found]
    rfl
  have hsent : state.accepted = true := by
    by_contra hunsent
    have hfresh := hheld.unsent (by simpa using hunsent) plan.operation.mode
    rw [hfresh] at hnext
    exact hunsent (hgate (Handler.fromMessage_of_first
      (hoperation ▸ Stage.advance_fresh_eq_some hnext)))
  refine ⟨stages.set plan.transactionId plan.operation.mode next, hrefines, ?_, ?_, ?_, ?_, ?_, ?_,
    ?_⟩
  · exact ⟨_, hrest _ plan.operation.mode.other_ne⟩
  · intro mode _
    exact ⟨_, terms, hfound, hplanned.readTerms⟩
  · exact hheld.idle
  · intro hunsent
    exact absurd (hsent.symm.trans hunsent) (by decide)
  · intro mode _
    show requestStatus after plan.transactionId ∈ _
    rw [requestStatus, hfound]
    exact requestStatus_mem plan.operation
  · intro hwithdrawn mode
    by_cases hmode : mode = plan.operation.mode
    · subst hmode
      rw [hown]
      by_cases haction : plan.operation.action = .post
      · -- A posting is made only while the reservation has not been given up.
        rcases state.withdrawn_answered hwithdrawn with hbefore | hreleased
        · exact absurd hbefore (hguard haction).2
        · refine absurd hreleased (Handler.finalizes_ne_released rfl ?_ ?_)
          · rw [hoperation]
            rfl
          · rw [hoperation]
            exact haction
      · apply not_standing_of_closed
        apply Stage.closed_of_advance hnext
        cases hreverse : plan.operation with
        | reverse mode => rfl
        | direct => simp [hreverse, Operation.action] at haction
        | reserve => simp [hreverse, Operation.action] at haction
        | settle => simp [hreverse, Operation.action] at haction
    · rw [hrest mode hmode]
      exact not_standing_fresh
  · intro mode hposted
    have hmode : mode = plan.operation.mode := by
      by_contra hmode
      rw [hrest mode hmode] at hposted
      cases hposted
    subst hmode
    rw [hown] at hposted
    rw [hposted] at hnext
    have hcompleted : handler.finalizes (after.postedResult plan journalId) = some .completed := by
      apply Handler.finalizes_completed rfl
      · rw [hoperation]
        rfl
      · rw [hoperation]
        exact operation_of_posted hnext
    exact .inr (List.mem_append_left _ (Option.mem_toList.mpr hcompleted))

/-- A handler's call keeps everything. -/
theorem deliver (hheld : Held transactionId state stages) {after : Submission}
    (hgate : handler.fromMessage → state.accepted)
    (hcareful : Careful transactionId state (.deliver handler message))
    (hdeliver : state.deliver transactionId handler message = some after) :
    ∃ stages', Held transactionId after stages' := by
  obtain ⟨⟨result, ledger⟩, hcall, rfl⟩ := Option.map_eq_some_iff.mp hdeliver
  have hanswered : Answered state.ledger transactionId handler.operation
      (handler.call transactionId message) result ledger :=
    answered_of_call (operationCall_transactionId _ _) (operation?_operationCall _ _) hcall
  have hunposted : handler.operation.action = .post →
      ¬ state.ledger.PostedIn transactionId handler.operation.mode.other :=
    fun haction => (hcareful haction).1
  -- A call that leaves the ledger as it was releases only when nothing stands.
  have hsame : ∀ ledger, ledger.journals = state.ledger.journals →
      ((∃ mode, stages transactionId mode ≠ .fresh) →
        ledger.requests.find? transactionId = state.ledger.requests.find? transactionId) →
      Answered state.ledger transactionId handler.operation (handler.call transactionId message)
        result ledger →
      ∃ stages', Held transactionId (state.answered handler result ledger) stages' := by
    intro ledger hjournals hrequest hanswered
    exact ⟨stages, hheld.unmoved hjournals hrequest
      (hheld.not_standing_of_released hunposted hanswered hjournals)⟩
  cases hanswered with
  | unknown hnone hfailure => exact hsame _ rfl (fun _ => rfl) (.unknown hnone hfailure)
  | existing hfound hjournal => exact hsame _ rfl (fun _ => rfl) (.existing hfound hjournal)
  | refused hfound hnone hfailure =>
    exact hsame _ rfl (fun _ => rfl) (.refused hfound hnone hfailure)
  | failed hfound hnone hfailure hmarks =>
    refine hsame _ (Db.failRequest_quiet _ _).journals ?_ (.failed hfound hnone hfailure hmarks)
    rintro ⟨mode, hmoved⟩
    exfalso
    -- A transaction that has been posted is not marked as failed.
    rcases hmarks with hterms | hfirst
    · obtain ⟨request, terms, hfound', hterms'⟩ := hheld.terms mode hmoved
      rw [hfound] at hfound'
      cases hfound'
      rw [hterms] at hterms'
      cases hterms'
    · have haction : handler.operation.action = .post := by
        rcases hfirst with hop | hop <;> rw [hop] <;> rfl
      by_cases hmode : mode = handler.operation.mode
      · subst hmode
        exact hmoved (fresh_of_unposted hheld.refines hfirst hnone)
      · rw [Mode.eq_other_of_ne hmode] at hmoved
        exact hmoved (hheld.refines.fresh_of_not_postedIn (hunposted haction))
  | committed hplan hplanned hcommitted htransaction hoperation =>
    subst htransaction
    refine hheld.moved hplanned hcommitted hoperation.symm hgate ?_
    intro haction
    rw [hoperation] at haction ⊢
    exact ⟨(hcareful haction).1, (hcareful haction).2 ⟨_, hplan⟩⟩

/-! ### The producer and the reservation -/

/-- Writing a status on the request keeps everything while nothing is posted. -/
theorem write (hheld : Held transactionId state stages) (status fee commission : ℤ)
    (hnone : ∀ mode, stages transactionId mode ≠ .posted) {phase : Phase}
    (hphase : phase = .submitting ∨ phase = .sending → state.accepted = false) :
    Held transactionId
      { state with
        ledger := updateRequest state.ledger transactionId status fee commission
        phase := phase } stages where
  refines := hheld.refines.congr rfl
  one_mode := hheld.one_mode
  terms := by
    intro mode hmoved
    obtain ⟨request, terms, hfound, hterms⟩ := hheld.terms mode hmoved
    refine ⟨{ request with
        transactionStatus := some status
        transactionFee := some fee
        transactionComm := some commission }, terms, ?_, hterms⟩
    show (Posting.Db.updateRequest _ _ _ _).requests.find? transactionId = _
    rw [Db.find?_updateRequest, if_pos rfl, hfound]
    rfl
  idle := hphase
  unsent := hheld.unsent
  status := fun mode hposted => absurd hposted (hnone mode)
  withdrawn := hheld.withdrawn
  settled := fun mode hposted => absurd hposted (hnone mode)

/-- A new phase with a message that is still out keeps everything. -/
theorem phase (hheld : Held transactionId state stages) {phase : Phase} {accepted : Bool}
    (hsent : accepted = false → state.accepted = false)
    (hphase : phase = .submitting ∨ phase = .sending → accepted = false) :
    Held transactionId { state with phase := phase, accepted := accepted } stages where
  refines := hheld.refines
  one_mode := hheld.one_mode
  terms := hheld.terms
  idle := hphase
  unsent := fun hunsent => hheld.unsent (hsent hunsent)
  status := hheld.status
  withdrawn := hheld.withdrawn
  settled := hheld.settled

/-- A reservation that moves on keeps everything, if it is only released when
nothing stands. -/
theorem reservation (hheld : Held transactionId state stages) {aml : Aml.Db}
    (due : List Aml.Outcome) (phase : Phase)
    (hphase : phase = .submitting ∨ phase = .sending → state.accepted = false)
    (hwithdrawn : amlStatus aml transactionId = some .released ∨ .released ∈ due →
      ∀ mode, ¬ (stages transactionId mode).Standing)
    (hsettled : ∀ mode, stages transactionId mode = .posted →
      (∀ status ∈ amlStatus aml transactionId, status = .completed ∨ status = .reversed) ∨
        .completed ∈ due) :
    Held transactionId { state with aml := aml, due := due, phase := phase } stages where
  refines := hheld.refines
  one_mode := hheld.one_mode
  terms := hheld.terms
  idle := hphase
  unsent := hheld.unsent
  status := hheld.status
  withdrawn := by
    rintro (hstatus | hdue | hrecorded)
    · exact hwithdrawn (.inl hstatus)
    · exact hwithdrawn (.inr hdue)
    · exact hheld.withdrawn (.inr (.inr hrecorded))
  settled := hsettled

/-- The error path releases the reservation while nothing stands. -/
theorem release (hheld : Held transactionId state stages) (now : Stamp)
    (hnone : ∀ mode, ¬ (stages transactionId mode).Standing) :
    Held transactionId
      { state with
        aml := (state.aml.amlFinalize now (some transactionId) .released).2
        phase := .marking } stages := by
  apply hheld.reservation state.due .marking
  · rintro (hphase | hphase) <;> cases hphase
  · exact fun _ => hnone
  · intro mode hposted
    refine absurd ?_ (hnone mode)
    rw [hposted]
    exact standing_posted

/-- A handler finalises what is due. -/
theorem finalize (hheld : Held transactionId state stages) {outcome : Aml.Outcome}
    (hdue : outcome ∈ state.due) (now : Stamp) :
    Held transactionId
      { state with
        aml := (state.aml.amlFinalize now (some transactionId) outcome).2
        due := state.due.erase outcome } stages := by
  have hstill : .released ∈ state.due.erase outcome →
      ∀ mode, ¬ (stages transactionId mode).Standing :=
    fun hmem => hheld.withdrawn (.inr (.inl (List.mem_of_mem_erase hmem)))
  have hposted : ∀ mode, stages transactionId mode = .posted →
      (stages transactionId mode).Standing := by
    intro mode hstage
    rw [hstage]
    exact standing_posted
  have hkept : outcome ≠ .completed → .completed ∈ state.due →
      .completed ∈ state.due.erase outcome :=
    fun hne hmem => (List.mem_erase_of_ne (Ne.symm hne)).mpr hmem
  apply hheld.reservation _ state.phase hheld.idle
  · rintro (hstatus | hmem)
    · cases outcome with
      | completed =>
        rw [amlStatus_completed] at hstatus
        obtain ⟨status, hbefore, hafter⟩ := Option.map_eq_some_iff.mp hstatus
        cases status <;> cases hafter
        exact hheld.withdrawn (.inl hbefore)
      | released => exact hheld.withdrawn (.inr (.inl hdue))
      | reversed =>
        rcases amlStatus_reversed state.aml now transactionId with hsame | ⟨_, hafter⟩
        · exact hheld.withdrawn (.inl (hsame ▸ hstatus))
        · rw [hafter] at hstatus
          cases hstatus
      | other =>
        rw [amlStatus_other] at hstatus
        exact hheld.withdrawn (.inl hstatus)
    · exact hstill hmem
  · intro mode hstage
    cases outcome with
    | completed =>
      refine .inl ?_
      rw [amlStatus_completed]
      rintro status hstatus
      obtain ⟨before, hbefore, rfl⟩ := Option.map_eq_some_iff.mp hstatus
      cases before with
      | pending => exact .inl rfl
      | completed => exact .inl rfl
      | released => exact absurd (hposted mode hstage) (hheld.withdrawn (.inl hbefore) mode)
      | reversed => exact .inr rfl
    | released => exact absurd (hposted mode hstage) (hheld.withdrawn (.inr (.inl hdue)) mode)
    | reversed =>
      refine (hheld.settled mode hstage).imp ?_ (hkept nofun)
      intro hall
      rcases amlStatus_reversed state.aml now transactionId with hsame | ⟨_, hafter⟩
      · rwa [hsame]
      · rw [hafter]
        rintro status hstatus
        cases hstatus
        exact .inr rfl
    | other =>
      refine (hheld.settled mode hstage).imp ?_ (hkept nofun)
      rw [amlStatus_other]
      exact id

/-- Every step that meets the condition keeps everything. -/
theorem step {event : SubmissionEvent} {after : Submission}
    (hheld : Held transactionId state stages) (hcareful : Careful transactionId state event)
    (hstep : state.step transactionId event = some after) :
    ∃ stages', Held transactionId after stages' := by
  cases event with
  | update fee commission =>
    simp only [Submission.step, Option.ite_none_right_eq_some, Option.some.injEq] at hstep
    obtain ⟨hphase, rfl⟩ := hstep
    have hunsent := hheld.idle (.inl hphase)
    refine ⟨stages, hheld.write 2 fee commission ?_ fun _ => hunsent⟩
    intro mode hposted
    rw [hheld.unsent hunsent mode] at hposted
    cases hposted
  | updateThrows =>
    simp only [Submission.step, Option.ite_none_right_eq_some, Option.some.injEq] at hstep
    obtain ⟨hphase, rfl⟩ := hstep
    exact ⟨stages, hheld.phase id fun _ => hheld.idle (.inl hphase)⟩
  | send outcome =>
    simp only [Submission.step, Option.ite_none_right_eq_some] at hstep
    obtain ⟨hphase, hsend⟩ := hstep
    have hunsent := hheld.idle (.inr hphase)
    cases outcome with
    | acknowledged | unacknowledged =>
      cases hsend
      exact ⟨stages, hheld.phase nofun (by rintro (h | h) <;> cases h)⟩
    | lost =>
      cases hsend
      exact ⟨stages, hheld.phase id fun _ => hunsent⟩
  | release now =>
    simp only [Submission.step, Option.ite_none_right_eq_some, Option.some.injEq] at hstep
    obtain ⟨_, rfl⟩ := hstep
    exact ⟨stages, hheld.release now (hheld.not_standing hcareful)⟩
  | releaseThrows | markThrows =>
    simp only [Submission.step, Option.ite_none_right_eq_some, Option.some.injEq] at hstep
    obtain ⟨_, rfl⟩ := hstep
    exact ⟨stages, hheld.phase id (by rintro (h | h) <;> cases h)⟩
  | markTransactionFailed =>
    simp only [Submission.step, Option.ite_none_right_eq_some, Option.some.injEq] at hstep
    obtain ⟨_, rfl⟩ := hstep
    exact ⟨stages, hheld.write 3 0 0 (hheld.not_posted hcareful)
      (by rintro (h | h) <;> cases h)⟩
  | deliver handler message =>
    simp only [Submission.step, Option.ite_none_right_eq_some] at hstep
    exact hheld.deliver hstep.1 hcareful hstep.2
  | finalize outcome now =>
    simp only [Submission.step, Option.ite_none_right_eq_some, Option.some.injEq] at hstep
    obtain ⟨hdue, rfl⟩ := hstep
    exact ⟨stages, hheld.finalize hdue now⟩
  | finalizeAgain outcome =>
    simp only [Submission.step, Option.ite_none_right_eq_some, Option.some.injEq] at hstep
    obtain ⟨hrecorded, rfl⟩ := hstep
    refine ⟨stages, hheld.reservation _ state.phase hheld.idle ?_ ?_⟩
    · rintro (hstatus | hmem)
      · exact hheld.withdrawn (.inl hstatus)
      · rcases List.mem_cons.mp hmem with rfl | hold
        · exact hheld.withdrawn (.inr (.inr hrecorded))
        · exact hheld.withdrawn (.inr (.inl hold))
    · exact fun mode hposted => (hheld.settled mode hposted).imp_right (List.mem_cons_of_mem _)
  | interrupt outcome =>
    simp only [Submission.step, Option.ite_none_right_eq_some, Option.some.injEq] at hstep
    obtain ⟨⟨hne, _⟩, rfl⟩ := hstep
    refine ⟨stages, hheld.reservation _ state.phase hheld.idle ?_ ?_⟩
    · rintro (hstatus | hmem)
      · exact hheld.withdrawn (.inl hstatus)
      · exact hheld.withdrawn (.inr (.inl (List.mem_of_mem_erase hmem)))
    · intro mode hposted
      exact (hheld.settled mode hposted).imp_right (List.mem_erase_of_ne (Ne.symm hne)).mpr
  | elsewhere wallets summaries =>
    cases hstep
    exact ⟨stages, hheld.refines.congr rfl, hheld.one_mode, hheld.terms, hheld.idle,
      hheld.unsent, hheld.status, hheld.withdrawn, hheld.settled⟩

end Held

/-- In every run in which the error path keeps off a posted transaction, nothing
is posted once the reservation has been given up and a transaction keeps to one
mode, request, reservation and ledger agree when everything has ended. -/
theorem consistent_of_careful {transactionId : ℤ} {start state : Submission}
    (hstart : start.Opening transactionId)
    (hrun : ReachesUnder (Submission.step transactionId) (Careful transactionId) start state)
    (hfinal : state.Final) : state.Consistent transactionId := by
  have hheld : ∃ stages, Held transactionId state stages := by
    apply hrun.preserves fun state => ∃ stages, Held transactionId state stages
    · rintro before event after ⟨stages, hheld⟩ hcareful hstep
      exact hheld.step hcareful hstep
    · exact ⟨_, Held.opening hstart⟩
  obtain ⟨stages, hheld⟩ := hheld
  exact hheld.consistent hfinal

/-! ## A send that throws after the broker has the message -/

/-- The request of 10.00 with its reservation pending. -/
def shopSubmission : Submission where
  ledger := shopDb
  aml :=
    { reservations :=
        ⟨[{ transactionId := 7, walletMsisdn := 1, walletCode := 103, keyword := "PAY",
            amount := 1000, reservedAt := Stamp.of 2026 1 1 0, amount_pos := by decide }],
          by decide⟩
      summaries := .empty
      walletCode := fun _ => some 103
      limits := fun _ _ => none }

theorem shopSubmission_opening : shopSubmission.Opening 7 where
  unposted := Db.opening_initial _ _
  submitting := rfl
  unsent := rfl
  nothing_due := rfl
  nothing_recorded := rfl
  pending := by
    intro reservation hfound
    cases hfound
    rfl

/-- A direct delivery of the request, with the completion that it owes. -/
def shopDelivery : List SubmissionEvent :=
  [.deliver .processDirect {}, .finalize .completed (Stamp.of 2026 1 1 2)]

def shopErrorPath : List SubmissionEvent :=
  [.release (Stamp.of 2026 1 1 1), .markTransactionFailed]

/-- The request is sent, is delivered and reads completed everywhere. -/
theorem consistent_of_careful_shop :
    ∃ state, shopSubmission.Opening 7 ∧
      ReachesUnder (Submission.step 7) (Careful 7) shopSubmission state ∧ state.Final ∧
      HasCompletedPosting state.ledger 7 ∧ state.Consistent 7 := by
  have hany : (runInputs (guardedStep (Submission.step 7) (Careful 7)) shopSubmission
      ([.update 0 0, .send .acknowledged] ++ shopDelivery)).any (fun state =>
        (state.phase = .submitted ∨ state.phase = .failed) ∧ state.due = [] ∧
          HasCompletedPosting state.ledger 7) := by
    decide +kernel
  obtain ⟨state, hrun, hfacts⟩ := (Option.any_eq_true _ _).mp hany
  obtain ⟨hphase, hdue, hposted⟩ := of_decide_eq_true hfacts
  have hreach := (Reaches.of_runInputs hrun).under
  exact ⟨state, shopSubmission_opening, hreach, ⟨hphase, hdue⟩, hposted,
    consistent_of_careful shopSubmission_opening hreach ⟨hphase, hdue⟩⟩

/-- After a send that throws although the broker has the message, the error path
overwrites the status of a completed posting, or releases the reservation of one
that is still to come. -/
theorem contradicted_shop :
    shopSubmission.Opening 7 ∧
      (∃ state, Reaches (Submission.step 7) shopSubmission state ∧ state.Final ∧
        HasCompletedPosting state.ledger 7 ∧ requestStatus state.ledger 7 = some 3 ∧
        ¬ state.Consistent 7) ∧
      ∃ state, Reaches (Submission.step 7) shopSubmission state ∧ state.Final ∧
        HasEffectivePosting state.ledger 7 ∧ amlStatus state.aml 7 = some .released ∧
        ¬ state.Consistent 7 := by
  refine ⟨shopSubmission_opening, ?_, ?_⟩
  · have hany : (runInputs (Submission.step 7) shopSubmission
        ([.update 0 0, .send .unacknowledged] ++ shopDelivery ++ shopErrorPath)).any (fun state =>
          (state.phase = .submitted ∨ state.phase = .failed) ∧ state.due = [] ∧
            HasCompletedPosting state.ledger 7 ∧ requestStatus state.ledger 7 = some 3) := by
      decide +kernel
    obtain ⟨state, hrun, hfacts⟩ := (Option.any_eq_true _ _).mp hany
    obtain ⟨hphase, hdue, hposted, hstatus⟩ := of_decide_eq_true hfacts
    refine ⟨state, Reaches.of_runInputs hrun, ⟨hphase, hdue⟩, hposted, hstatus, ?_⟩
    intro hconsistent
    have hwritten := hconsistent.request hposted
    rw [hstatus] at hwritten
    exact absurd hwritten (by decide)
  · have hany : (runInputs (Submission.step 7) shopSubmission
        ([.update 0 0, .send .unacknowledged] ++ shopErrorPath ++ shopDelivery)).any (fun state =>
          (state.phase = .submitted ∨ state.phase = .failed) ∧ state.due = [] ∧
            HasEffectivePosting state.ledger 7 ∧ amlStatus state.aml 7 = some .released) := by
      decide +kernel
    obtain ⟨state, hrun, hfacts⟩ := (Option.any_eq_true _ _).mp hany
    obtain ⟨hphase, hdue, hposted, hstatus⟩ := of_decide_eq_true hfacts
    exact ⟨state, Reaches.of_runInputs hrun, ⟨hphase, hdue⟩, hposted, hstatus,
      fun hconsistent => hconsistent.released hstatus hposted⟩

end Finify.Delivery
