/-
# Where a verification can be retried

A case that a failed verification leaves FAILED, or that it leaves PROCESSING without a call that
goes on, is accepted by no operation.  Everywhere else uploads, verifications and reviews that
work lead to a decision.
-/

import Finify.Kyc.Service
import Mathlib.Tactic.NormNum

namespace Finify.Kyc

open Finify.Foundations

/-! ## Decisions within reach -/

/-- A step of an upload, a verification or a review that goes well. -/
def Event.Works : Event → Prop
  | .upload _ | .storeDocument _ | .submit _ | .review _ _ _ _ | .commitReview _ => True
  | .storeResult _ _ acknowledged => acknowledged
  | _ => False

def State.DecidedAt (state : State) (caseId : ℕ) : Prop :=
  ∃ row, state.cases.find? caseId = some row ∧ row.status.Decided

/-- Steps that go well can decide the case. -/
def State.Recovers (state : State) (caseId : ℕ) : Prop :=
  ∃ finish, ReachesUnder step (fun _ event => event.Works) state finish ∧ finish.DecidedAt caseId

/-- `upload`, `verify` and `review` turn a case of this status away, and it is not decided. -/
def CaseStatus.Stalled (status : CaseStatus) : Prop := status = .processing ∨ status = .failed

instance (status : CaseStatus) : Decidable status.Stalled := inferInstanceAs (Decidable (_ ∨ _))

theorem CaseStatus.Stalled.turnedAway {status : CaseStatus} (hstalled : status.Stalled) :
    ¬ status.TakesDocuments ∧ ¬ status.AwaitsReview ∧ ¬ status.Decided := by
  revert hstalled
  cases status <;> decide

/-- A verification of the case is between its transactions. -/
def State.Carried (state : State) (caseId : ℕ) : Prop :=
  ∃ call ∈ state.verifications, call.caseId = caseId ∧ call.stage = .submitted

instance (state : State) (caseId : ℕ) : Decidable (state.Carried caseId) :=
  inferInstanceAs (Decidable (∃ call ∈ state.verifications, _))

/-- Every case that no operation accepts is with a verification that goes on. -/
def State.Hopeful (state : State) : Prop :=
  ∀ caseId row, state.cases.find? caseId = some row → row.status.Stalled → state.Carried caseId

/-- No case is linked to a journey. -/
def State.Unlinked (state : State) : Prop := state.links.rows = []

/-- No case is there yet. -/
structure Opening (state : State) : Prop where
  cases : state.cases.rows = []
  unlinked : state.Unlinked
  reviews : state.reviews = []

/-- Beside this verification another one of the case is between its transactions. -/
def State.CarriedBeside (state : State) (call : Verification) : Prop :=
  ∃ other ∈ state.verifications.erase call, other.caseId = call.caseId ∧ other.stage = .submitted

instance (state : State) (call : Verification) : Decidable (state.CarriedBeside call) :=
  inferInstanceAs (Decidable (∃ other ∈ state.verifications.erase call, _))

/-- A verification of a case that is not carried by another one records no failure, and goes on
while the case is with it. -/
def KeepsHope (state : State) : Event → Prop
  | .recordFailure call => ∀ row ∈ state.cases.find? call.caseId, state.CarriedBeside call
  | .breakOff call | .abandon call =>
    ∀ row ∈ state.cases.find? call.caseId, row.status.Stalled → state.CarriedBeside call
  | _ => True

instance (state : State) : (event : Event) → Decidable (KeepsHope state event)
  | .recordFailure _ | .breakOff _ | .abandon _ =>
    inferInstanceAs (Decidable (∀ row ∈ (_ : Option Case), _))
  | .create _ _ _ _ | .upload _ | .storeDocument _ | .dropUpload _ | .submit _ | .failSubmit _
  | .storeResult _ _ _ | .noteFailure _ | .review _ _ _ _ | .commitReview _
  | .abandonReview _ => .isTrue trivial

/-! ## From every other state -/

theorem State.Recovers.of_run {state next : State} {caseId : ℕ}
    (hrun : ReachesUnder step (fun _ event => event.Works) state next)
    (hrecovers : next.Recovers caseId) : state.Recovers caseId := by
  obtain ⟨finish, hrest, hdecided⟩ := hrecovers
  exact ⟨finish, hrun.trans hrest, hdecided⟩

theorem State.Recovers.of_step {state next : State} {caseId : ℕ} {event : Event}
    (hstep : step state event = some next) (hworks : event.Works)
    (hrecovers : next.Recovers caseId) : state.Recovers caseId :=
  .of_run (.single ⟨event, hworks, hstep⟩) hrecovers

theorem State.Recovers.of_decided {state : State} {caseId : ℕ} (hdecided : state.DecidedAt caseId) :
    state.Recovers caseId :=
  ⟨state, .refl, hdecided⟩

/-- Without links a decision has no journey to advance. -/
theorem propagate_unlinked {state : State} (hunlinked : state.Unlinked) (caseId : ℕ)
    (status : CaseStatus) (actor : String) (now : ℤ) :
    propagateKycDecision state.links state.journeys caseId status actor now =
      .ok state.journeys := by
  unfold propagateKycDecision
  rw [hunlinked]
  rfl

/-- A review that is under way commits. -/
theorem commit_unlinked (state : State) (hunlinked : state.Unlinked) {review : Review}
    (hreview : review ∈ state.reviews) {row : Case}
    (hrow : state.cases.find? review.caseId = some row) :
    ∃ next, step state (.commitReview review) = some next ∧
      next.cases.find? review.caseId =
        some (row.reviewed review.action review.actor review.now) ∧
      next.reviews = state.reviews.erase review ∧ next.links = state.links := by
  refine ⟨{ (state.decide review row.customerMsisdn).endReview review with
    journeys := state.journeys }, ?_, Table.find?_modify_of_find? hrow
      (Case.reviewed review.action review.actor review.now) (Case.reviewed_id _ _ _), rfl, rfl⟩
  simp only [step, State.commitReview, if_pos hreview, hrow, propagate_unlinked hunlinked]

/-- A case that awaits its review, with no review under way, is rejected by somebody else than
its creator. -/
theorem recovers_of_awaited {state : State} (hunlinked : state.Unlinked) {caseId : ℕ} {row : Case}
    (hrow : state.cases.find? caseId = some row) (hawaits : row.status.AwaitsReview)
    (hunlocked : state.Unlocked caseId) : state.Recovers caseId := by
  obtain ⟨actor, hactor⟩ : ∃ actor : String, row.createdBy ≠ actor := by
    by_cases hsame : row.createdBy = "reviewer"
    case pos => exact ⟨"checker", by simp [hsame]⟩
    case neg => exact ⟨"reviewer", hsame⟩
  have hreviewable : State.Reviewable row .reject actor := ⟨hawaits, by simp, hactor⟩
  let review : Review :=
    { caseId := caseId
      action := .reject
      actor := actor
      approvedCaseId :=
        approvedCase (state.decidedCases caseId .reject actor 0).rows row.customerMsisdn
      now := 0 }
  have hreview : step state (.review caseId .reject actor 0) =
      some { state with reviews := state.reviews ++ [review] } := by
    simp only [step, State.review, hrow, if_pos (And.intro hreviewable hunlocked), review]
  obtain ⟨next, hcommit, hdecided, _⟩ := commit_unlinked
    { state with reviews := state.reviews ++ [review] } hunlinked
    (List.mem_append_right _ (List.mem_singleton_self review)) hrow
  apply State.Recovers.of_step hreview trivial
  apply State.Recovers.of_step hcommit trivial
  exact .of_decided ⟨_, hdecided, .inr rfl⟩

/-- A case that is with a verification gets its result and then its review. -/
theorem recovers_of_carried {state : State} (hunlinked : state.Unlinked) {caseId : ℕ} {row : Case}
    (hrow : state.cases.find? caseId = some row) (hcarried : state.Carried caseId)
    (hunlocked : state.Unlocked caseId) : state.Recovers caseId := by
  obtain ⟨call, hcall, rfl, hstage⟩ := hcarried
  let result : OcrResult := { score := 0, screening := .clear }
  have hstorable : result.Storable := by
    constructor <;> norm_num [result]
  have hstep : step state (.storeResult call result true) = some { state with
      cases := state.cases.modify call.caseId (Case.verified result) (Case.verified_id _)
      attempts := state.updateAttempt call .completed
      verifications := state.verifications.erase call ++ [] } := by
    simp only [step, State.storeResult, if_true,
      if_pos (And.intro hcall (And.intro hstage (And.intro hunlocked hstorable)))]
  apply State.Recovers.of_step hstep rfl
  exact recovers_of_awaited (by exact hunlinked)
    (Table.find?_modify_of_find? hrow (Case.verified result) (Case.verified_id _)) (.inr rfl)
    (by exact hunlocked)

/-- A case that takes documents can be given one of any role. -/
theorem exists_document {state : State} {caseId : ℕ} {row : Case}
    (hrow : state.cases.find? caseId = some row) (htakes : row.status.TakesDocuments)
    (role : DocumentRole) :
    ∃ next, ReachesUnder step (fun _ event => event.Works) state next ∧
      next.cases = state.cases ∧ next.links = state.links ∧ next.reviews = state.reviews ∧
      next.HasDocument caseId role ∧
      ∀ other, state.HasDocument caseId other → next.HasDocument caseId other := by
  by_cases hhas : state.HasDocument caseId role
  case pos => exact ⟨state, .refl, rfl, rfl, rfl, hhas, fun _ hother => hother⟩
  case neg =>
    let document : StoredDocument := { caseId := caseId, role := role, sha256 := "" }
    let middle : State := { state with uploads := state.uploads ++ [{ document := document }] }
    let next : State := { middle with
      documents := state.documents ++ [document]
      uploads := middle.uploads.erase { document := document } }
    have hnew : document ∉ state.documents := fun hmem => hhas ⟨document, hmem, rfl, rfl⟩
    have hupload : step state (.upload document) = some middle := by
      simp only [step, State.upload, document, middle, hrow, if_pos htakes]
    have hstore : step middle (.storeDocument { document := document }) = some next := by
      have hmem : ({ document := document } : Upload) ∈ middle.uploads :=
        List.mem_append_right _ (List.mem_singleton_self _)
      exact if_pos ⟨hmem, hnew⟩
    have hrun : ReachesUnder step (fun _ event => event.Works) state next :=
      .tail (.single ⟨.upload document, trivial, hupload⟩)
        ⟨.storeDocument { document := document }, trivial, hstore⟩
    refine ⟨next, hrun, rfl, rfl, rfl,
      ⟨document, List.mem_append_right _ (List.mem_singleton_self _), rfl, rfl⟩, ?_⟩
    intro other hother
    obtain ⟨stored, hstored, hfacts⟩ := hother
    exact ⟨stored, List.mem_append_left _ hstored, hfacts⟩

/-- A case that takes documents gets those it needs, and is then verified. -/
theorem recovers_of_takesDocuments {state : State} (hunlinked : state.Unlinked) {caseId : ℕ}
    {row : Case} (hrow : state.cases.find? caseId = some row) (htakes : row.status.TakesDocuments)
    (hunlocked : state.Unlocked caseId) : state.Recovers caseId := by
  obtain ⟨first, hfront, hcases, hlinks, hreviews, hhasFront, _⟩ :=
    exists_document hrow htakes row.documentType.frontRole
  obtain ⟨second, hselfie, hcases', hlinks', hreviews', hhasSelfie, hkept⟩ :=
    exists_document (hcases ▸ hrow) htakes .selfie
  have hfound : second.cases.find? caseId = some row := by
    rw [hcases', hcases, hrow]
  have hunlocked' : second.Unlocked caseId := by
    intro review hreview
    rw [hreviews', hreviews] at hreview
    exact hunlocked review hreview
  have hunlinked' : second.Unlinked := by
    rw [State.Unlinked, hlinks', hlinks, hunlinked]
  have hsubmit : step second (.submit caseId) = some { second with
      cases := second.cases.modify caseId (Case.inStatus .processing) (Case.inStatus_id _)
      attempts := second.attempts ++ [{ caseId := caseId, number := second.nextAttempt caseId }]
      verifications := second.verifications ++
        [{ caseId := caseId, number := second.nextAttempt caseId }] } :=
    if_pos ⟨row, hfound, htakes, hkept _ hhasFront, hhasSelfie, hunlocked'⟩
  apply State.Recovers.of_run (hfront.trans hselfie)
  apply State.Recovers.of_step hsubmit trivial
  exact recovers_of_carried (by exact hunlinked')
    (Table.find?_modify_of_find? hfound (Case.inStatus .processing) (Case.inStatus_id _))
    ⟨_, List.mem_append_right _ (List.mem_singleton_self _), rfl, rfl⟩ (by exact hunlocked')

/-- Every case recovers unless it stalls with no verification that goes on. -/
theorem recovers_of_hopeful {state : State} (hunlinked : state.Unlinked)
    (hlocks : state.LocksHold) {caseId : ℕ} {row : Case}
    (hrow : state.cases.find? caseId = some row)
    (hhope : row.status.Stalled → state.Carried caseId) : state.Recovers caseId := by
  by_cases hunlocked : state.Unlocked caseId
  case pos =>
    cases hstatus : row.status with
    | draft => exact recovers_of_takesDocuments hunlinked hrow (.inl hstatus) hunlocked
    | resubmissionRequired =>
      exact recovers_of_takesDocuments hunlinked hrow (.inr hstatus) hunlocked
    | submitted => exact recovers_of_awaited hunlinked hrow (.inl hstatus) hunlocked
    | manualReview => exact recovers_of_awaited hunlinked hrow (.inr hstatus) hunlocked
    | processing => exact recovers_of_carried hunlinked hrow (hhope (.inl hstatus)) hunlocked
    | failed => exact recovers_of_carried hunlinked hrow (hhope (.inr hstatus)) hunlocked
    | approved => exact .of_decided ⟨row, hrow, .inl hstatus⟩
    | rejected => exact .of_decided ⟨row, hrow, .inr hstatus⟩
  case neg =>
    simp only [State.Unlocked, not_forall, not_not] at hunlocked
    obtain ⟨review, hreview, rfl⟩ := hunlocked
    obtain ⟨next, hcommit, hdecided, hreviews, hlinks⟩ :=
      commit_unlinked state hunlinked hreview hrow
    apply State.Recovers.of_step hcommit trivial
    cases haction : review.action with
    | approve =>
      rw [haction] at hdecided
      exact .of_decided ⟨_, hdecided, .inl rfl⟩
    | reject =>
      rw [haction] at hdecided
      exact .of_decided ⟨_, hdecided, .inr rfl⟩
    | requestResubmission =>
      rw [haction] at hdecided
      have hunlocked' : next.Unlocked review.caseId := by
        intro other hother
        rw [hreviews] at hother
        exact hlocks.others_ne hreview other hother
      have hunlinked' : next.Unlinked := by
        rw [State.Unlinked, hlinks, hunlinked]
      exact recovers_of_takesDocuments hunlinked' hdecided (.inr rfl) hunlocked'

/-! ## Hope is kept -/

section

variable {before after : State} {caseId : ℕ}

/-- A verification that ends or comes to its `catch` leaves those of other cases. -/
theorem State.Carried.beside (hcarried : before.Carried caseId) {call : Verification}
    (hother : caseId ≠ call.caseId ∨ call.stage ≠ .submitted)
    (hkept : ∀ other ∈ before.verifications.erase call, other ∈ after.verifications) :
    after.Carried caseId := by
  obtain ⟨other, hmem, rfl, hstage⟩ := hcarried
  have hne : other ≠ call := by
    rintro rfl
    rcases hother with hcase | hcall
    · exact hcase rfl
    · exact hcall hstage
  exact ⟨other, hkept other ((List.mem_erase_of_ne hne).mpr hmem), rfl, hstage⟩

theorem State.CarriedBeside.carried {call : Verification} (hbeside : before.CarriedBeside call)
    (hkept : ∀ other ∈ before.verifications.erase call, other ∈ after.verifications) :
    after.Carried call.caseId := by
  obtain ⟨other, hmem, hcase, hstage⟩ := hbeside
  exact ⟨other, hkept other hmem, hcase, hstage⟩

/-- Steps that leave the cases and the calls between transactions. -/
theorem State.Hopeful.of_same (hhopeful : before.Hopeful) (hcases : after.cases = before.cases)
    (hkept : ∀ call ∈ before.verifications, call ∈ after.verifications) : after.Hopeful := by
  intro caseId row hrow hstalled
  rw [hcases] at hrow
  obtain ⟨call, hcall, hfacts⟩ := hhopeful caseId row hrow hstalled
  exact ⟨call, hkept call hcall, hfacts⟩

/-- Steps that write one case, and take at most a verification of it. -/
theorem State.Hopeful.of_written (hhopeful : before.Hopeful) (written : ℕ)
    (hcases : ∀ other, other ≠ written → after.cases.find? other = before.cases.find? other)
    (hothers : ∀ other, other ≠ written → before.Carried other → after.Carried other)
    (hwritten : ∀ row, after.cases.find? written = some row → row.status.Stalled →
      after.Carried written) : after.Hopeful := by
  intro caseId row hrow hstalled
  by_cases hsame : caseId = written
  case pos =>
    subst hsame
    exact hwritten row hrow hstalled
  case neg =>
    rw [hcases caseId hsame] at hrow
    exact hothers caseId hsame (hhopeful caseId row hrow hstalled)

/-- A row that was rewritten was there before. -/
theorem find?_rewritten {table : Table Case.id} (change : Case → Case)
    (hkey : ∀ row, (change row).id = row.id) {row : Case}
    (hrow : (table.modify caseId change hkey).find? caseId = some row) :
    ∃ old, table.find? caseId = some old ∧ change old = row := by
  rw [Table.find?_modify_self] at hrow
  exact Option.map_eq_some_iff.mp hrow

/-- Every step that the condition admits keeps the hope for every case. -/
theorem State.Hopeful.step (hhopeful : before.Hopeful) {event : Event}
    (hkeeps : KeepsHope before event) (hstep : step before event = some after) :
    after.Hopeful := by
  cases step_cases hstep with
  | @create id _ _ _ _ table _ hinsert =>
    apply hhopeful.of_written id
    · intro other hne
      exact (Table.find?_of_insert? hinsert other).trans (if_neg hne)
    · intro other _ hcarried
      exact hcarried
    · intro row hrow hstalled
      rw [(Table.find?_of_insert? hinsert id).trans (if_pos rfl)] at hrow
      cases hrow
      rcases hstalled with hstatus | hstatus <;> cases hstatus
  | @submit written =>
    apply hhopeful.of_written written
    · intro other hne
      exact Table.find?_modify_of_ne _ hne (Case.inStatus .processing) (Case.inStatus_id _)
    · intro other _ hcarried
      obtain ⟨call, hcall, hfacts⟩ := hcarried
      exact ⟨call, List.mem_append_left _ hcall, hfacts⟩
    · intro _ _ _
      exact ⟨_, List.mem_append_right _ (List.mem_singleton_self _), rfl, rfl⟩
  | failSubmit => exact hhopeful.of_same rfl fun _ hcall => List.mem_append_left _ hcall
  | @storeResult call result =>
    apply hhopeful.of_written call.caseId
    · intro other hne
      exact Table.find?_modify_of_ne _ hne (Case.verified result) (Case.verified_id _)
    · intro other hne hcarried
      exact hcarried.beside (.inl hne) fun _ hmem => List.mem_append_left _ hmem
    · intro row hrow hstalled
      obtain ⟨old, _, rfl⟩ := find?_rewritten (Case.verified result) (Case.verified_id _) hrow
      rcases hstalled with hstatus | hstatus <;> cases hstatus
  | @breakOff call =>
    apply hhopeful.of_written call.caseId
    · exact fun _ _ => rfl
    · intro other hne hcarried
      exact hcarried.beside (.inl hne) fun _ hmem => List.mem_append_left _ hmem
    · intro row hrow hstalled
      exact (hkeeps row hrow hstalled).carried fun _ hmem => List.mem_append_left _ hmem
  | @noteFailure call _ hstage =>
    intro caseId row hrow hstalled
    have hcaught : call.stage ≠ .submitted := by
      simp [hstage]
    exact (hhopeful caseId row hrow hstalled).beside (.inr hcaught)
      fun _ hmem => List.mem_append_left _ hmem
  | @recordFailure call =>
    apply hhopeful.of_written call.caseId
    · intro other hne
      exact Table.find?_modify_of_ne _ hne (Case.inStatus .failed) (Case.inStatus_id _)
    · intro other hne hcarried
      exact hcarried.beside (.inl hne) fun _ hmem => hmem
    · intro row hrow _
      obtain ⟨old, hold, _⟩ := find?_rewritten (Case.inStatus .failed) (Case.inStatus_id _) hrow
      exact (hkeeps old hold).carried fun _ hmem => hmem
  | @abandon call =>
    apply hhopeful.of_written call.caseId
    · exact fun _ _ => rfl
    · intro other hne hcarried
      exact hcarried.beside (.inl hne) fun _ hmem => hmem
    · intro row hrow hstalled
      exact (hkeeps row hrow hstalled).carried fun _ hmem => hmem
  | @commitReview review =>
    apply hhopeful.of_written review.caseId
    · intro other hne
      exact Table.find?_modify_of_ne _ hne
        (Case.reviewed review.action review.actor review.now) (Case.reviewed_id _ _ _)
    · intro other _ hcarried
      exact hcarried
    · intro row hrow hstalled
      obtain ⟨old, _, rfl⟩ := find?_rewritten
        (Case.reviewed review.action review.actor review.now) (Case.reviewed_id _ _ _) hrow
      cases haction : review.action <;> rcases hstalled with hstatus | hstatus <;>
        simp [Case.reviewed, haction, ReviewAction.status] at hstatus
  | file | review | endReview => exact hhopeful.of_same rfl fun _ hcall => hcall

theorem State.Unlinked.step (hunlinked : before.Unlinked) {event : Event}
    (hstep : step before event = some after) : after.Unlinked := by
  have hlinks : after.links = before.links := links_step hstep
  rw [State.Unlinked, hlinks, hunlinked]

/-! ## Without hope -/

/-- The case stalls, and no call goes on with it. -/
structure State.Doomed (state : State) (caseId : ℕ) : Prop where
  stalled : ∃ row, state.cases.find? caseId = some row ∧ row.status.Stalled
  left : ¬ state.Carried caseId
  unlocked : state.Unlocked caseId

/-- Steps that neither write the case nor begin with it. -/
theorem State.Doomed.of_same (hdoomed : before.Doomed caseId)
    (hcase : after.cases.find? caseId = before.cases.find? caseId)
    (hcalls : ∀ call ∈ after.verifications, call.caseId = caseId → call.stage = .submitted →
      call ∈ before.verifications)
    (hreviews : ∀ review ∈ after.reviews, review.caseId = caseId → review ∈ before.reviews) :
    after.Doomed caseId where
  stalled := hcase ▸ hdoomed.stalled
  left := by
    rintro ⟨call, hcall, hsame, hstage⟩
    exact hdoomed.left ⟨call, hcalls call hcall hsame hstage, hsame, hstage⟩
  unlocked := by
    intro review hreview hsame
    exact hdoomed.unlocked review (hreviews review hreview hsame) hsame

/-- No step of the service leads out. -/
theorem State.Doomed.step (hdoomed : before.Doomed caseId) {event : Event}
    (hstep : step before event = some after) : after.Doomed caseId := by
  obtain ⟨row, hrow, hstalled⟩ := hdoomed.stalled
  cases step_cases hstep with
  | @create id _ _ _ _ table _ hinsert =>
    have hne : caseId ≠ id := by
      rintro rfl
      rw [(Table.insert?_eq_some hinsert).1] at hrow
      cases hrow
    exact hdoomed.of_same ((Table.find?_of_insert? hinsert caseId).trans (if_neg hne))
      (fun _ hcall _ _ => hcall) fun _ hreview _ => hreview
  | @submit written _ hready =>
    obtain ⟨old, hold, htakes, _⟩ := hready
    have hne : caseId ≠ written := by
      rintro rfl
      rw [hrow] at hold
      cases hold
      exact hstalled.turnedAway.1 htakes
    refine hdoomed.of_same (Table.find?_modify_of_ne _ hne (Case.inStatus .processing)
      (Case.inStatus_id _)) ?_ fun _ hreview _ => hreview
    intro call hcall hsame _
    rcases List.mem_append.mp hcall with hold | hnew
    · exact hold
    · rw [List.mem_singleton.mp hnew] at hsame
      exact absurd hsame.symm hne
  | failSubmit =>
    refine hdoomed.of_same rfl ?_ fun _ hreview _ => hreview
    intro call hcall _ hstage
    rcases List.mem_append.mp hcall with hold | hnew
    · exact hold
    · rw [List.mem_singleton.mp hnew] at hstage
      cases hstage
  | @storeResult call result acknowledged _ hcall hstage =>
    have hne : caseId ≠ call.caseId := by
      rintro rfl
      exact hdoomed.left ⟨call, hcall, rfl, hstage⟩
    refine hdoomed.of_same (Table.find?_modify_of_ne _ hne (Case.verified result)
      (Case.verified_id _)) ?_ fun _ hreview _ => hreview
    intro other hother hsame _
    rcases List.mem_append.mp hother with hold | hnew
    · exact List.mem_of_mem_erase hold
    · cases acknowledged with
      | true => cases hnew
      | false =>
        rw [List.mem_singleton.mp hnew] at hsame
        exact absurd hsame.symm hne
  | breakOff | noteFailure =>
    refine hdoomed.of_same rfl ?_ fun _ hreview _ => hreview
    intro other hother _ hstage
    rcases List.mem_append.mp hother with hold | hnew
    · exact List.mem_of_mem_erase hold
    · rw [List.mem_singleton.mp hnew] at hstage
      cases hstage
  | @recordFailure call =>
    constructor
    · by_cases hsame : caseId = call.caseId
      case pos =>
        exact ⟨row.inStatus .failed, hsame ▸ Table.find?_modify_of_find? (hsame ▸ hrow)
          (Case.inStatus .failed) (Case.inStatus_id _), .inr rfl⟩
      case neg =>
        exact ⟨row, (Table.find?_modify_of_ne _ hsame (Case.inStatus .failed)
          (Case.inStatus_id _)).trans hrow, hstalled⟩
    · rintro ⟨other, hother, hsame, hstage⟩
      exact hdoomed.left ⟨other, List.mem_of_mem_erase hother, hsame, hstage⟩
    · exact hdoomed.unlocked
  | abandon =>
    exact hdoomed.of_same rfl (fun _ hcall _ _ => List.mem_of_mem_erase hcall)
      fun _ hreview _ => hreview
  | review hold hreviewable =>
    refine hdoomed.of_same rfl (fun _ hcall _ _ => hcall) ?_
    intro review hreview hsame
    rcases List.mem_append.mp hreview with hbefore | hnew
    · exact hbefore
    · rw [List.mem_singleton.mp hnew] at hsame
      rw [← hsame, hold] at hrow
      cases hrow
      exact absurd hreviewable.1 hstalled.turnedAway.2.1
  | endReview =>
    exact hdoomed.of_same rfl (fun _ hcall _ _ => hcall)
      fun _ hmem _ => List.mem_of_mem_erase hmem
  | @commitReview review _ _ hreview =>
    have hne : caseId ≠ review.caseId := (hdoomed.unlocked review hreview).symm
    exact hdoomed.of_same (Table.find?_modify_of_ne _ hne
        (Case.reviewed review.action review.actor review.now) (Case.reviewed_id _ _ _))
      (fun _ hcall _ _ => hcall) fun _ hmem _ => List.mem_of_mem_erase hmem
  | file => exact hdoomed.of_same rfl (fun _ hcall _ _ => hcall) fun _ hreview _ => hreview

/-- So the case is never decided. -/
theorem State.Doomed.not_decidedAt {state finish : State} (hdoomed : state.Doomed caseId)
    (hrun : Reaches Kyc.step state finish) : ¬ finish.DecidedAt caseId := by
  have hfinish : finish.Doomed caseId :=
    hrun.preserves (fun state => state.Doomed caseId)
      (fun _ _ _ hbefore hstep => hbefore.step hstep) hdoomed
  obtain ⟨row, hrow, hstalled⟩ := hfinish.stalled
  rintro ⟨other, hother, hdecided⟩
  rw [hrow] at hother
  cases hother
  exact hstalled.turnedAway.2.2 hdecided

theorem State.Doomed.not_recovers {state : State} (hdoomed : state.Doomed caseId) :
    ¬ state.Recovers caseId := by
  rintro ⟨finish, hrun, hdecided⟩
  exact hdoomed.not_decidedAt hrun.reaches hdecided

/-- A step that the condition turns away ends the hope for a case. -/
theorem doomed_of_not_keepsHope {event : Event} (hlocks : before.LocksHold)
    (hbreaks : ¬ KeepsHope before event) (hstep : step before event = some after) :
    ∃ row ∈ after.cases.rows, after.Doomed row.id := by
  have hunlocked : ∀ row, before.cases.find? row.id = some row → row.status.Stalled →
      before.Unlocked row.id := by
    intro row hrow hstalled review hreview hsame
    obtain ⟨found, hfound, hawaits⟩ := hlocks.awaited review hreview
    rw [hsame, hrow] at hfound
    cases hfound
    exact hstalled.turnedAway.2.1 hawaits
  cases event with
  | recordFailure call =>
    simp only [KeepsHope, not_forall] at hbreaks
    obtain ⟨row, hrow, hleft⟩ := hbreaks
    obtain ⟨⟨_, _, hfree⟩, hafter⟩ := Option.ite_none_right_eq_some.mp hstep
    cases hafter
    have hid : row.id = call.caseId := (Table.find?_eq_some.mp hrow).2
    have hafter := Table.find?_modify_of_find? hrow (Case.inStatus .failed) (Case.inStatus_id _)
    refine ⟨row.inStatus .failed, (Table.find?_eq_some.mp hafter).1, ?_⟩
    change State.Doomed _ row.id
    rw [hid]
    exact ⟨⟨_, hafter, .inr rfl⟩, hleft, hfree⟩
  | breakOff call =>
    simp only [KeepsHope, not_forall] at hbreaks
    obtain ⟨row, hrow, hstalled, hleft⟩ := hbreaks
    obtain ⟨_, hafter⟩ := Option.ite_none_right_eq_some.mp hstep
    cases hafter
    obtain ⟨hmem, hid⟩ := Table.find?_eq_some.mp hrow
    refine ⟨row, hmem, ⟨row, Table.find?_key hmem, hstalled⟩, ?_,
      hunlocked row (Table.find?_key hmem) hstalled⟩
    rintro ⟨other, hother, hsame, hstage⟩
    rcases List.mem_append.mp hother with hold | hnew
    · exact hleft ⟨other, hold, hsame.trans hid, hstage⟩
    · rw [List.mem_singleton.mp hnew] at hstage
      cases hstage
  | abandon call =>
    simp only [KeepsHope, not_forall] at hbreaks
    obtain ⟨row, hrow, hstalled, hleft⟩ := hbreaks
    obtain ⟨_, hafter⟩ := Option.ite_none_right_eq_some.mp hstep
    cases hafter
    obtain ⟨hmem, hid⟩ := Table.find?_eq_some.mp hrow
    refine ⟨row, hmem, ⟨row, Table.find?_key hmem, hstalled⟩, ?_,
      hunlocked row (Table.find?_key hmem) hstalled⟩
    rintro ⟨other, hother, hsame, hstage⟩
    exact hleft ⟨other, hother, hsame.trans hid, hstage⟩
  | _ => exact absurd trivial hbreaks

end

/-! ## Runs -/

/-- What every run from an opening state keeps. -/
theorem Opening.kept {start state : State} (hopening : Opening start)
    (hrun : Reaches step start state) : state.LocksHold ∧ state.Unlinked := by
  have hlocks : start.LocksHold := by
    constructor
    · intro review hreview
      rw [hopening.reviews] at hreview
      cases hreview
    · rw [hopening.reviews]
      exact List.nodup_nil
  exact hrun.preserves (fun state => state.LocksHold ∧ state.Unlinked)
    (fun _ _ _ hbefore hstep => ⟨hbefore.1.step hstep, hbefore.2.step hstep⟩)
    ⟨hlocks, hopening.unlinked⟩

/-- While no verification of a case fails or stops between its first transaction and its second,
every case can still be decided; and the first that does ends this. -/
theorem cases_recover {start : State} (hopening : Opening start) :
    (∀ state, ReachesUnder step KeepsHope start state →
      ∀ row ∈ state.cases.rows, state.Recovers row.id) ∧
    ∀ before event after, Reaches step start before → step before event = some after →
      ¬ KeepsHope before event → ∃ row ∈ after.cases.rows, ¬ after.Recovers row.id := by
  constructor
  · intro state hrun row hmem
    have hopened : start.Hopeful := by
      intro caseId row hrow
      rw [Table.find?, hopening.cases] at hrow
      cases hrow
    have hhopeful : state.Hopeful :=
      hrun.preserves State.Hopeful (fun _ _ _ hbefore hkeeps hstep => hbefore.step hkeeps hstep)
        hopened
    obtain ⟨hlocks, hunlinked⟩ := hopening.kept hrun.reaches
    have hrow := Table.find?_key hmem
    exact recovers_of_hopeful hunlinked hlocks hrow (hhopeful row.id row hrow)
  · intro before event after hrun hstep hbreaks
    obtain ⟨row, hmem, hdoomed⟩ :=
      doomed_of_not_keepsHope (hopening.kept hrun).1 hbreaks hstep
    exact ⟨row, hmem, hdoomed.not_recovers⟩

/-- A customer without a case. -/
def oneCustomer : State where
  cases := .empty
  profiles := .single { msisdn := 7, kycStatus := 0 }
  requests := .empty
  links := .empty
  journeys :=
    { versions := .empty
      instances := .empty
      customers := .empty }

theorem oneCustomer_opening : Opening oneCustomer where
  cases := rfl
  unlinked := rfl
  reviews := rfl

/-- The way of a case to its verification. -/
def untilSubmitted : List Event :=
  [.create 1 { customerMsisdn := 7, documentType := .passport } "operator" 0,
    .upload { caseId := 1, role := .passport, sha256 := "front" },
    .storeDocument { document := { caseId := 1, role := .passport, sha256 := "front" } },
    .upload { caseId := 1, role := .selfie, sha256 := "selfie" },
    .storeDocument { document := { caseId := 1, role := .selfie, sha256 := "selfie" } },
    .submit 1]

/-- A case that is being verified can be decided. -/
theorem cases_recover_submitted : ∃ state, ReachesUnder step KeepsHope oneCustomer state ∧
    ∃ row ∈ state.cases.rows, row.status = .processing ∧ state.Recovers row.id := by
  have hany : (runInputs (guardedStep step KeepsHope) oneCustomer untilSubmitted).any
      (fun state => decide (∃ row ∈ state.cases.rows, row.status = .processing)) := by
    decide
  obtain ⟨state, hrun, hfacts⟩ := (Option.any_eq_true _ _).mp hany
  obtain ⟨row, hmem, hstatus⟩ := of_decide_eq_true hfacts
  have hreaches := (Reaches.of_runInputs hrun).under
  exact ⟨state, hreaches, row, hmem, hstatus,
    (cases_recover oneCustomer_opening).1 state hreaches row hmem⟩

/-- When the OCR service fails once, the case is never decided. -/
theorem failed_case_never_recovers : Opening oneCustomer ∧ ∃ state,
    Reaches step oneCustomer state ∧ ∃ row ∈ state.cases.rows, row.status = .failed ∧
      ¬ row.status.Decided ∧ ¬ state.Recovers row.id := by
  have hany : (runInputs step oneCustomer (untilSubmitted ++
      [.breakOff { caseId := 1, number := 1 },
        .noteFailure { caseId := 1, number := 1, stage := .caught },
        .recordFailure { caseId := 1, number := 1, stage := .noted }])).any
      (fun state => decide ((∃ row ∈ state.cases.rows, row.status = .failed) ∧
        state.verifications = [] ∧ state.reviews = [])) := by
    decide
  obtain ⟨state, hrun, hfacts⟩ := (Option.any_eq_true _ _).mp hany
  obtain ⟨⟨row, hmem, hstatus⟩, hverifications, hreviews⟩ := of_decide_eq_true hfacts
  have hdoomed : state.Doomed row.id := by
    constructor
    · exact ⟨row, Table.find?_key hmem, .inr hstatus⟩
    · rintro ⟨call, hcall, _⟩
      rw [hverifications] at hcall
      cases hcall
    · intro review hreview
      rw [hreviews] at hreview
      cases hreview
  refine ⟨oneCustomer_opening, state, Reaches.of_runInputs hrun, row, hmem, hstatus, ?_,
    hdoomed.not_recovers⟩
  rw [hstatus]
  decide

end Finify.Kyc
