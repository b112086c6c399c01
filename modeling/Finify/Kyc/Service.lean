/-
# The KYC service

`create`, `upload`, `verify` and `review` on one database.  A call is split where it leaves the
database: an upload between its check and its insert, a verification between its two
transactions and before each update of its `catch`, a review between its decision and its
commit.  Other calls take steps in between, and any step may be the last one of its call.
-/

import Finify.Kyc.Cases

namespace Finify.Kyc

open Finify.Foundations

/-! ## Calls under way -/

/-- An upload whose file is on its way to the storage. -/
structure Upload where
  document : StoredDocument
  deriving DecidableEq

/-- Where a verification stands: its first transaction is committed, an error was caught, or
the attempt is marked as failed. -/
inductive Stage
  | submitted
  | caught
  | noted
  deriving DecidableEq, Repr

/-- A verification that has an attempt. -/
structure Verification where
  caseId : ℕ
  number : ℕ
  stage : Stage := .submitted
  deriving DecidableEq

/-- A review that has decided and holds the lock of its case; `approvedCaseId` is what it has
read. -/
structure Review where
  caseId : ℕ
  action : ReviewAction
  actor : String
  approvedCaseId : Option ℕ
  now : ℤ
  deriving DecidableEq

/-- The committed tables, and the calls under way. -/
structure State where
  cases : Table Case.id
  documents : List StoredDocument := []
  attempts : List Attempt := []
  profiles : Table Profile.msisdn
  requests : Table OpeningRequest.customerMsisdn
  links : Table Link.instanceId
  journeys : Onboarding.Database
  uploads : List Upload := []
  verifications : List Verification := []
  reviews : List Review := []

/-- What `create` is asked for. -/
structure NewCase where
  customerMsisdn : ℤ
  documentType : DocumentType
  idempotencyKey : Option String := none

namespace State

variable (state : State)

def Unlocked (caseId : ℕ) : Prop := ∀ review ∈ state.reviews, review.caseId ≠ caseId

instance (caseId : ℕ) : Decidable (state.Unlocked caseId) :=
  inferInstanceAs (Decidable (∀ review ∈ state.reviews, _))

/-- `UPDATE kyc.verification_attempts`. -/
def updateAttempt (call : Verification) (status : AttemptStatus) : List Attempt :=
  state.attempts.map fun attempt =>
    if attempt.caseId = call.caseId ∧ attempt.number = call.number then
      { attempt with status := status }
    else attempt

/-! ## create and upload -/

/-- `create`, with the identifier that the row is given. -/
def create (id : ℕ) (input : NewCase) (actor : String) (now : ℤ) : Option State :=
  let key := input.idempotencyKey.filter fun key => key ≠ ""
  if (state.profiles.find? input.customerMsisdn).isNone then none
  else if key ≠ none ∧ ∃ row ∈ state.cases.rows, row.idempotencyKey = key then none
  else
    (state.cases.insert?
      { id := id
        customerMsisdn := some input.customerMsisdn
        documentType := input.documentType
        idempotencyKey := key
        createdBy := actor
        createdAt := now }).map fun cases => { state with cases := cases }

/-- `upload` up to the storage. -/
def upload (document : StoredDocument) : Option State :=
  match state.cases.find? document.caseId with
  | some row =>
    if row.status.TakesDocuments then
      some { state with uploads := state.uploads ++ [{ document := document }] }
    else none
  | none => none

/-- The insert of an upload, which does not look at the case again. -/
def storeDocument (call : Upload) : Option State :=
  if call ∈ state.uploads ∧ call.document ∉ state.documents then
    some { state with
      documents := state.documents ++ [call.document]
      uploads := state.uploads.erase call }
  else none

/-- The storage, the insert or the process fails. -/
def dropUpload (call : Upload) : Option State :=
  if call ∈ state.uploads then some { state with uploads := state.uploads.erase call } else none

/-! ## verify -/

/-- `byRole.has`. -/
def HasDocument (caseId : ℕ) (role : DocumentRole) : Prop :=
  ∃ document ∈ state.documents, document.caseId = caseId ∧ document.role = role

instance (caseId : ℕ) (role : DocumentRole) : Decidable (state.HasDocument caseId role) :=
  inferInstanceAs (Decidable (∃ document ∈ state.documents, _))

def nextAttempt (caseId : ℕ) : ℕ :=
  ((state.attempts.filter fun attempt => attempt.caseId = caseId).map Attempt.number).foldr max 0
    + 1

/-- The checks of `verify` on the locked case. -/
def Verifiable (caseId : ℕ) : Prop :=
  ∃ row ∈ state.cases.find? caseId, row.status.TakesDocuments ∧
    state.HasDocument caseId row.documentType.frontRole ∧ state.HasDocument caseId .selfie ∧
      state.Unlocked caseId

instance (caseId : ℕ) : Decidable (state.Verifiable caseId) :=
  inferInstanceAs (Decidable (∃ row ∈ state.cases.find? caseId, _))

/-- The first transaction of `verify`. -/
def submit (caseId : ℕ) : Option State :=
  if state.Verifiable caseId then
    some { state with
      cases := state.cases.modify caseId (Case.inStatus .processing) (Case.inStatus_id _)
      attempts := state.attempts ++ [{ caseId := caseId, number := state.nextAttempt caseId }]
      verifications := state.verifications ++
        [{ caseId := caseId, number := state.nextAttempt caseId }] }
  else none

/-- The first transaction fails after it has inserted the attempt. -/
def failSubmit (caseId : ℕ) : Option State :=
  if state.Verifiable caseId then
    some { state with
      verifications := state.verifications ++
        [{ caseId := caseId, number := state.nextAttempt caseId, stage := .caught }] }
  else none

/-- The second transaction of `verify`, which asks nothing of the case.  If its commit is not
acknowledged the call takes it for an error. -/
def storeResult (call : Verification) (result : OcrResult) (acknowledged : Bool) : Option State :=
  if call ∈ state.verifications ∧ call.stage = .submitted ∧ state.Unlocked call.caseId ∧
      result.Storable then
    some { state with
      cases := state.cases.modify call.caseId (Case.verified result) (Case.verified_id _)
      attempts := state.updateAttempt call .completed
      verifications := state.verifications.erase call ++
        if acknowledged then [] else [{ call with stage := .caught }] }
  else none

/-- An error reaches the `catch` of `verify`. -/
def breakOff (call : Verification) : Option State :=
  if call ∈ state.verifications ∧ call.stage = .submitted then
    some { state with
      verifications := state.verifications.erase call ++ [{ call with stage := .caught }] }
  else none

/-- The first update of the `catch`. -/
def noteFailure (call : Verification) : Option State :=
  if call ∈ state.verifications ∧ call.stage = .caught then
    some { state with
      attempts := state.updateAttempt call .failed
      verifications := state.verifications.erase call ++ [{ call with stage := .noted }] }
  else none

/-- The second update of the `catch`, which asks nothing of the case. -/
def recordFailure (call : Verification) : Option State :=
  if call ∈ state.verifications ∧ call.stage = .noted ∧ state.Unlocked call.caseId then
    some { state with
      cases := state.cases.modify call.caseId (Case.inStatus .failed) (Case.inStatus_id _)
      verifications := state.verifications.erase call }
  else none

/-- A verification ends where it stands: the process stops, or an update of the `catch`
fails. -/
def abandon (call : Verification) : Option State :=
  if call ∈ state.verifications then
    some { state with verifications := state.verifications.erase call }
  else none

/-! ## review -/

/-- What `review` checks of the case. -/
def Reviewable (row : Case) (action : ReviewAction) (actor : String) : Prop :=
  row.status.AwaitsReview ∧ (action = .approve → row.screening = some .clear) ∧
    row.createdBy ≠ actor

instance (row : Case) (action : ReviewAction) (actor : String) :
    Decidable (Reviewable row action actor) :=
  inferInstanceAs (Decidable (_ ∧ _))

/-- The cases as the transaction of a review sees them once it has decided. -/
def decidedCases (caseId : ℕ) (action : ReviewAction) (actor : String) (now : ℤ) :
    Table Case.id :=
  state.cases.modify caseId (Case.reviewed action actor now) (Case.reviewed_id _ _ _)

/-- `review` up to the look for an approved case of the customer. -/
def review (caseId : ℕ) (action : ReviewAction) (actor : String) (now : ℤ) : Option State :=
  match state.cases.find? caseId with
  | some row =>
    if Reviewable row action actor ∧ state.Unlocked caseId then
      some { state with
        reviews := state.reviews ++
          [{ caseId := caseId
             action := action
             actor := actor
             approvedCaseId :=
               approvedCase (state.decidedCases caseId action actor now).rows row.customerMsisdn
             now := now }] }
    else none
  | none => none

/-- What a review writes beside the journey. -/
def decide (review : Review) (customerMsisdn : Option ℤ) : State :=
  { state with
    cases := state.decidedCases review.caseId review.action review.actor review.now
    profiles := customerMsisdn.elim state.profiles fun msisdn =>
      state.profiles.modify msisdn
        (Profile.reviewed review.caseId review.approvedCaseId review.action)
        (Profile.reviewed_msisdn _ _ _)
    requests := customerMsisdn.elim state.requests fun msisdn =>
      state.requests.modify msisdn
        (OpeningRequest.reviewed review.caseId review.approvedCaseId review.action)
        (OpeningRequest.reviewed_customerMsisdn _ _ _) }

/-- The review gives up its lock. -/
def endReview (review : Review) : State :=
  { state with reviews := state.reviews.erase review }

/-- `review` from there to its end: it commits, or an exception of the journey undoes it. -/
def commitReview (review : Review) : Option State :=
  if review ∈ state.reviews then
    match state.cases.find? review.caseId with
    | some row =>
      match propagateKycDecision state.links state.journeys review.caseId review.action.status
          review.actor review.now with
      | .error _ => some (state.endReview review)
      | .ok journeys =>
        some { (state.decide review row.customerMsisdn).endReview review with
          journeys := journeys }
    | none => none
  else none

/-- A statement of the review, or its process, fails. -/
def abandonReview (review : Review) : Option State :=
  if review ∈ state.reviews then some (state.endReview review) else none

end State

/-! ## Steps -/

/-- A call as far as it goes at once, the next step of one, or its end without effect. -/
inductive Event
  | create (id : ℕ) (input : NewCase) (actor : String) (now : ℤ)
  | upload (document : StoredDocument)
  | storeDocument (call : Upload)
  | dropUpload (call : Upload)
  | submit (caseId : ℕ)
  | failSubmit (caseId : ℕ)
  | storeResult (call : Verification) (result : OcrResult) (acknowledged : Bool)
  | breakOff (call : Verification)
  | noteFailure (call : Verification)
  | recordFailure (call : Verification)
  | abandon (call : Verification)
  | review (caseId : ℕ) (action : ReviewAction) (actor : String) (now : ℤ)
  | commitReview (review : Review)
  | abandonReview (review : Review)

def step (state : State) : Event → Option State
  | .create id input actor now => state.create id input actor now
  | .upload document => state.upload document
  | .storeDocument call => state.storeDocument call
  | .dropUpload call => state.dropUpload call
  | .submit caseId => state.submit caseId
  | .failSubmit caseId => state.failSubmit caseId
  | .storeResult call result acknowledged => state.storeResult call result acknowledged
  | .breakOff call => state.breakOff call
  | .noteFailure call => state.noteFailure call
  | .recordFailure call => state.recordFailure call
  | .abandon call => state.abandon call
  | .review caseId action actor now => state.review caseId action actor now
  | .commitReview review => state.commitReview review
  | .abandonReview review => state.abandonReview review

/-! ## What steps write -/

section

variable {before after : State}

/-- A review that ends has committed its decision, or an exception of the journey has undone
it. -/
theorem commitReview_cases {review : Review} (hstep : before.commitReview review = some after) :
    review ∈ before.reviews ∧ ∃ row, before.cases.find? review.caseId = some row ∧
      ((∃ error, propagateKycDecision before.links before.journeys review.caseId
          review.action.status review.actor review.now = .error error ∧
          after = before.endReview review) ∨
        ∃ journeys, propagateKycDecision before.links before.journeys review.caseId
          review.action.status review.actor review.now = .ok journeys ∧
          after = { (before.decide review row.customerMsisdn).endReview review with
            journeys := journeys }) := by
  simp only [State.commitReview, Option.ite_none_right_eq_some] at hstep
  obtain ⟨hreview, hstep⟩ := hstep
  split at hstep
  case h_2 => cases hstep
  case h_1 row hrow =>
    refine ⟨hreview, row, hrow, ?_⟩
    split at hstep
    case h_1 error herror =>
      cases hstep
      exact .inl ⟨error, herror, rfl⟩
    case h_2 journeys hjourneys =>
      cases hstep
      exact .inr ⟨journeys, hjourneys, rfl⟩

/-- What a step of each call has found and written; documents and uploads only grow or shrink. -/
inductive Step (before : State) : Event → State → Prop
  | create {id : ℕ} {input : NewCase} {actor : String} {now : ℤ} {key : Option String}
      {table : Table Case.id} (hprofile : (before.profiles.find? input.customerMsisdn).isSome)
      (hinsert : before.cases.insert?
        { id := id, customerMsisdn := some input.customerMsisdn,
          documentType := input.documentType, idempotencyKey := key, createdBy := actor,
          createdAt := now } = some table) :
      Step before (.create id input actor now) { before with cases := table }
  | file {event : Event} {documents : List StoredDocument} {uploads : List Upload} :
      Step before event { before with documents := documents, uploads := uploads }
  | submit {caseId : ℕ} {attempts : List Attempt} (hready : before.Verifiable caseId) :
      Step before (.submit caseId) { before with
        cases := before.cases.modify caseId (Case.inStatus .processing) (Case.inStatus_id _)
        attempts := attempts
        verifications := before.verifications ++
          [{ caseId := caseId, number := before.nextAttempt caseId }] }
  | failSubmit {caseId : ℕ} :
      Step before (.failSubmit caseId) { before with
        verifications := before.verifications ++
          [{ caseId := caseId, number := before.nextAttempt caseId, stage := .caught }] }
  | storeResult {call : Verification} {result : OcrResult} {acknowledged : Bool}
      {attempts : List Attempt} (hcall : call ∈ before.verifications)
      (hstage : call.stage = .submitted) (hunlocked : before.Unlocked call.caseId) :
      Step before (.storeResult call result acknowledged) { before with
        cases := before.cases.modify call.caseId (Case.verified result) (Case.verified_id _)
        attempts := attempts
        verifications := before.verifications.erase call ++
          if acknowledged then [] else [{ call with stage := .caught }] }
  | breakOff {call : Verification} :
      Step before (.breakOff call) { before with
        verifications := before.verifications.erase call ++ [{ call with stage := .caught }] }
  | noteFailure {call : Verification} {attempts : List Attempt} (hstage : call.stage = .caught) :
      Step before (.noteFailure call) { before with
        attempts := attempts
        verifications := before.verifications.erase call ++ [{ call with stage := .noted }] }
  | recordFailure {call : Verification} (hunlocked : before.Unlocked call.caseId) :
      Step before (.recordFailure call) { before with
        cases := before.cases.modify call.caseId (Case.inStatus .failed) (Case.inStatus_id _)
        verifications := before.verifications.erase call }
  | abandon {call : Verification} :
      Step before (.abandon call) { before with
        verifications := before.verifications.erase call }
  | review {caseId : ℕ} {action : ReviewAction} {actor : String} {now : ℤ} {row : Case}
      (hrow : before.cases.find? caseId = some row) (hreviewable : State.Reviewable row action actor)
      (hunlocked : before.Unlocked caseId) :
      Step before (.review caseId action actor now) { before with
        reviews := before.reviews ++
          [{ caseId := caseId, action := action, actor := actor
             approvedCaseId :=
               approvedCase (before.decidedCases caseId action actor now).rows row.customerMsisdn
             now := now }] }
  | endReview {event : Event} {review : Review} (hreview : review ∈ before.reviews) :
      Step before event (before.endReview review)
  | commitReview {review : Review} {row : Case} {journeys : Onboarding.Database}
      (hreview : review ∈ before.reviews) (hrow : before.cases.find? review.caseId = some row) :
      Step before (.commitReview review)
        { (before.decide review row.customerMsisdn).endReview review with journeys := journeys }

/-- Every step is one of these. -/
theorem step_cases {event : Event} (hstep : step before event = some after) :
    Step before event after := by
  cases event with
  | create id input actor now =>
    simp only [step, State.create, Option.ite_none_left_eq_some, Option.map_eq_some_iff] at hstep
    obtain ⟨hprofile, _, table, hinsert, rfl⟩ := hstep
    exact .create (by simpa [Option.isSome_iff_ne_none] using hprofile) hinsert
  | upload document =>
    simp only [step, State.upload] at hstep
    split at hstep
    case h_1 =>
      obtain ⟨_, hafter⟩ := Option.ite_none_right_eq_some.mp hstep
      cases hafter
      exact .file
    case h_2 => cases hstep
  | review caseId action actor now =>
    simp only [step, State.review] at hstep
    split at hstep
    case h_1 row hrow =>
      simp only [Option.ite_none_right_eq_some, Option.some.injEq] at hstep
      obtain ⟨⟨hreviewable, hunlocked⟩, rfl⟩ := hstep
      exact .review hrow hreviewable hunlocked
    case h_2 => cases hstep
  | commitReview review =>
    obtain ⟨hreview, row, hrow, ⟨_, _, rfl⟩ | ⟨_, _, rfl⟩⟩ := commitReview_cases hstep
    · exact .endReview hreview
    · exact .commitReview hreview hrow
  | storeDocument call | dropUpload call | submit caseId | failSubmit caseId
  | storeResult call result acknowledged | breakOff call | noteFailure call | recordFailure call
  | abandon call | abandonReview review =>
    obtain ⟨hfacts, hafter⟩ := Option.ite_none_right_eq_some.mp hstep
    cases hafter
    first
    | exact .file
    | exact .submit hfacts
    | exact .failSubmit
    | exact .storeResult hfacts.1 hfacts.2.1 hfacts.2.2.1
    | exact .breakOff
    | exact .noteFailure hfacts.2
    | exact .recordFailure hfacts.2.2
    | exact .abandon
    | exact .endReview hfacts

/-- Only the commit of a review writes beside the tables of the service. -/
theorem step_leaves {event : Event} (hstep : step before event = some after)
    (hevent : ∀ review, event ≠ .commitReview review) :
    after.profiles = before.profiles ∧ after.requests = before.requests ∧
      after.links = before.links ∧ after.journeys = before.journeys := by
  cases step_cases hstep with
  | commitReview => exact absurd rfl (hevent _)
  | _ => exact ⟨rfl, rfl, rfl, rfl⟩

/-- The service leaves the links. -/
theorem links_step {event : Event} (hstep : step before event = some after) :
    after.links = before.links := by
  by_cases hevent : ∃ review, event = .commitReview review
  case pos =>
    obtain ⟨review, rfl⟩ := hevent
    obtain ⟨_, row, _, ⟨_, _, rfl⟩ | ⟨_, _, rfl⟩⟩ := commitReview_cases hstep
    · rfl
    · rfl
  case neg =>
    exact (step_leaves hstep fun review hreview => hevent ⟨review, hreview⟩).2.2.1

end

/-! ## Locks -/

/-- Every review under way holds the lock of its own case, which awaits it. -/
structure State.LocksHold (state : State) : Prop where
  awaited : ∀ review ∈ state.reviews, ∃ row, state.cases.find? review.caseId = some row ∧
    row.status.AwaitsReview
  exclusive : (state.reviews.map Review.caseId).Nodup

namespace State.LocksHold

variable {before after : State}

/-- A write to a case that is not locked. -/
theorem of_unlocked (hlocks : before.LocksHold) {caseId : ℕ} (hunlocked : before.Unlocked caseId)
    (hcases : ∀ other, other ≠ caseId → after.cases.find? other = before.cases.find? other)
    (hreviews : after.reviews = before.reviews) : after.LocksHold where
  awaited := by
    intro review hreview
    rw [hreviews] at hreview
    rw [hcases _ (hunlocked review hreview)]
    exact hlocks.awaited review hreview
  exclusive := hreviews ▸ hlocks.exclusive

/-- No other review is of the same case. -/
theorem others_ne (hlocks : before.LocksHold) {review : Review} (hreview : review ∈ before.reviews) :
    ∀ other ∈ before.reviews.erase review, other.caseId ≠ review.caseId := by
  intro other hother hsame
  have hperm := (List.perm_cons_erase hreview).map Review.caseId
  have hnodup := hperm.nodup_iff.mp hlocks.exclusive
  rw [List.map_cons, List.nodup_cons] at hnodup
  exact hnodup.1 (List.mem_map.mpr ⟨other, hother, hsame⟩)

/-- A write to the case of a review that ends. -/
theorem of_ended (hlocks : before.LocksHold) {review : Review} (hreview : review ∈ before.reviews)
    (hcases : ∀ other, other ≠ review.caseId →
      after.cases.find? other = before.cases.find? other)
    (hreviews : after.reviews = before.reviews.erase review) : after.LocksHold where
  awaited := by
    intro other hother
    rw [hreviews] at hother
    rw [hcases _ (hlocks.others_ne hreview other hother)]
    exact hlocks.awaited other (List.mem_of_mem_erase hother)
  exclusive := by
    rw [hreviews]
    exact hlocks.exclusive.sublist ((List.erase_sublist).map Review.caseId)

/-- A new case is not locked. -/
theorem of_inserted (hlocks : before.LocksHold) {row : Case} {table : Table Case.id}
    (hinsert : before.cases.insert? row = some table) (hcases : after.cases = table)
    (hreviews : after.reviews = before.reviews) : after.LocksHold where
  awaited := by
    intro review hreview
    rw [hreviews] at hreview
    obtain ⟨found, hfound, hawaits⟩ := hlocks.awaited review hreview
    refine ⟨found, ?_, hawaits⟩
    rw [hcases, Table.find?_of_insert? hinsert]
    split
    case isTrue hsame =>
      rw [hsame, (Table.insert?_eq_some hinsert).1] at hfound
      cases hfound
    case isFalse => exact hfound
  exclusive := hreviews ▸ hlocks.exclusive

/-- Every step keeps the locks. -/
theorem step (hlocks : before.LocksHold) {event : Event} (hstep : step before event = some after) :
    after.LocksHold := by
  cases step_cases hstep with
  | create hprofile hinsert => exact hlocks.of_inserted hinsert rfl rfl
  | submit hready =>
    obtain ⟨_, _, _, _, _, hunlocked⟩ := hready
    exact hlocks.of_unlocked hunlocked (fun _ hne => Table.find?_modify_of_ne _ hne
      (Case.inStatus .processing) (Case.inStatus_id _)) rfl
  | @storeResult _ result _ _ _ _ hunlocked =>
    exact hlocks.of_unlocked hunlocked (fun _ hne => Table.find?_modify_of_ne _ hne
      (Case.verified result) (Case.verified_id _)) rfl
  | recordFailure hunlocked =>
    exact hlocks.of_unlocked hunlocked (fun _ hne => Table.find?_modify_of_ne _ hne
      (Case.inStatus .failed) (Case.inStatus_id _)) rfl
  | @review _ _ _ _ row hrow hreviewable hunlocked =>
    constructor
    · intro review hreview
      rcases List.mem_append.mp hreview with hold | hnew
      · exact hlocks.awaited review hold
      · rw [List.mem_singleton.mp hnew]
        exact ⟨row, hrow, hreviewable.1⟩
    · rw [List.map_append]
      apply List.Nodup.append hlocks.exclusive (List.nodup_singleton _)
      intro other hold hnew
      obtain ⟨review, hreview, rfl⟩ := List.mem_map.mp hold
      exact hunlocked review hreview (List.mem_singleton.mp hnew)
  | endReview hreview => exact hlocks.of_ended hreview (fun _ _ => rfl) rfl
  | @commitReview review _ _ hreview =>
    exact hlocks.of_ended hreview (fun _ hne => Table.find?_modify_of_ne _ hne
      (Case.reviewed review.action review.actor review.now) (Case.reviewed_id _ _ _)) rfl
  | file | failSubmit | breakOff | noteFailure | abandon =>
    exact ⟨hlocks.awaited, hlocks.exclusive⟩

end State.LocksHold

end Finify.Kyc
