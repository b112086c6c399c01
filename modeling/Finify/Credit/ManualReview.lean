/-
# The meaning of a manual decision

An execution that waits for reviewers has one case, which is recommended once and decided once.
What a decision leaves of the execution means what the outcome means for an evaluation, as long as
there was a queue for the case and the approved limit covers what was asked for.
-/

import Finify.Credit.Reviews
import Finify.Foundations.Transition

namespace Finify.Credit.Review

open Finify.Foundations

/-! ## What is kept -/

/-- A case with what the reviewers did, in order. -/
structure File where
  review : Case
  history : List (Act × String)
  deriving DecidableEq

/-- What the reviewers did with a case. -/
def State.historyOf (state : State) (caseId : ℕ) : List (Act × String) :=
  (state.actions.rows.filter (·.caseId = caseId)).map fun act => (act.action, act.actorId)

def State.filesOf (state : State) (executionId : ℕ) : List File :=
  (state.cases.rows.filter (·.executionId = executionId)).map fun review =>
    ⟨review, state.historyOf review.id⟩

/-- Who recommended last. -/
def File.recommender? (file : File) : Option String :=
  (file.history.filter (·.1 = .recommend)).getLast?.map Prod.snd

def File.decisions (file : File) : List (Act × String) :=
  file.history.filter (·.1 ≠ .recommend)

/-- The limit that the policy calculated. -/
def Evaluation.calculated (evaluation : Evaluation) : ℚ :=
  (evaluation.returned.map (·.allocatedLimit.value)).getD 0

/-- What the outcome of an evaluation means of the limits. -/
structure Evaluation.Means (evaluation : Evaluation) : Prop where
  allocated : evaluation.row.allocatedLimit.value ≤ evaluation.calculated
  available :
    evaluation.row.availableLimit.value =
      evaluation.row.allocatedLimit.value - evaluation.row.existingExposure.value -
        evaluation.row.pendingReservations.value
  outcome :
    evaluation.row.outcome =
      if evaluation.row.requestedAmount.value ≤ evaluation.row.availableLimit.value then
        .autoApproved
      else .counterOffer

/-- The review of an execution keeps the meaning of its decision. -/
structure Evaluation.Kept (evaluation : Evaluation) (files : List File) : Prop where
  one_case : evaluation.row.outcome = .manualReview → ∃ file, files = [file]
  decided_once : ∀ file ∈ files, file.decisions.length ≤ 1
  decided_by_another : ∀ file ∈ files, ∀ act ∈ file.decisions, file.recommender? ≠ some act.2
  approved : ∀ file ∈ files, ∀ actor, (.decide .approved, actor) ∈ file.history → evaluation.Means
  rejected : ∀ file ∈ files, ∀ actor, (.decide .rejected, actor) ∈ file.history →
    evaluation.row.allocatedLimit.value = 0 ∧ evaluation.row.availableLimit.value = 0

/-- The reviews of all executions that are no simulations keep the meaning of their decisions. -/
def State.Kept (state : State) : Prop :=
  ∀ evaluation ∈ state.evaluations.rows, evaluation.row.simulation = false →
    evaluation.Kept (state.filesOf evaluation.id)

/-- An execution that is sent to review finds a queue, and an approved limit covers what is
requested, owed and reserved. -/
def Orderly (state : State) : Event → Prop
  | .start _ => True
  | .finish governed executionId finding =>
    ∀ evaluation ∈ state.evaluations.find? executionId,
      (verdict evaluation.dto governed finding).outcome = .manualReview →
        evaluation.row.simulation = false → (governed.queueOf evaluation.row).isSome
  | .recommend _ _ _ _ => True
  | .decide _ caseId dto _ =>
    dto.decision = .approved → ∀ review ∈ state.cases.find? caseId,
      ∀ evaluation ∈ state.evaluations.find? review.executionId,
        evaluation.row.requestedAmount.value + evaluation.row.existingExposure.value +
            evaluation.row.pendingReservations.value ≤
          toScale 2 (chosenLimit dto review evaluation.row)

instance (state : State) (event : Event) : Decidable (Orderly state event) :=
  match event with
  | .start _ => inferInstanceAs (Decidable True)
  | .finish governed executionId finding => inferInstanceAs (Decidable
      (∀ evaluation ∈ state.evaluations.find? executionId,
        (verdict evaluation.dto governed finding).outcome = .manualReview →
          evaluation.row.simulation = false → (governed.queueOf evaluation.row).isSome = true))
  | .recommend _ _ _ _ => inferInstanceAs (Decidable True)
  | .decide _ caseId dto _ => inferInstanceAs (Decidable
      (dto.decision = .approved → ∀ review ∈ state.cases.find? caseId,
        ∀ evaluation ∈ state.evaluations.find? review.executionId,
          evaluation.row.requestedAmount.value + evaluation.row.existingExposure.value +
              evaluation.row.pendingReservations.value ≤
            toScale 2 (chosenLimit dto review evaluation.row)))

/-! ## Where an execution stands -/

/-- How far the review of an execution has come. -/
inductive Reviewed (row returned : Execution) (review : Case) : List (Act × String) → Prop
  | pending (hrow : row = returned) (houtcome : row.outcome = .manualReview)
      (hstatus : review.status = .pending) : Reviewed row returned review []
  | recommended {actor : String} (hrow : row = returned) (houtcome : row.outcome = .manualReview)
      (hstatus : review.status = .recommended) (hactor : review.recommendedBy = some actor) :
      Reviewed row returned review [(.recommend, actor)]
  | decided {decision : Decision} {recommender approver : String} (hne : recommender ≠ approver)
      (hstatus : review.status = decision.status) (houtcome : row.outcome = decision.outcome)
      (hlimit : row.allocatedLimit.value ≤ returned.allocatedLimit.value)
      (hrejected : decision = .rejected →
        row.allocatedLimit.value = 0 ∧ row.availableLimit.value = 0) :
      Reviewed row returned review [(.recommend, recommender), (.decide decision, approver)]

/-- How far an execution has come. -/
inductive Standing : Option Evaluation → List File → Prop
  | absent : Standing none []
  | running {evaluation : Evaluation} (hreturned : evaluation.returned = none)
      (houtcome : evaluation.row.outcome = .processing) : Standing (some evaluation) []
  | unreviewed {evaluation : Evaluation} (hreturned : evaluation.returned = some evaluation.row) :
      Standing (some evaluation) []
  | reviewed {evaluation : Evaluation} {returned : Execution} {review : Case}
      {history : List (Act × String)} (hreturned : evaluation.returned = some returned)
      (hsimulation : evaluation.row.simulation = false)
      (hreviewed : Reviewed evaluation.row returned review history) :
      Standing (some evaluation) [⟨review, history⟩]

/-- What holds in every state. -/
structure State.Sound (state : State) : Prop where
  standing : ∀ executionId,
    Standing (state.evaluations.find? executionId) (state.filesOf executionId)
  drawn : ∀ act ∈ state.actions.rows, act.caseId < state.cases.next

section

variable {state after : State} {evaluation : Evaluation} {files : List File}

/-- Without a case there is nothing to go wrong but that there is none. -/
theorem Evaluation.kept_nil (houtcome : evaluation.row.outcome ≠ .manualReview) :
    evaluation.Kept [] where
  one_case h := absurd h houtcome
  decided_once := by simp
  decided_by_another := by simp
  approved := by simp
  rejected := by simp

/-- A case is decided once, by another than its recommender. -/
theorem Reviewed.kept {returned : Execution} {review : Case} {history : List (Act × String)}
    (hreviewed : Reviewed evaluation.row returned review history)
    (happroved : ∀ actor, (.decide .approved, actor) ∈ history → evaluation.Means) :
    evaluation.Kept [⟨review, history⟩] := by
  refine ⟨fun _ => ⟨_, rfl⟩, ?_, ?_, ?_, ?_⟩
  · intro file hfile
    rw [List.mem_singleton.mp hfile]
    cases hreviewed <;> simp [File.decisions]
  · intro file hfile
    rw [List.mem_singleton.mp hfile]
    cases hreviewed with
    | pending => simp [File.decisions]
    | recommended => simp [File.decisions]
    | decided hne => simpa [File.decisions, File.recommender?] using hne
  · intro file hfile
    rw [List.mem_singleton.mp hfile]
    exact happroved
  · intro file hfile
    rw [List.mem_singleton.mp hfile]
    cases hreviewed with
    | pending => simp
    | recommended => simp
    | decided _ _ _ _ hrejected =>
      intro actor hmem
      apply hrejected
      exact (by simpa [eq_comm] using hmem : _ ∧ _).1

/-- Only a case that was not opened and an approved limit that does not cover can go wrong. -/
theorem Standing.kept_iff (hstanding : Standing (some evaluation) files) :
    evaluation.Kept files ↔
      (evaluation.row.outcome = .manualReview → files ≠ []) ∧
        ∀ file ∈ files, ∀ actor, (.decide .approved, actor) ∈ file.history →
          evaluation.Means := by
  constructor
  · intro hkept
    refine ⟨?_, hkept.approved⟩
    intro houtcome hnil
    obtain ⟨file, hfile⟩ := hkept.one_case houtcome
    rw [hnil] at hfile
    cases hfile
  · rintro ⟨hcase, happroved⟩
    cases hstanding with
    | running hreturned houtcome => exact Evaluation.kept_nil fun h => hcase h rfl
    | unreviewed hreturned => exact Evaluation.kept_nil fun h => hcase h rfl
    | reviewed hreturned hsimulation hreviewed =>
      exact hreviewed.kept (happroved _ (List.mem_singleton_self _))

/-! ## What a write changes -/

/-- What a write to a case makes of it. -/
def File.acted (caseId : ℕ) (change : Case → Case) (act : Act × String) (file : File) : File :=
  if file.review.id = caseId then ⟨change file.review, file.history ++ [act]⟩ else file

/-- Only one execution and its cases change. -/
structure Touches (state after : State) (executionId : ℕ) : Prop where
  evaluations : ∀ other, other ≠ executionId →
    after.evaluations.find? other = state.evaluations.find? other
  files : ∀ other, other ≠ executionId → after.filesOf other = state.filesOf other

theorem historyOf_record (caseId : ℕ) (change : Case → Case)
    (hid : ∀ review, (change review).id = review.id) (act : Act) (actor reasonCode : String)
    (payload : Option ℚ) (other : ℕ) :
    (state.record caseId change hid act actor reasonCode payload).historyOf other =
      if other = caseId then state.historyOf other ++ [(act, actor)]
      else state.historyOf other := by
  unfold State.historyOf State.record
  rw [Log.rows_append, List.filter_append, List.map_append]
  by_cases hother : other = caseId
  · simp [hother]
  · simp [hother, Ne.symm hother]

theorem filesOf_record (caseId : ℕ) {change : Case → Case}
    (hid : ∀ review, (change review).id = review.id)
    (hexecution : ∀ review, (change review).executionId = review.executionId) (act : Act)
    (actor reasonCode : String) (payload : Option ℚ) (executionId : ℕ) :
    (state.record caseId change hid act actor reasonCode payload).filesOf executionId =
      (state.filesOf executionId).map (File.acted caseId change (act, actor)) := by
  have hselect : ∀ review : Case,
      (if review.id = caseId then change review else review).executionId = review.executionId := by
    intro review
    split
    · exact hexecution review
    · rfl
  unfold State.filesOf
  rw [List.map_map]
  change ((state.cases.rows.map fun review =>
    if review.id = caseId then change review else review).filter _).map _ = _
  rw [List.filter_map, List.map_map]
  simp only [Function.comp_def, hselect]
  apply List.map_congr_left
  intro review _
  rw [historyOf_record]
  by_cases hreview : review.id = caseId
  · simp [File.acted, hreview, hid]
  · simp [File.acted, hreview]

theorem historyOf_next (hdrawn : ∀ act ∈ state.actions.rows, act.caseId < state.cases.next) :
    state.historyOf state.cases.next = [] := by
  unfold State.historyOf
  rw [List.map_eq_nil_iff, List.filter_eq_nil_iff]
  intro act hact
  simpa using (hdrawn act hact).ne

theorem evaluations_createCase (governed : Governed) (old new : Execution) :
    (state.createCase governed old new).evaluations = state.evaluations := by
  unfold State.createCase
  split
  · split
    · rfl
    · split <;> rfl
  · rfl

/-- The trigger opens no case where it is not to, or finds no queue. -/
theorem createCase_closed {governed : Governed} {old new : Execution}
    (hclosed : new.outcome = .manualReview → new.simulation = false →
      governed.queueOf new = none) : state.createCase governed old new = state := by
  unfold State.createCase
  split
  · rename_i hopens
    rw [hclosed hopens.1 hopens.2.2]
  · rfl

theorem createCase_opens {governed : Governed} {old new : Execution} {queue : Queue}
    (hnew : new.outcome = .manualReview) (hold : old.outcome = .processing)
    (hsimulation : new.simulation = false) (hqueue : governed.queueOf new = some queue)
    (hnone : state.filesOf new.id = []) :
    state.createCase governed old new =
      { state with
        cases := state.cases.append
          (fun id => { id := id, executionId := new.id, queueId := queue.id }) fun _ => rfl } := by
  have hfree : state.cases.rows.any (·.executionId = new.id) = false := by
    rw [State.filesOf, List.map_eq_nil_iff, List.filter_eq_nil_iff] at hnone
    rw [List.any_eq_false]
    exact hnone
  unfold State.createCase
  rw [if_pos ⟨hnew, by simp [hold, hnew], hsimulation⟩, hqueue]
  simp only [hfree]
  rfl

/-- The case that a queue opens for an execution. -/
theorem filesOf_opened (hdrawn : ∀ act ∈ state.actions.rows, act.caseId < state.cases.next)
    {make : ℕ → Case} (hid : ∀ n, (make n).id = n) (executionId : ℕ) :
    State.filesOf { state with cases := state.cases.append make hid } executionId =
      state.filesOf executionId ++
        if (make state.cases.next).executionId = executionId then
          [⟨make state.cases.next, []⟩]
        else [] := by
  unfold State.filesOf
  rw [Log.rows_append, List.filter_append, List.map_append]
  congr 1
  have hnext : State.historyOf { state with cases := state.cases.append make hid }
      (make state.cases.next).id = [] := by
    rw [hid]
    exact historyOf_next hdrawn
  by_cases hown : (make state.cases.next).executionId = executionId
  · simp [hown, hnext]
  · simp [hown]

section

variable {governed : Governed} {change : Evaluation → Evaluation}
  {hid : ∀ other, (change other).id = other.id}

/-- The UPDATE of an execution writes one evaluation. -/
theorem find?_update (hfind : state.evaluations.find? evaluation.id = some evaluation) :
    (state.update governed evaluation change hid).evaluations.find? evaluation.id =
        some (change evaluation) ∧
      ∀ other, other ≠ evaluation.id →
        (state.update governed evaluation change hid).evaluations.find? other =
          state.evaluations.find? other := by
  unfold State.update
  rw [evaluations_createCase]
  constructor
  · have hmem : change evaluation ∈ (state.evaluations.modify evaluation.id change hid).rows :=
      Log.mem_modify.mpr ⟨evaluation, (Log.find?_eq_some.mp hfind).1, by rw [if_pos rfl]⟩
    exact Log.find?_eq_some.mpr ⟨hmem, hid evaluation⟩
  · intro other hother
    exact Log.find?_modify_of_ne _ hother change hid

theorem update_closed
    (hclosed : (change evaluation).row.outcome = .manualReview →
      (change evaluation).row.simulation = false →
        governed.queueOf (change evaluation).row = none) :
    state.update governed evaluation change hid =
      { state with evaluations := state.evaluations.modify evaluation.id change hid } :=
  createCase_closed hclosed

theorem update_opens {queue : Queue} (hnew : (change evaluation).row.outcome = .manualReview)
    (hold : evaluation.row.outcome = .processing)
    (hsimulation : (change evaluation).row.simulation = false)
    (hqueue : governed.queueOf (change evaluation).row = some queue)
    (hnone : state.filesOf (change evaluation).row.id = []) :
    state.update governed evaluation change hid =
      { state with
        evaluations := state.evaluations.modify evaluation.id change hid
        cases := state.cases.append
          (fun id => { id := id, executionId := (change evaluation).row.id, queueId := queue.id })
          fun _ => rfl } :=
  createCase_opens hnew hold hsimulation hqueue hnone

end

/-! ## What a step does -/

theorem start_eq_some {dto : EvaluateCredit} (hstart : state.start dto = some after) :
    ∃ make : ℕ → Evaluation, ∃ hid : ∀ n, (make n).id = n,
      (∀ n, (make n).returned = none ∧ (make n).row.outcome = .processing) ∧
        after = { state with evaluations := state.evaluations.append make hid } := by
  unfold State.start at hstart
  split at hstart
  · cases hstart
  · simp only [Option.bind_eq_bind, Option.bind_eq_some_iff] at hstart
    obtain ⟨requested, _, exposure, _, reservations, _, hafter⟩ := hstart
    cases hafter
    exact ⟨_, fun _ => rfl, fun _ => ⟨rfl, rfl⟩, rfl⟩

theorem finish_eq_some {governed : Governed} {executionId : ℕ} {finding : Finding}
    (hfinish : state.finish governed executionId finding = some after) :
    ∃ evaluation allocated available, state.evaluations.find? executionId = some evaluation ∧
      evaluation.returned = none ∧
        after = state.update governed evaluation
          (Evaluation.ended (verdict evaluation.dto governed finding) allocated available)
          (Evaluation.ended_id _ allocated available) := by
  unfold State.finish at hfinish
  simp only [Option.bind_eq_bind, Option.bind_eq_some_iff] at hfinish
  obtain ⟨evaluation, hfind, hfinish⟩ := hfinish
  split at hfinish
  · exact nomatch hfinish
  · rename_i hreturned
    simp only [Option.bind_eq_some_iff] at hfinish
    obtain ⟨allocated, _, available, _, hafter⟩ := hfinish
    cases hafter
    exact ⟨evaluation, allocated, available, hfind, by simpa using hreturned, rfl⟩

theorem recommend_eq_some {governed : Governed} {caseId : ℕ} {dto : RecommendationDto}
    {actor : String} (hrecommend : state.recommend governed caseId dto actor = some after) :
    ∃ review, state.cases.find? caseId = some review ∧
      (review.status = .pending ∨ review.status = .inReview) ∧
        after = state.record caseId (Case.recommendedAs dto actor)
          (Case.recommendedAs_id dto actor) .recommend actor dto.reasonCode
          dto.recommendedLimit := by
  unfold State.recommend at hrecommend
  simp only [Option.bind_eq_bind, Option.bind_eq_some_iff] at hrecommend
  obtain ⟨review, hfind, hrecommend⟩ := hrecommend
  split at hrecommend
  · exact nomatch hrecommend
  · rename_i hstatus
    split at hrecommend
    · exact nomatch hrecommend
    · cases hrecommend
      exact ⟨review, hfind, by tauto, rfl⟩

theorem decide_eq_some {governed : Governed} {caseId : ℕ} {dto : DecisionDto} {actor : String}
    (hdecide : state.decide governed caseId dto actor = some after) :
    ∃ review evaluation allocated available, state.cases.find? caseId = some review ∧
      state.evaluations.find? review.executionId = some evaluation ∧
      review.status = .recommended ∧ review.recommendedBy ≠ some actor ∧
      (dto.decision = .approved → 0 < chosenLimit dto review evaluation.row ∧
        chosenLimit dto review evaluation.row ≤ evaluation.row.allocatedLimit.value) ∧
      Amount.store? (chosenLimit dto review evaluation.row) = some allocated ∧
      Amount.store? (max 0 (chosenLimit dto review evaluation.row -
        evaluation.row.existingExposure.value - evaluation.row.pendingReservations.value)) =
          some available ∧
      after = (state.update governed evaluation (Evaluation.decidedAs dto allocated available)
        (Evaluation.decidedAs_id dto allocated available)).record caseId
          (Case.decidedAs dto (chosenLimit dto review evaluation.row) actor)
          (Case.decidedAs_id dto _ actor) (.decide dto.decision) actor dto.reasonCode
          (some (chosenLimit dto review evaluation.row)) := by
  unfold State.decide at hdecide
  simp only [Option.bind_eq_bind, Option.bind_eq_some_iff] at hdecide
  obtain ⟨review, hreview, evaluation, hevaluation, hdecide⟩ := hdecide
  split at hdecide
  · exact nomatch hdecide
  · rename_i hstatus
    split at hdecide
    · exact nomatch hdecide
    · rename_i hactor
      split at hdecide
      · exact nomatch hdecide
      · split at hdecide
        · exact nomatch hdecide
        · split at hdecide
          · exact nomatch hdecide
          · rename_i hlimit
            simp only [Option.bind_eq_some_iff] at hdecide
            obtain ⟨allocated, hallocated, available, havailable, hafter⟩ := hdecide
            cases hafter
            refine ⟨review, evaluation, allocated, available, hreview, hevaluation,
              not_not.mp hstatus, hactor, ?_, hallocated, havailable, rfl⟩
            intro happroved
            rw [not_and, not_or, not_le, not_lt] at hlimit
            exact hlimit happroved

/-! ## One step -/

theorem Amount.value_of_store? {value : ℚ} {amount : Amount}
    (hstore : Amount.store? value = some amount) : amount.value = toScale 2 value := by
  unfold Amount.store? at hstore
  split at hstore
  · cases hstore
    rfl
  · exact nomatch hstore

theorem mem_cases_of_file {executionId : ℕ} {file : File}
    (hfile : file ∈ state.filesOf executionId) :
    file.review ∈ state.cases.rows ∧ file.review.executionId = executionId := by
  obtain ⟨review, hreview, rfl⟩ := List.mem_map.mp hfile
  obtain ⟨hmem, hexecution⟩ := List.mem_filter.mp hreview
  exact ⟨hmem, of_decide_eq_true hexecution⟩

/-- A case stands alone in the file of its execution. -/
theorem State.Sound.of_case (hsound : state.Sound) {caseId : ℕ} {review : Case}
    (hreview : state.cases.find? caseId = some review) :
    ∃ evaluation returned history,
      state.evaluations.find? review.executionId = some evaluation ∧
        state.filesOf review.executionId = [⟨review, history⟩] ∧
        evaluation.returned = some returned ∧ evaluation.row.simulation = false ∧
        Reviewed evaluation.row returned review history := by
  have hmem : ⟨review, state.historyOf review.id⟩ ∈ state.filesOf review.executionId := by
    apply List.mem_map_of_mem
    exact List.mem_filter.mpr ⟨(Log.find?_eq_some.mp hreview).1, by simp⟩
  have hstanding := hsound.standing review.executionId
  revert hmem hstanding
  generalize state.filesOf review.executionId = files
  generalize state.evaluations.find? review.executionId = found
  intro hmem hstanding
  cases hstanding with
  | absent => simp at hmem
  | running => simp at hmem
  | unreviewed => simp at hmem
  | reviewed hreturned hsimulation hreviewed =>
    cases List.mem_singleton.mp hmem
    exact ⟨_, _, _, rfl, rfl, hreturned, hsimulation, hreviewed⟩

/-- A write to a case changes the file of its execution only. -/
theorem filesOf_record_of_ne {caseId : ℕ} {review : Case}
    (hreview : state.cases.find? caseId = some review) {change : Case → Case}
    (hid : ∀ review, (change review).id = review.id)
    (hexecution : ∀ review, (change review).executionId = review.executionId) (act : Act)
    (actor reasonCode : String) (payload : Option ℚ) {other : ℕ}
    (hother : other ≠ review.executionId) :
    (state.record caseId change hid act actor reasonCode payload).filesOf other =
      state.filesOf other := by
  rw [filesOf_record caseId hid hexecution]
  calc (state.filesOf other).map (File.acted caseId change (act, actor))
      = (state.filesOf other).map id := List.map_congr_left fun file hfile => if_neg ?_
    _ = state.filesOf other := List.map_id _
  intro hcase
  obtain ⟨hmem, hfile⟩ := mem_cases_of_file hfile
  obtain ⟨hreviewed, hcaseId⟩ := Log.find?_eq_some.mp hreview
  have hsame := state.cases.eq_of_serial_eq hmem hreviewed (hcase.trans hcaseId.symm)
  exact hother (hfile.symm.trans (congrArg Case.executionId hsame))

/-- A write to a case adds to the file of its execution. -/
theorem filesOf_record_self {caseId : ℕ} {review : Case} {history : List (Act × String)}
    (hreview : state.cases.find? caseId = some review)
    (hfiles : state.filesOf review.executionId = [⟨review, history⟩]) {change : Case → Case}
    (hid : ∀ review, (change review).id = review.id)
    (hexecution : ∀ review, (change review).executionId = review.executionId) (act : Act)
    (actor reasonCode : String) (payload : Option ℚ) :
    (state.record caseId change hid act actor reasonCode payload).filesOf review.executionId =
      [⟨change review, history ++ [(act, actor)]⟩] := by
  rw [filesOf_record caseId hid hexecution, hfiles]
  have hcaseId := (Log.find?_eq_some.mp hreview).2
  simp [File.acted, hcaseId]

theorem drawn_record (hdrawn : ∀ act ∈ state.actions.rows, act.caseId < state.cases.next)
    {caseId : ℕ} {review : Case} (hreview : state.cases.find? caseId = some review)
    {change : Case → Case} (hid : ∀ review, (change review).id = review.id) (act : Act)
    (actor reasonCode : String) (payload : Option ℚ) :
    ∀ row ∈ (state.record caseId change hid act actor reasonCode payload).actions.rows,
      row.caseId < (state.record caseId change hid act actor reasonCode payload).cases.next := by
  intro row hrow
  obtain ⟨hmem, hcaseId⟩ := Log.find?_eq_some.mp hreview
  rcases List.mem_append.mp hrow with hold | hnew
  · exact hdrawn row hold
  · rw [List.mem_singleton.mp hnew]
    exact hcaseId ▸ state.cases.below review hmem

/-- What one accepted step makes of the execution that it touches. -/
structure Touched (state : State) (event : Event) (after : State) : Prop where
  sound : after.Sound
  kept : state.Kept → (after.Kept ↔ Orderly state event)

theorem Touches.touched {event : Event} {executionId : ℕ} (hsound : state.Sound)
    (htouches : Touches state after executionId)
    (hdrawn : ∀ act ∈ after.actions.rows, act.caseId < after.cases.next)
    (hfind : after.evaluations.find? executionId = some evaluation)
    (hstanding : Standing (some evaluation) (after.filesOf executionId))
    (horderly : (evaluation.row.simulation = false →
        evaluation.Kept (after.filesOf executionId)) ↔ Orderly state event) :
    Touched state event after := by
  refine ⟨⟨?_, hdrawn⟩, ?_⟩
  · intro other
    by_cases hother : other = executionId
    · rw [hother, hfind]
      exact hstanding
    · rw [htouches.evaluations other hother, htouches.files other hother]
      exact hsound.standing other
  · intro hkept
    rw [← horderly]
    obtain ⟨hmem, hid⟩ := Log.find?_eq_some.mp hfind
    constructor
    · intro hafter hsimulation
      exact hid ▸ hafter evaluation hmem hsimulation
    · intro hown other hother hsimulation
      by_cases hsame : other.id = executionId
      · have heq := after.evaluations.eq_of_serial_eq hother hmem (hsame.trans hid.symm)
        rw [heq, hid]
        exact hown (heq ▸ hsimulation)
      · have hbefore := htouches.evaluations other.id hsame
        rw [Log.find?_eq_some.mpr ⟨hother, rfl⟩, eq_comm, Log.find?_eq_some] at hbefore
        rw [htouches.files other.id hsame]
        exact hkept other hbefore.1 hsimulation

theorem Standing.files_of_none (hstanding : Standing none files) : files = [] := by
  cases hstanding
  rfl

theorem Standing.of_running (hstanding : Standing (some evaluation) files)
    (hreturned : evaluation.returned = none) :
    evaluation.row.outcome = .processing ∧ files = [] := by
  cases hstanding with
  | running _ houtcome => exact ⟨houtcome, rfl⟩
  | unreviewed hrow => exact nomatch hreturned.symm.trans hrow
  | reviewed hrow => exact nomatch hreturned.symm.trans hrow

theorem State.Sound.start (hsound : state.Sound) {dto : EvaluateCredit}
    (hstart : state.start dto = some after) : Touched state (.start dto) after := by
  obtain ⟨make, hid, hmake, hafter⟩ := start_eq_some hstart
  have hnone : state.evaluations.find? state.evaluations.next = none := by
    rw [Option.eq_none_iff_forall_ne_some]
    intro evaluation hfind
    obtain ⟨hmem, hnext⟩ := Log.find?_eq_some.mp hfind
    exact (state.evaluations.below evaluation hmem).ne hnext
  have hfiles : after.filesOf state.evaluations.next = [] := by
    rw [hafter]
    exact Standing.files_of_none (hnone ▸ hsound.standing state.evaluations.next)
  have htouches : Touches state after state.evaluations.next := by
    constructor
    · intro other hother
      rw [hafter]
      exact Log.find?_append_of_ne _ _ hid hother
    · intro other _
      rw [hafter]
      rfl
  have hfind : after.evaluations.find? state.evaluations.next =
      some (make state.evaluations.next) := by
    rw [hafter]
    exact Log.find?_eq_some.mpr ⟨by simp, hid _⟩
  obtain ⟨hreturned, houtcome⟩ := hmake state.evaluations.next
  apply htouches.touched hsound (by rw [hafter]; exact hsound.drawn) hfind
  · rw [hfiles]
    exact .running hreturned houtcome
  · rw [hfiles]
    exact iff_of_true (fun _ => Evaluation.kept_nil (by simp [houtcome])) trivial

theorem State.Sound.finish (hsound : state.Sound) {governed : Governed} {executionId : ℕ}
    {finding : Finding} (hfinish : state.finish governed executionId finding = some after) :
    Touched state (.finish governed executionId finding) after := by
  obtain ⟨evaluation, allocated, available, hfind, hreturned, hafter⟩ := finish_eq_some hfinish
  obtain ⟨hmem, rfl⟩ := Log.find?_eq_some.mp hfind
  obtain ⟨houtcome, hfiles⟩ := Standing.of_running (hfind ▸ hsound.standing evaluation.id) hreturned
  have hown : after.evaluations.find? evaluation.id = some (Evaluation.ended
      (verdict evaluation.dto governed finding) allocated available evaluation) := by
    rw [hafter]
    exact (find?_update hfind).1
  have hothers : ∀ other, other ≠ evaluation.id →
      after.evaluations.find? other = state.evaluations.find? other := by
    rw [hafter]
    exact (find?_update hfind).2
  have horderly : Orderly state (.finish governed evaluation.id finding) ↔
      ((verdict evaluation.dto governed finding).outcome = .manualReview →
        evaluation.row.simulation = false → (governed.queueOf evaluation.row).isSome) := by
    unfold Orderly
    simp [hfind]
  by_cases hopens : (verdict evaluation.dto governed finding).outcome = .manualReview ∧
      evaluation.row.simulation = false ∧ (governed.queueOf evaluation.row).isSome
  · obtain ⟨hmanual, hsimulation, hqueued⟩ := hopens
    obtain ⟨queue, hqueue⟩ := Option.isSome_iff_exists.mp hqueued
    have hopen := hafter.trans (update_opens hmanual houtcome hsimulation hqueue hfiles)
    have hopened : ∀ other, after.filesOf other = state.filesOf other ++
        if evaluation.id = other then
          [⟨{ id := state.cases.next, executionId := evaluation.id, queueId := queue.id }, []⟩]
        else [] := by
      rw [hopen]
      exact filesOf_opened hsound.drawn _
    have htouches : Touches state after evaluation.id := by
      refine ⟨hothers, ?_⟩
      intro other hother
      rw [hopened, if_neg hother.symm, List.append_nil]
    have hdrawn : ∀ act ∈ after.actions.rows, act.caseId < after.cases.next := by
      rw [hopen]
      exact fun act hact => Nat.lt_succ_of_lt (hsound.drawn act hact)
    have hstanding : Standing (some (Evaluation.ended (verdict evaluation.dto governed finding)
        allocated available evaluation)) (after.filesOf evaluation.id) := by
      rw [hopened, hfiles, if_pos rfl]
      exact .reviewed rfl hsimulation (.pending rfl hmanual rfl)
    apply htouches.touched hsound hdrawn hown hstanding
    apply iff_of_true
    · intro _
      rw [hstanding.kept_iff, hopened, hfiles, if_pos rfl]
      simp
    · exact horderly.mpr fun _ _ => hqueued
  · have hclosed := hafter.trans <| update_closed <| by
      intro hmanual hsimulation
      rw [← Option.not_isSome_iff_eq_none]
      exact fun hqueued => hopens ⟨hmanual, hsimulation, hqueued⟩
    have hsame : ∀ other, after.filesOf other = state.filesOf other := by
      rw [hclosed]
      exact fun _ => rfl
    have hdrawn : ∀ act ∈ after.actions.rows, act.caseId < after.cases.next := by
      rw [hclosed]
      exact hsound.drawn
    have hstanding : Standing (some (Evaluation.ended (verdict evaluation.dto governed finding)
        allocated available evaluation)) (after.filesOf evaluation.id) := by
      rw [hsame, hfiles]
      exact .unreviewed rfl
    have htouches : Touches state after evaluation.id := ⟨hothers, fun other _ => hsame other⟩
    apply htouches.touched hsound hdrawn hown hstanding
    rw [hstanding.kept_iff, hsame, hfiles, horderly]
    constructor
    · intro hkept hmanual hsimulation
      exact absurd rfl ((hkept hsimulation).1 hmanual)
    · intro hqueued hsimulation
      refine ⟨?_, by simp⟩
      intro hmanual
      exact absurd ⟨hmanual, hsimulation, hqueued hmanual hsimulation⟩ hopens

theorem State.Sound.recommend (hsound : state.Sound) {governed : Governed} {caseId : ℕ}
    {dto : RecommendationDto} {actor : String}
    (hrecommend : state.recommend governed caseId dto actor = some after) :
    Touched state (.recommend governed caseId dto actor) after := by
  obtain ⟨review, hreview, hopen, hafter⟩ := recommend_eq_some hrecommend
  obtain ⟨evaluation, returned, history, hfind, hfiles, hreturned, hsimulation, hreviewed⟩ :=
    hsound.of_case hreview
  cases hreviewed with
  | recommended _ _ hstatus => simp [hstatus] at hopen
  | @decided decision _ _ _ hstatus =>
    rw [hstatus] at hopen
    cases decision <;> simp [Decision.status] at hopen
  | pending hrow houtcome hstatus =>
    have hown : after.evaluations.find? review.executionId = some evaluation := by
      rw [hafter]
      exact hfind
    have hfile : after.filesOf review.executionId =
        [⟨review.recommendedAs dto actor, [(.recommend, actor)]⟩] := by
      rw [hafter]
      exact filesOf_record_self hreview hfiles (Case.recommendedAs_id dto actor) (fun _ => rfl)
        _ _ _ _
    have htouches : Touches state after review.executionId := by
      rw [hafter]
      exact ⟨fun _ _ => rfl, fun _ =>
        filesOf_record_of_ne hreview (Case.recommendedAs_id dto actor) (fun _ => rfl) _ _ _ _⟩
    have hdrawn : ∀ act ∈ after.actions.rows, act.caseId < after.cases.next := by
      rw [hafter]
      exact drawn_record hsound.drawn hreview _ _ _ _ _
    have hstanding : Standing (some evaluation) (after.filesOf review.executionId) := by
      rw [hfile]
      exact .reviewed hreturned hsimulation (.recommended hrow houtcome rfl rfl)
    apply htouches.touched hsound hdrawn hown hstanding
    rw [hstanding.kept_iff, hfile]
    simp [Orderly]

/-- A limit that is approved means what the outcome says exactly if it covers what is requested,
owed and reserved. -/
theorem means_iff {dto : DecisionDto} {limit : ℚ} {allocated available : Amount}
    (hreturned : evaluation.returned = some evaluation.row) (happroved : dto.decision = .approved)
    (hpositive : 0 < limit) (hlimit : limit ≤ evaluation.row.allocatedLimit.value)
    (hallocated : Amount.store? limit = some allocated)
    (havailable : Amount.store? (max 0 (limit - evaluation.row.existingExposure.value -
      evaluation.row.pendingReservations.value)) = some available) :
    (evaluation.decidedAs dto allocated available).Means ↔
      evaluation.row.requestedAmount.value + evaluation.row.existingExposure.value +
        evaluation.row.pendingReservations.value ≤ toScale 2 limit := by
  have hrequested := evaluation.row.requestedAmount.nonneg
  have hallocatedValue := Amount.value_of_store? hallocated
  have havailableValue := Amount.value_of_store? havailable
  constructor
  · intro hmeans
    have hleft := hmeans.available
    have houtcome := hmeans.outcome
    simp only [Evaluation.decidedAs, happroved, Decision.outcome] at hleft houtcome
    have hcovers : evaluation.row.requestedAmount.value ≤ available.value := by
      by_contra hshort
      rw [if_neg hshort] at houtcome
      exact nomatch houtcome
    rw [hallocatedValue] at hleft
    linarith
  · intro hcovers
    have hleft : available.value = toScale 2 limit -
        (evaluation.row.existingExposure.value + evaluation.row.pendingReservations.value) := by
      rw [havailableValue, sub_sub]
      apply toScale_left hpositive.le
      · exact evaluation.row.existingExposure.cents.add evaluation.row.pendingReservations.cents
      · linarith
    refine ⟨?_, ?_, ?_⟩
    · have hcalculated : (evaluation.decidedAs dto allocated available).calculated =
          evaluation.row.allocatedLimit.value := by
        simp [Evaluation.calculated, Evaluation.decidedAs, hreturned]
      rw [hcalculated]
      calc allocated.value = toScale 2 limit := hallocatedValue
        _ ≤ toScale 2 evaluation.row.allocatedLimit.value := toScale_mono hlimit
        _ = evaluation.row.allocatedLimit.value := evaluation.row.allocatedLimit.cents.toScale
    · simp only [Evaluation.decidedAs]
      rw [hleft, hallocatedValue]
      ring
    · simp only [Evaluation.decidedAs, happroved, Decision.outcome]
      rw [if_pos]
      rw [hleft]
      linarith

/-- The outcome of a decision opens no case. -/
theorem update_decided {governed : Governed} {dto : DecisionDto} {allocated available : Amount} :
    state.update governed evaluation (Evaluation.decidedAs dto allocated available)
        (Evaluation.decidedAs_id dto allocated available) =
      { state with
        evaluations := state.evaluations.modify evaluation.id
          (Evaluation.decidedAs dto allocated available)
          (Evaluation.decidedAs_id dto allocated available) } := by
  apply update_closed
  intro hmanual
  cases hdecision : dto.decision <;>
    simp [Evaluation.decidedAs, hdecision, Decision.outcome] at hmanual

/-- A decision does not raise the limit, and a rejection leaves none. -/
theorem decided_limits {dto : DecisionDto} {review : Case} {allocated available : Amount}
    (hlimit : dto.decision = .approved →
      0 < chosenLimit dto review evaluation.row ∧
        chosenLimit dto review evaluation.row ≤ evaluation.row.allocatedLimit.value)
    (hallocated : Amount.store? (chosenLimit dto review evaluation.row) = some allocated)
    (havailable : Amount.store? (max 0 (chosenLimit dto review evaluation.row -
      evaluation.row.existingExposure.value - evaluation.row.pendingReservations.value)) =
        some available) :
    allocated.value ≤ evaluation.row.allocatedLimit.value ∧
      (dto.decision = .rejected → allocated.value = 0 ∧ available.value = 0) := by
  have hallocatedValue := Amount.value_of_store? hallocated
  have havailableValue := Amount.value_of_store? havailable
  cases hdecision : dto.decision with
  | approved =>
    refine ⟨?_, nofun⟩
    calc allocated.value = toScale 2 (chosenLimit dto review evaluation.row) := hallocatedValue
      _ ≤ toScale 2 evaluation.row.allocatedLimit.value := toScale_mono (hlimit hdecision).2
      _ = evaluation.row.allocatedLimit.value := evaluation.row.allocatedLimit.cents.toScale
  | rejected =>
    have hnone : chosenLimit dto review evaluation.row = 0 := by
      simp [chosenLimit, hdecision]
    rw [hnone, toScale_zero] at hallocatedValue
    have hover : (0 : ℚ) - evaluation.row.existingExposure.value -
        evaluation.row.pendingReservations.value ≤ 0 := by
      linarith [evaluation.row.existingExposure.nonneg, evaluation.row.pendingReservations.nonneg]
    rw [hnone, max_eq_left hover, toScale_zero] at havailableValue
    rw [hallocatedValue]
    exact ⟨evaluation.row.allocatedLimit.nonneg, fun _ => ⟨rfl, havailableValue⟩⟩

theorem State.Sound.decide (hsound : state.Sound) {governed : Governed} {caseId : ℕ}
    {dto : DecisionDto} {actor : String}
    (hdecide : state.decide governed caseId dto actor = some after) :
    Touched state (.decide governed caseId dto actor) after := by
  obtain ⟨review, evaluation, allocated, available, hreview, hfind, hstatus, hactor, hlimit,
    hallocated, havailable, hafter⟩ := decide_eq_some hdecide
  obtain ⟨evaluation', returned, history, hfind', hfiles, hreturned, hsimulation, hreviewed⟩ :=
    hsound.of_case hreview
  cases Option.some.inj (hfind.symm.trans hfind')
  obtain ⟨hmem, hid⟩ := Log.find?_eq_some.mp hfind
  have hself : state.evaluations.find? evaluation.id = some evaluation := hid ▸ hfind
  have hown : after.evaluations.find? review.executionId =
      some (evaluation.decidedAs dto allocated available) := by
    rw [hafter, ← hid]
    exact (find?_update hself).1
  have hothers : ∀ other, other ≠ review.executionId →
      after.evaluations.find? other = state.evaluations.find? other := by
    rw [hafter, ← hid]
    exact (find?_update hself).2
  rw [update_decided] at hafter
  have hfile : after.filesOf review.executionId =
      [⟨review.decidedAs dto (chosenLimit dto review evaluation.row) actor,
        history ++ [(.decide dto.decision, actor)]⟩] := by
    rw [hafter]
    exact filesOf_record_self hreview hfiles (Case.decidedAs_id dto _ actor) (fun _ => rfl) _ _ _ _
  have htouches : Touches state after review.executionId := by
    refine ⟨hothers, ?_⟩
    rw [hafter]
    exact fun _ =>
      filesOf_record_of_ne hreview (Case.decidedAs_id dto _ actor) (fun _ => rfl) _ _ _ _
  have hdrawn : ∀ act ∈ after.actions.rows, act.caseId < after.cases.next := by
    rw [hafter]
    exact drawn_record hsound.drawn hreview _ _ _ _ _
  cases hreviewed with
  | pending _ _ hopen => exact nomatch hstatus.symm.trans hopen
  | @decided decision _ _ _ hdecided =>
    rw [hstatus] at hdecided
    cases decision <;> exact nomatch hdecided
  | @recommended recommender hrow houtcome _ hrecommender =>
    subst hrow
    have hne : recommender ≠ actor := fun h => hactor (h ▸ hrecommender)
    have hdecided := decided_limits hlimit hallocated havailable
    have hstanding : Standing (some (evaluation.decidedAs dto allocated available))
        (after.filesOf review.executionId) := by
      rw [hfile]
      exact .reviewed hreturned hsimulation (.decided hne rfl rfl hdecided.1 hdecided.2)
    apply htouches.touched hsound hdrawn hown hstanding
    rw [hstanding.kept_iff, hfile]
    unfold Orderly
    cases hdecision : dto.decision with
    | rejected => simp [hdecision]
    | approved =>
      have hmeans := means_iff hreturned hdecision (hlimit hdecision).1 (hlimit hdecision).2
        hallocated havailable
      have hsimulation' :
          (evaluation.decidedAs dto allocated available).row.simulation = false := hsimulation
      simp [hsimulation', hdecision, hreview, hfind, hmeans]

/-! ## All runs -/

theorem Sound.step (hsound : state.Sound) (event : Event)
    (hstep : Review.step state event = some after) : Touched state event after := by
  cases event with
  | start dto => exact hsound.start hstep
  | finish governed executionId finding => exact hsound.finish hstep
  | recommend governed caseId dto actor => exact hsound.recommend hstep
  | decide governed caseId dto actor => exact hsound.decide hstep

theorem sound_empty : State.Sound {} where
  standing _ := .absent
  drawn := by simp

/-- In orderly runs reviews keep the meaning of decisions, and the first step that is not orderly
breaks it. -/
theorem review_keeps_meaning {state : State} (hrun : ReachesUnder step Orderly {} state) :
    state.Kept ∧
      ∀ event after, step state event = some after → (after.Kept ↔ Orderly state event) := by
  have hboth : state.Sound ∧ state.Kept := by
    apply hrun.preserves (fun state => state.Sound ∧ state.Kept)
    · rintro before event after ⟨hsound, hkept⟩ horderly hstep
      have htouched := Sound.step hsound event hstep
      exact ⟨htouched.sound, (htouched.kept hkept).mpr horderly⟩
    · exact ⟨sound_empty, by simp [State.Kept]⟩
  obtain ⟨hsound, hkept⟩ := hboth
  constructor
  · exact hkept
  · intro event after hstep
    exact (Sound.step hsound event hstep).kept hkept

end

/-! ## A limit that does not cover the request -/

/-- Ten thousand at most, all of it reviewed. -/
def reviewedMaster : MasterFields where
  name := "Retail"
  customerCategory := "A"
  productId := "LOAN"
  maximumLimit := 10000

/-- One queue, one reason for approvals and one active binding. -/
def oneQueue : Governed where
  queues := ⟨[{ id := 1, countryCode := some "UGA", productId := some "LOAN", isActive := true }],
    by decide⟩
  reasons := ⟨[{ code := "MANUAL_APPROVED", decisionType := .technical, isActive := true }],
    by decide⟩
  commercial :=
    { lenders :=
        .single
          { id := 1, code := "DTB", name := "DTB", countryCode := "UGA", status := .active
            merchantId := none }
      bindings := Log.empty.append
        (fun id =>
          { id := id, code := "LOAN", version := 1, status := .active
            terms :=
              { productId := "LOAN", countryCode := "UGA", currency := "UGX", channel := none
                walletTypeCode := 103, sourceReference := "policy", lenderId := some 1
                activationBlockers := [] }
            createdBy := "maker", createdAt := 0, modifiedBy := none, updatedAt := 0 })
        fun _ => rfl }

/-- A request for an amount is sent to review with a limit of a thousand. -/
def reviewOf (governed : Governed) (requestedAmount : ℚ) : List Event :=
  [.start
    { productId := "LOAN", currency := some "UGX", requestedAmount := requestedAmount
      decisionInputs := { grade := "A", channel := "APP", countryCode := "UGA" } },
   .finish governed 1 (.ruled "A" reviewedMaster { currentLimit := some 1000 })]

/-- The reviewers approve the limit as it was calculated. -/
def approvals : List Event :=
  [.recommend oneQueue 1 { recommendation := .approve, reasonCode := "MANUAL_APPROVED" } "officer",
   .decide oneQueue 1 { decision := .approved, reasonCode := "MANUAL_APPROVED" } "manager"]

/-- A request within the limit is approved in an orderly run. -/
theorem review_keeps_meaning_within_limit :
    ∃ state, ReachesUnder step Orderly {} state ∧
      state.evaluations.rows.map (·.row.outcome) = [.autoApproved] ∧ state.Kept := by
  have hany : (runInputs (guardedStep step Orderly) {} (reviewOf oneQueue 800 ++ approvals)).any
      (fun state => decide (state.evaluations.rows.map (·.row.outcome) = [.autoApproved])) := by
    decide +kernel
  obtain ⟨state, hrun, houtcome⟩ := (Option.any_eq_true _ _).mp hany
  have hreaches := (Reaches.of_runInputs hrun).under
  exact ⟨state, hreaches, of_decide_eq_true houtcome, (review_keeps_meaning hreaches).1⟩

/-- A request for five thousand is approved although a thousand is available, and a request that
finds no queue waits for a review without a case. -/
theorem review_breaks_meaning :
    (∃ state, Reaches step {} state ∧
      state.evaluations.rows.map (fun evaluation => (evaluation.row.outcome,
        evaluation.row.requestedAmount.value, evaluation.row.availableLimit.value)) =
          [(.autoApproved, 5000, 1000)] ∧ ¬ state.Kept) ∧
      ∃ state, Reaches step {} state ∧
        state.evaluations.rows.map (·.row.outcome) = [.manualReview] ∧ state.cases.rows = [] ∧
          ¬ state.Kept := by
  constructor
  · have hany : (runInputs step {} (reviewOf oneQueue 5000 ++ approvals)).any (fun state =>
        decide (state.evaluations.rows.map (fun evaluation => (evaluation.row.outcome,
          evaluation.row.requestedAmount.value, evaluation.row.availableLimit.value)) =
            [(.autoApproved, 5000, 1000)] ∧
          ∃ evaluation ∈ state.evaluations.rows, evaluation.row.simulation = false ∧
            evaluation.row.outcome = .autoApproved ∧
            evaluation.row.availableLimit.value < evaluation.row.requestedAmount.value ∧
            ∃ file ∈ state.filesOf evaluation.id,
              (.decide .approved, "manager") ∈ file.history)) := by
      decide +kernel
    obtain ⟨state, hrun, hfacts⟩ := (Option.any_eq_true _ _).mp hany
    obtain ⟨hrows, evaluation, hmem, hsimulation, houtcome, hshort, file, hfile, happroved⟩ :=
      of_decide_eq_true hfacts
    refine ⟨state, .of_runInputs hrun, hrows, ?_⟩
    intro hkept
    have hmeans := (hkept evaluation hmem hsimulation).approved file hfile _ happroved
    have hother := hmeans.outcome
    rw [houtcome, if_neg (not_le.mpr hshort)] at hother
    exact nomatch hother
  · have hany : (runInputs step {} (reviewOf {} 5000)).any (fun state =>
        decide (state.evaluations.rows.map (·.row.outcome) = [.manualReview] ∧
          state.cases.rows = [] ∧
          ∃ evaluation ∈ state.evaluations.rows, evaluation.row.simulation = false ∧
            evaluation.row.outcome = .manualReview ∧ state.filesOf evaluation.id = [])) := by
      decide +kernel
    obtain ⟨state, hrun, hfacts⟩ := (Option.any_eq_true _ _).mp hany
    obtain ⟨hrows, hcases, evaluation, hmem, hsimulation, houtcome, hfiles⟩ :=
      of_decide_eq_true hfacts
    refine ⟨state, .of_runInputs hrun, hrows, hcases, ?_⟩
    intro hkept
    obtain ⟨file, hfile⟩ := (hkept evaluation hmem hsimulation).one_case houtcome
    exact nomatch hfiles.symm.trans hfile

end Finify.Credit.Review
