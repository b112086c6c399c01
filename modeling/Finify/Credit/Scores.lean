/-
# Scores and their snapshots

How an evaluation comes to a score: it is submitted, read from the snapshots, or fetched from the
provider.  Each call of `resolveScore` is one step; what it finds of the provider, what the
provider answers and which of several rows the query returns come with the call.  Categories are
in capitals; models and their versions, and dates that do not parse, are left out.
-/

import Finify.Credit.Amounts
import Finify.Credit.Tables
import Finify.Foundations.Freshness
import Finify.Foundations.Transition

namespace Finify.Credit.Scores

open Finify.Foundations

/-! ## Rows -/

/-- `AiResult`. -/
structure AiResult where
  score : ℚ
  category : String
  referenceId : Option String := none
  scoredAt : Option ℤ := none
  expiresAt : Option ℤ := none
  deriving DecidableEq

/-- What is read of the answer of a provider; the score is none where it is not finite. -/
structure Payload where
  score : Option ℚ
  category : String
  referenceId : Option String := none
  scoredAt : Option ℤ := none
  deriving DecidableEq

/-- `credit_ai_score_snapshots`. -/
structure Snapshot where
  id : ℕ
  customerId : String
  providerId : ℕ
  score : ℚ
  category : String
  externalReference : Option String
  scoredAt : ℤ
  expiresAt : ℤ
  deriving DecidableEq

/-- What `evaluate` writes of the score into an execution. -/
structure Execution where
  id : ℕ
  customerId : String
  aiScoreSnapshotId : Option ℕ
  aiScore : ℚ
  customerCategory : String
  deriving DecidableEq

/-- A result that was submitted for a customer or fetched. -/
structure Obtained where
  customerId : String
  providerId : ℕ
  score : ℚ
  category : String
  deriving DecidableEq

/-- The tables, the results in the order in which they were obtained, and the time. -/
structure State where
  snapshots : Log Snapshot.id := .empty
  executions : Log Execution.id := .empty
  obtained : List Obtained := []
  now : ℤ := 0

/-- A call of `evaluate`: what it is given, what it finds, and the times of the database and of
the service. -/
structure Call where
  customerId : String
  provider : Option Provider
  aiResult : Option AiResult := none
  forceRescore : Bool := false
  cached : Option Snapshot := none
  payload : Option Payload := none
  now : ℤ
  clock : ℤ
  deriving DecidableEq

/-- `ScoreResult`. -/
structure ScoreResult where
  score : ℚ
  category : String
  snapshotId : Option ℕ
  deriving DecidableEq

/-! ## Resolving a score -/

def State.snapshotsOf (state : State) (customerId : String) (providerId : ℕ) : List Snapshot :=
  state.snapshots.rows.filter fun row => row.customerId = customerId && row.providerId = providerId

/-- `validateScore`. -/
def validateScore (result : AiResult) (provider : Option Provider) : Bool :=
  result.category ≠ "" && provider.all fun provider =>
    provider.fields.scoreMin.all (· ≤ result.score) &&
      provider.fields.scoreMax.all (result.score ≤ ·)

def AiResult.scored (result : AiResult) (clock : ℤ) : ℤ := result.scoredAt.getD clock

def AiResult.expires (result : AiResult) (provider : Provider) (clock : ℤ) : ℤ :=
  result.expiresAt.getD (result.scored clock + provider.fields.validityMinutes * 60000)

/-- The row that is inserted for a result. -/
def Snapshot.of (customerId : String) (provider : Provider) (result : AiResult) (clock : ℤ)
    (id : ℕ) : Snapshot where
  id := id
  customerId := customerId
  providerId := provider.id
  score := toScale 4 result.score
  category := result.category
  externalReference := result.referenceId
  scoredAt := result.scored clock
  expiresAt := result.expires provider clock

theorem Snapshot.of_id (customerId : String) (provider : Provider) (result : AiResult) (clock : ℤ)
    (id : ℕ) : (Snapshot.of customerId provider result clock id).id = id := rfl

/-- The row after `DO UPDATE SET customer_id`. -/
def Snapshot.moved (customerId : String) (snapshot : Snapshot) : Snapshot :=
  { snapshot with customerId := customerId }

theorem Snapshot.moved_id (customerId : String) (snapshot : Snapshot) :
    (snapshot.moved customerId).id = snapshot.id := rfl

/-- The row that `UQ_CREDIT_SCORE_EXTERNAL_REFERENCE` conflicts with. -/
def State.referenced (state : State) (providerId : ℕ) (reference : Option String) :
    Option Snapshot :=
  reference.bind fun reference => state.snapshots.rows.find? fun row =>
    row.providerId = providerId && row.externalReference = some reference

/-- `saveSnapshot`. -/
def State.saveSnapshot (state : State) (customerId : String) (provider : Provider)
    (result : AiResult) (clock : ℤ) : Option (State × ℕ) :=
  if result.expires provider clock ≤ result.scored clock then none
  else
    match state.referenced provider.id result.referenceId with
    | some old =>
      some ({ state with
        snapshots := state.snapshots.modify old.id (Snapshot.moved customerId)
          (Snapshot.moved_id customerId) }, old.id)
    | none =>
      some ({ state with
        snapshots := state.snapshots.append (Snapshot.of customerId provider result clock)
          (Snapshot.of_id customerId provider result clock) }, state.snapshots.next)

/-- The result is checked, saved and used. -/
def State.obtain (state : State) (call : Call) (provider : Provider) (result : AiResult) :
    Option (State × ScoreResult) :=
  if validateScore result (some provider) then
    (state.saveSnapshot call.customerId provider result call.clock).map fun saved =>
      ({ saved.1 with
          obtained := saved.1.obtained ++
            [⟨call.customerId, provider.id, result.score, result.category⟩] },
        ⟨result.score, result.category, some saved.2⟩)
  else none

/-- The result that is read from the answer of the provider. -/
def Call.fetch (call : Call) (provider : Provider) : Option AiResult :=
  call.payload.bind fun payload => payload.score.map fun score =>
    let scoredAt := payload.scoredAt.getD call.clock
    { score := score, category := payload.category, referenceId := payload.referenceId
      scoredAt := some scoredAt
      expiresAt := some (scoredAt + provider.fields.validityMinutes * 60000) }

/-- `resolveScore`. -/
def State.resolveScore (state : State) (call : Call) : Option (State × ScoreResult) :=
  match call.aiResult, call.provider with
  | some result, some provider => state.obtain call provider result
  | some result, none =>
    if validateScore result none then some (state, ⟨result.score, result.category, none⟩)
    else none
  | none, none => none
  | none, some provider =>
    if provider.fields.providerMode = .submitted then none
    else if call.forceRescore then (call.fetch provider).bind (state.obtain call provider)
    else if ¬ LooksUp Snapshot.scoredAt Snapshot.expiresAt
        (state.snapshotsOf call.customerId provider.id) call.now call.cached then none
    else
      match call.cached with
      | some row => some (state, ⟨row.score, row.category, some row.id⟩)
      | none => (call.fetch provider).bind (state.obtain call provider)

/-- A call whose score is resolved; the time of the database does not go back. -/
def step (state : State) (call : Call) : Option State :=
  if call.now < state.now then none
  else
    (state.resolveScore call).map fun resolved =>
      { resolved.1 with
        now := call.now
        executions := resolved.1.executions.append
          (fun id =>
            { id := id, customerId := call.customerId, aiScoreSnapshotId := resolved.2.snapshotId
              aiScore := resolved.2.score, customerCategory := resolved.2.category })
          fun _ => rfl }

/-! ## What is expected of the cache -/

def State.lastObtained (state : State) (customerId : String) (providerId : ℕ) :
    Option (ℚ × String) :=
  (state.obtained.filter fun result =>
    result.customerId = customerId && result.providerId = providerId).getLast?.map fun result =>
      (result.score, result.category)

/-- From now on the snapshots answer with the result that was obtained last. -/
def State.Truthful (state : State) : Prop :=
  ∀ customerId providerId later, state.now ≤ later → ∀ row,
    Answers Snapshot.scoredAt Snapshot.expiresAt (state.snapshotsOf customerId providerId) later
        row →
      state.lastObtained customerId providerId = some (row.score, row.category)

/-- The snapshot of an execution holds the score that it used. -/
def State.Backed (state : State) : Prop :=
  ∀ execution ∈ state.executions.rows, ∀ snapshotId ∈ execution.aiScoreSnapshotId,
    ∃ row ∈ state.snapshots.rows, row.id = snapshotId ∧ row.score = execution.aiScore

/-- What other customers see of the snapshots from now on is as it was. -/
def Undisturbed (state : State) (call : Call) (after : State) : Prop :=
  ∀ customerId, customerId ≠ call.customerId → ∀ providerId later, call.now ≤ later →
    ∀ returned,
      (LooksUp Snapshot.scoredAt Snapshot.expiresAt (after.snapshotsOf customerId providerId) later
          returned ↔
        LooksUp Snapshot.scoredAt Snapshot.expiresAt (state.snapshotsOf customerId providerId)
          later returned)

def Call.result? (call : Call) (provider : Provider) : Option AiResult :=
  match call.aiResult with
  | some result => some result
  | none => if call.forceRescore || call.cached.isNone then call.fetch provider else none

def State.standing (state : State) (call : Call) (provider : Provider) (result : AiResult) :
    Snapshot :=
  match state.referenced provider.id result.referenceId with
  | some old => old.moved call.customerId
  | none => .of call.customerId provider result call.clock state.snapshots.next

/-- The snapshot that stands for a result holds its score, outranks what else the customer has of
the provider, and was not to be returned to another customer. -/
structure Fits (state : State) (call : Call) (provider : Provider) (result : AiResult) : Prop where
  holds : (state.standing call provider result).score = result.score
  outranks :
    ∀ row ∈ state.standing call provider result :: state.snapshotsOf call.customerId provider.id,
      ¬ (result.score, result.category) = (row.score, row.category) → call.now < row.expiresAt →
        ∃ better ∈
            state.standing call provider result :: state.snapshotsOf call.customerId provider.id,
          Outranks Snapshot.scoredAt Snapshot.expiresAt better row
  spares :
    ∀ old ∈ state.referenced provider.id result.referenceId, old.customerId ≠ call.customerId →
      old.expiresAt ≤ call.now ∨ ∃ better ∈ state.snapshotsOf old.customerId provider.id,
        Outranks Snapshot.scoredAt Snapshot.expiresAt better old

/-- A result that is obtained fits. -/
def Orderly (state : State) (call : Call) : Prop :=
  ∀ provider ∈ call.provider, ∀ result ∈ call.result? provider, Fits state call provider result

end Finify.Credit.Scores
