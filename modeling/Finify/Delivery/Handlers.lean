/-
# The calls of the consumer

A handler of the consumer calls the posting procedure for one transaction and
finalises the transaction's AML reservation as the answer tells it.  This module
lists the places that call the procedure, with the outcome that each of them
takes from an answer, and says once how such a call can end: the operation has
its journal already, the call is refused, or it commits.
-/

import Finify.Aml.Runs
import Finify.Posting.Postings

namespace Finify.Delivery

open Finify.Foundations Finify.Posting

/-! ## Handlers -/

/-- The places from which the consumer calls the posting procedure.  The first
five are methods of the transaction reader, the last two the decisions of a
merchant's callback. -/
inductive Handler
  | processDirect
  | processSpecialMerchant
  | settleSpecialTransaction
  | reverseRejectedSpecialTransaction
  | processDisputeReversal (mode : Mode)
  | approved
  | rejected
  deriving DecidableEq, Repr

namespace Handler

def operation : Handler → Operation
  | processDirect => .direct
  | processSpecialMerchant => .reserve
  | settleSpecialTransaction => .settle
  | reverseRejectedSpecialTransaction => .reverse .twoLeg
  | processDisputeReversal mode => .reverse mode
  | approved => .settle
  | rejected => .reverse .twoLeg

end Handler

/-- Mode, action and leg as `post` passes them. -/
def operationCall (operation : Operation) (message : Payload) : Call :=
  let mode : ModeText := match operation.mode with
    | .direct => .direct
    | .twoLeg => .twoLeg
  match operation with
  | .direct => { payload := message, mode := some mode, action := some .post, leg := some 1 }
  | .reserve => { payload := message, mode := some mode, action := some .post, leg := some 1 }
  | .settle => { payload := message, mode := some mode, action := some .post, leg := some 2 }
  | .reverse _ =>
    { payload := { message with transactionAction := some .reverse },
      mode := some mode, action := some .reverse }

theorem operationCall_transactionId (operation : Operation) (message : Payload) :
    (operationCall operation message).payload.transactionId = message.transactionId := by
  cases operation <;> rfl

theorem operation?_operationCall (operation : Operation) (message : Payload) :
    (operationCall operation message).operation? = some operation := by
  rcases operation with _ | _ | _ | ⟨_ | _⟩ <;> rfl

/-- `RETRYABLE_POSTING_STATUSES`. -/
def retryable : PostingCode → Bool
  | .operationInProgress => true
  | .walletNotAvailable => true
  | .settlementBlocked => true
  | .reversalBlocked => true
  | _ => false

/-- `acceptPostingResult`. -/
def acceptPostingResult (result : Result) (acceptedStatuses : List PostingCode) : Bool :=
  result.success && acceptedStatuses.contains result.statusCode

/-- The outcome with which the handler then finalises the reservation, if it does. -/
def Handler.finalizes (handler : Handler) (result : Result) : Option Aml.Outcome :=
  match handler with
  | processDirect =>
    if acceptPostingResult result [.completed, .alreadyCompleted] then some .completed
    else if retryable result.statusCode then none
    else some .released
  | processSpecialMerchant =>
    if acceptPostingResult result [.reserved, .alreadyReserved, .alreadyCompleted] then
      if result.statusCode = .alreadyCompleted then some .completed else none
    else if retryable result.statusCode then none
    else some .released
  | settleSpecialTransaction =>
    if acceptPostingResult result [.completed, .alreadyCompleted] then some .completed else none
  | reverseRejectedSpecialTransaction =>
    if acceptPostingResult result [.reversed, .alreadyReversed] then some .released else none
  | processDisputeReversal _ =>
    if acceptPostingResult result [.reversed, .alreadyReversed] then some .reversed else none
  | approved => if result.success then some .completed else none
  | rejected => if result.success then some .released else none

/-! ## How a call ends -/

/-- Every exit of the deciding half has `success = false`, and only marks the
request as failed under a condition. -/
def Refuses {α : Type} (marks : Prop) (decision : Except Exit α) : Prop :=
  ∀ exit, decision = .error exit →
    exit.result.success = false ∧ ∀ result, exit = .failed result → marks

section Refuses

variable {α : Type} {marks : Prop}

theorem refuses_ok (result : α) : Refuses marks (.ok result) := by
  intro exit hexit
  cases hexit

theorem refuses_refuse (transactionId : Option ℤ) (code : PostingCode) (message : String) :
    Refuses marks (refuse transactionId code message : Except Exit α) := by
  intro exit hexit
  cases hexit
  exact ⟨rfl, fun _ hfailed => by cases hfailed⟩

theorem refuses_refuseOperation (transactionId : ℤ) (operation : Operation) (code : PostingCode)
    (message : String) :
    Refuses (operation = .direct ∨ operation = .reserve)
      (refuseOperation transactionId operation code message : Except Exit α) := by
  intro exit hexit
  cases operation with
  | direct =>
    cases hexit
    exact ⟨rfl, fun _ _ => .inl rfl⟩
  | reserve =>
    cases hexit
    exact ⟨rfl, fun _ _ => .inr rfl⟩
  | settle | reverse mode =>
    cases hexit
    exact ⟨rfl, fun _ hfailed => by cases hfailed⟩

theorem refuses_planPosting (request : Request) (operation : Operation) (terms : Terms)
    (payload : Payload) (originalJournalId : Option ℕ) (currency : String)
    (lines : PostingAmounts → Terms → String → List Line) :
    Refuses marks
      (planPosting request operation terms payload originalJournalId currency lines) := by
  unfold planPosting
  simp only
  split
  · exact refuses_refuse _ _ _
  · exact refuses_ok _

theorem refuses_planFirstLeg (request : Request) (operation : Operation) (terms : Terms)
    (payload : Payload) (lines : PostingAmounts → Terms → String → List Line) :
    Refuses marks (planFirstLeg request operation terms payload lines) := by
  unfold planFirstLeg
  split
  · exact refuses_refuse _ _ _
  · exact refuses_planPosting _ _ _ _ _ _ _

theorem refuses_planOperation (db : Posting.Db) (request : Request) (operation : Operation)
    (terms : Terms) (payload : Payload) :
    Refuses marks (db.planOperation request operation terms payload) := by
  cases operation with
  | direct => exact refuses_planFirstLeg _ _ _ _ _
  | reserve => exact refuses_planFirstLeg _ _ _ _ _
  | settle =>
    show Refuses marks (db.planSettle request terms payload)
    unfold Db.planSettle
    split
    · exact refuses_refuse _ _ _
    · exact refuses_planPosting _ _ _ _ _ _ _
  | reverse mode =>
    show Refuses marks (db.planReverse request terms payload mode)
    unfold Db.planReverse
    simp only
    split
    · exact refuses_refuse _ _ _
    · split
      · exact refuses_refuse _ _ _
      · exact refuses_ok _

theorem refuses_checkLines (db : Posting.Db) (transactionId : ℤ) (operation : Operation)
    (lines : List Line) :
    Refuses (operation = .direct ∨ operation = .reserve)
      (db.checkLines transactionId operation lines) := by
  unfold Db.checkLines
  simp only
  split
  · exact refuses_refuseOperation _ _ _ _
  · split
    · exact refuses_refuse _ _ _
    · split
      · exact refuses_refuseOperation _ _ _ _
      · exact refuses_ok _

/-- The part of the deciding half that follows when the operation has no journal. -/
theorem refuses_unposted (db : Posting.Db) (request : Request) (operation : Operation)
    (payload : Payload) :
    Refuses (request.terms? = none ∨ operation = .direct ∨ operation = .reserve)
      (do
        let terms ← requireTerms request
        let plan ← db.planOperation request operation terms payload
        db.checkLines plan.transactionId plan.operation plan.lines
        return plan) := by
  intro exit hexit
  rcases bind_eq_error hexit with hterms | ⟨terms, _, hexit⟩
  · unfold requireTerms at hterms
    split at hterms
    case h_1 => cases hterms
    case h_2 hnone =>
      cases hterms
      exact ⟨rfl, fun _ _ => .inl hnone⟩
  rcases bind_eq_error hexit with hplan | ⟨plan, hplan, hexit⟩
  · exact refuses_planOperation _ _ _ _ _ _ hplan
  rcases bind_eq_error hexit with hcheck | ⟨_, _, hexit⟩
  · obtain ⟨_, hplanned⟩ := Db.planOperation_eq_ok hplan
    rw [hplanned] at hcheck
    obtain ⟨hfailure, hmarks⟩ := refuses_checkLines _ _ _ _ _ hcheck
    exact ⟨hfailure, fun result hfailed => .inr (hmarks result hfailed)⟩
  · cases hexit

end Refuses

/-- How a call for an operation of a transaction ends. -/
inductive Answered (before : Posting.Db) (transactionId : ℤ) (operation : Operation) (call : Call) :
    Result → Posting.Db → Prop
  | unknown {result : Result} (hnone : before.requests.find? transactionId = none)
      (hfailure : result.success = false) : Answered before transactionId operation call result before
  | existing {request : Request} {journal : Journal}
      (hfound : before.requests.find? transactionId = some request)
      (hjournal : before.findJournal transactionId operation = some journal) :
      Answered before transactionId operation call
        (before.existingResult request operation journal) before
  | refused {request : Request} {result : Result}
      (hfound : before.requests.find? transactionId = some request)
      (hunposted : before.findJournal transactionId operation = none)
      (hfailure : result.success = false) : Answered before transactionId operation call result before
  | failed {request : Request} {result : Result}
      (hfound : before.requests.find? transactionId = some request)
      (hunposted : before.findJournal transactionId operation = none)
      (hfailure : result.success = false)
      (hmarks : request.terms? = none ∨ operation = .direct ∨ operation = .reserve) :
      Answered before transactionId operation call result (before.failRequest call)
  | committed {request : Request} {terms : Terms} {plan : Plan} {journalId : ℕ}
      {entries : List Entry} {after : Posting.Db} (hplan : before.plan call = .ok plan)
      (hplanned : Planned before call request terms plan)
      (hcommitted : Committed before plan journalId entries after)
      (htransaction : plan.transactionId = transactionId) (hoperation : plan.operation = operation) :
      Answered before transactionId operation call (after.postedResult plan journalId) after

/-- What an exit of the deciding half leaves behind. -/
theorem answered_of_exit {before : Posting.Db} {call : Call} {transactionId : ℤ}
    {operation : Operation} {exit : Exit}
    (htransaction : call.payload.transactionId = some transactionId)
    (hoperation : call.operation? = some operation) (hexit : before.plan call = .error exit) :
    Answered before transactionId operation call exit.result
      (match exit with
        | .returned _ => before
        | .failed _ => before.failRequest call) := by
  unfold Db.plan at hexit
  cases hfound : before.requests.find? transactionId with
  | none =>
    have haddress : before.address call =
        refuse (some transactionId) .transactionNotFound "Transaction request was not found" := by
      simp only [Db.address, htransaction, hfound]
    rw [haddress] at hexit
    cases hexit
    exact .unknown hfound rfl
  | some request =>
    have haddress : before.address call = .ok (request, operation) := by
      simp only [Db.address, htransaction, hfound, hoperation]
    obtain rfl := (Table.find?_eq_some.mp hfound).2
    rw [haddress] at hexit
    simp only [bind, Except.bind] at hexit
    cases hjournal : before.findJournal request.transactionId operation with
    | some journal =>
      rw [hjournal] at hexit
      cases hexit
      exact .existing hfound hjournal
    | none =>
      rw [hjournal] at hexit
      obtain ⟨hfailure, hmarks⟩ := refuses_unposted before request operation _ exit hexit
      cases exit with
      | returned result => exact .refused hfound hjournal hfailure
      | failed result => exact .failed hfound hjournal hfailure (hmarks result rfl)

/-- A call of the posting procedure that does not raise ends in one of the five
ways. -/
theorem answered_of_call {before after : Posting.Db} {call : Call} {result : Result}
    {transactionId : ℤ}
    {operation : Operation} (htransaction : call.payload.transactionId = some transactionId)
    (hoperation : call.operation? = some operation)
    (hcall : before.directFinifyTransaction call = some (result, after)) :
    Answered before transactionId operation call result after := by
  unfold Db.directFinifyTransaction at hcall
  split at hcall
  case h_1 hexit =>
    cases hcall
    exact answered_of_exit htransaction hoperation hexit
  case h_2 hexit =>
    cases hcall
    exact answered_of_exit htransaction hoperation hexit
  case h_3 plan hplan =>
    obtain ⟨⟨journalId, committed⟩, hcommit, hresult⟩ := Option.map_eq_some_iff.mp hcall
    cases hresult
    obtain ⟨request, terms, hplanned⟩ := Db.plan_eq_ok hplan
    obtain ⟨entries, hcommitted⟩ := Db.commit_eq_some hcommit
    have hown : plan.transactionId = transactionId := by
      have hsame := hplanned.transaction.symm.trans htransaction
      rw [hplanned.transactionId, Option.some.inj hsame]
    exact .committed hplan hplanned hcommitted hown
      (Option.some.inj (hplanned.operation.symm.trans hoperation))

end Finify.Delivery
