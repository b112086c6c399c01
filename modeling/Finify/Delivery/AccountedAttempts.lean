/-
# Attempts that end accounted for

A request that is stored is marked as failed on every path on which an exception is
caught.  The calls between its storing and its pricing are not on such a path; and
what is undone can fail to be undone, as what has failed can have been done.
-/

import Finify.Aml.DayLimits
import Finify.Delivery.Attempts
import Finify.Delivery.Agreement

namespace Finify.Delivery.Attempts

open Foundations

section

variable {start world : World} {dto : CreateTransaction} {identity : String} {answers : Answers}
  {request : Request} {prepared : Prepared}

/-! ## The condition -/

def stored? (dto : CreateTransaction) (identity : String) (answers : Answers) : Option Request :=
  if dto.mobileNumber = identity ∧ answers.ownership.toOption = some true ∧
      answers.save ≠ .lost then
    (create dto answers).toOption
  else none

/-- The status is written and the message accepted. -/
def Answers.sends (answers : Answers) : Bool :=
  decide (answers.update = .done) && answers.send.toOption.isSome

/-- The reservation procedure grants the capacity. -/
def World.grants (world : World) (answers : Answers) (request : Request) : Bool :=
  (world.aml.amlReserve answers.now (reserveCall request)).any fun answer => answer.1.success

/-- Capacity is reserved for the attempt. -/
def Reserves (start : World) (answers : Answers) (request : Request) (prepared : Prepared) :
    Prop :=
  prepared.keyword.isSystemKeyword = false ∧ answers.reserve ≠ .lost ∧
    start.grants answers request = true

/-- The attempt gets as far as its message, which is accepted. -/
def Submits (start : World) (answers : Answers) (request : Request) (prepared : Prepared) : Prop :=
  (prepared.keyword.isSystemKeyword = true ∨
    answers.reserve = .done ∧ start.grants answers request = true) ∧ answers.sends = true

/-- No exception leaves the function between the storing of the request and the pricing, nor is
one thrown by a storing that took effect; a request that is not submitted is marked as failed; and
capacity that is reserved is known to be, and given back if the request is not submitted. -/
def Orderly (start : World) (dto : CreateTransaction) (identity : String) (answers : Answers) :
    Prop :=
  ∀ request ∈ stored? dto identity answers,
    answers.save = .done ∧
      (∀ message, verify dto answers request.transactionId ≠ .error (.escapes message)) ∧
      ((∀ prepared, verify dto answers request.transactionId = .ok prepared →
        ¬ Submits start answers request prepared) → answers.mark ≠ .lost) ∧
      ∀ prepared, verify dto answers request.transactionId = .ok prepared →
        Reserves start answers request prepared →
          answers.reserve = .done ∧ (answers.sends = false → answers.release ≠ .lost)

/-! ## Marking a request as failed -/

/-- An attempt that has stored its request and sent nothing. -/
structure World.Open (world start : World) (transactionId status : ℤ) : Prop where
  messages : world.messages = start.messages
  stored : world.requestStatus transactionId = some status
  unmarked : status ≠ 3

theorem World.requestStatus_modify {world : World} {transactionId status : ℤ}
    (hstatus : world.requestStatus transactionId = some status) {change : Request → Request}
    (hkey : ∀ request, (change request).transactionId = request.transactionId) {next : ℤ}
    (hnext : ∀ request, (change request).transactionStatus = next) :
    World.requestStatus { world with requests := world.requests.modify transactionId change hkey }
      transactionId = some next := by
  obtain ⟨request, hfind, _⟩ := Option.map_eq_some_iff.mp hstatus
  rw [World.requestStatus, Table.find?_modify_of_find? hfind, Option.map_some, hnext]

/-- An attempt that fails is accounted for when nothing is pending and the request is marked. -/
theorem fail_accounted {status : ℤ} {reply : Answer Response}
    (hopen : world.Open start answers.transactionId status)
    (hreply : succeeds reply = false) :
    Accounted start answers (world.fail answers answers.transactionId reply) ↔
      answers.mark ≠ .lost ∧ world.amlStatus answers.transactionId ≠ some .pending := by
  have hmarked : World.requestStatus { world with
      requests := world.requests.modify answers.transactionId Request.failed
        Request.failed_transactionId } answers.transactionId = some 3 :=
    World.requestStatus_modify hopen.stored _ fun _ => rfl
  have hfailed : ∀ {outcome : Outcome}, succeeds outcome.reply = false →
      outcome.world.messages = start.messages → outcome.world.aml = world.aml →
      (Accounted start answers outcome ↔
        (∀ status ∈ outcome.world.requestStatus answers.transactionId, status = 3) ∧
          world.amlStatus answers.transactionId ≠ some .pending) := by
    intro outcome hunsuccessful hmessages haml
    rw [Accounted]
    simp only [hunsuccessful, Bool.false_eq_true, if_false, hmessages, true_and,
      World.amlStatus, haml]
  rw [World.fail]
  cases hmark : answers.mark with
  | done =>
    dsimp only
    rw [hfailed hreply hopen.messages rfl, hmarked]
    simp
  | lost =>
    dsimp only
    rw [hfailed rfl hopen.messages rfl, hopen.stored]
    simp [hopen.unmarked]
  | unacknowledged =>
    dsimp only
    rw [hfailed rfl hopen.messages rfl, hmarked]
    simp

/-! ## Capacity -/

theorem World.amlStatus_eq (world : World) (transactionId : ℤ) :
    world.amlStatus transactionId = Delivery.amlStatus world.aml transactionId := rfl

/-- A limit that is exceeded refuses, and what is admitted is admitted for the call. -/
theorem checkLimits_facts (aml : Aml.Db) (now : Stamp) (transactionId wallet : ℤ) (keyword : String)
    (amount : Posting.Numeric) :
    (∀ result, aml.checkLimits now transactionId wallet keyword amount = .error result →
        result.success = false) ∧
      ∀ admission, aml.checkLimits now transactionId wallet keyword amount = .ok admission →
        admission.transactionId = transactionId := by
  rw [Aml.Db.checkLimits]
  dsimp only
  split
  next => exact ⟨by rintro _ ⟨⟩; rfl, by rintro _ ⟨⟩⟩
  next =>
    split
    next => exact ⟨by rintro _ ⟨⟩; rfl, by rintro _ ⟨⟩⟩
    next =>
      split
      next => exact ⟨by rintro _ ⟨⟩; rfl, by rintro _ ⟨⟩⟩
      next =>
        split
        next => exact ⟨by rintro _ ⟨⟩; rfl, by rintro _ ⟨⟩⟩
        next => exact ⟨by rintro _ ⟨⟩, by rintro _ ⟨⟩; rfl⟩

/-- A call for an identifier without a reservation is refused or admitted. -/
theorem admission_facts {aml : Aml.Db} (now : Stamp)
    (hfresh : aml.reservations.find? request.transactionId = none) :
    (∀ result, aml.admission now (reserveCall request) = .error result →
        result.success = false) ∧
      ∀ admission, aml.admission now (reserveCall request) = .ok admission →
        admission.transactionId = request.transactionId := by
  rw [Aml.Db.admission, reserveCall]
  cases hkeyword : (if normalized request.keyword = "" then none
      else some (normalized request.keyword)) with
  | none => exact ⟨by rintro _ ⟨⟩; rfl, by rintro _ ⟨⟩⟩
  | some keyword =>
    dsimp only
    split
    next => exact ⟨by rintro _ ⟨⟩; rfl, by rintro _ ⟨⟩⟩
    next =>
      rw [hfresh]
      exact checkLimits_facts aml now _ _ keyword _

/-- What the reservation procedure leaves for an identifier that had no reservation. -/
theorem amlStatus_of_amlReserve {aml after : Aml.Db} {now : Stamp} {result : Aml.ReserveResult}
    (hfresh : aml.reservations.find? request.transactionId = none)
    (hreserve : aml.amlReserve now (reserveCall request) = some (result, after)) :
    Delivery.amlStatus after request.transactionId =
      if result.success then some .pending else none := by
  obtain ⟨hrefused, hadmitted⟩ := admission_facts now hfresh
  rw [Aml.Db.amlReserve] at hreserve
  cases hadmission : aml.admission now (reserveCall request) with
  | error refusal =>
    rw [hadmission] at hreserve
    obtain ⟨rfl, rfl⟩ := Prod.mk.inj (Option.some.inj hreserve)
    rw [hrefused _ hadmission, Delivery.amlStatus, hfresh]
    rfl
  | ok admission =>
    rw [hadmission] at hreserve
    obtain ⟨inserted, hinsert, hsame⟩ := Option.map_eq_some_iff.mp hreserve
    obtain ⟨rfl, rfl⟩ := Prod.mk.inj hsame
    have hid := hadmitted _ hadmission
    rw [Aml.Db.insertReservation] at hinsert
    split at hinsert
    case isFalse => cases hinsert
    case isTrue hpos =>
      obtain ⟨reservations, hrows, rfl⟩ := Option.map_eq_some_iff.mp hinsert
      rw [Delivery.amlStatus]
      show Option.map _ (reservations.find? request.transactionId) = _
      rw [Table.find?_of_insert? hrows, if_pos hid.symm]
      rfl

/-- A payment that is given up is accounted for when it is marked and its capacity given back. -/
theorem undo_accounted {status : ℤ} {reservation : Option Aml.ReserveResult} {message : String}
    (hopen : world.Open start answers.transactionId status)
    (hpending : world.amlStatus answers.transactionId =
      if reservation.isSome then some .pending else none) :
    Accounted start answers (world.undo answers answers.transactionId reservation message) ↔
      answers.mark ≠ .lost ∧ (reservation.isSome = true → answers.release ≠ .lost) := by
  rw [World.undo]
  cases hreservation : reservation.isSome with
  | false =>
    rw [hreservation] at hpending
    rw [if_neg Bool.false_ne_true, fail_accounted hopen rfl, hpending]
    simp
  | true =>
    rw [hreservation] at hpending
    rw [if_pos rfl, World.release]
    by_cases hlost : answers.release = .lost
    · rw [if_pos hlost, fail_accounted hopen rfl, hpending]
      simp [hlost]
    · rw [if_neg hlost]
      have hreleased : World.amlStatus { world with
          aml := (world.aml.amlFinalize answers.now (some answers.transactionId) .released).2 }
          answers.transactionId = some .released := by
        rw [World.amlStatus_eq, amlStatus_released, ← World.amlStatus_eq, hpending]
        rfl
      have hstill : World.Open { world with
          aml := (world.aml.amlFinalize answers.now (some answers.transactionId) .released).2 }
          start answers.transactionId status :=
        ⟨hopen.messages, hopen.stored, hopen.unmarked⟩
      rw [fail_accounted hstill rfl, hreleased]
      simp [hlost]

theorem submit_accounted {reservation : Option Aml.ReserveResult}
    (hid : request.transactionId = answers.transactionId)
    (hopen : world.Open start answers.transactionId 1)
    (hpending : world.amlStatus answers.transactionId =
      if reservation.isSome then some .pending else none)
    (hsystem : answers.isSystem = reservation.isNone) :
    Accounted start answers (world.submit answers request prepared reservation) ↔
      (answers.sends = true ∨
        answers.mark ≠ .lost ∧ (reservation.isSome = true → answers.release ≠ .lost)) := by
  rw [World.submit, hid]
  have hupdated : World.requestStatus { world with
      requests := world.requests.modify answers.transactionId (Request.submitted prepared)
        (Request.submitted_transactionId prepared) } answers.transactionId = some 2 :=
    World.requestStatus_modify hopen.stored _ fun _ => rfl
  have hstill : World.Open { world with
      requests := world.requests.modify answers.transactionId (Request.submitted prepared)
        (Request.submitted_transactionId prepared) } start answers.transactionId 2 :=
    ⟨hopen.messages, hupdated, by decide⟩
  cases hupdate : answers.update with
  | lost =>
    dsimp only
    rw [undo_accounted hopen hpending]
    simp [Answers.sends, hupdate]
  | unacknowledged =>
    dsimp only
    rw [undo_accounted hstill hpending]
    simp [Answers.sends, hupdate]
  | done =>
    cases hsend : answers.send with
    | error message =>
      dsimp only
      rw [undo_accounted hstill hpending]
      simp [Answers.sends, hsend, Except.toOption]
    | ok _ =>
      have hsends : answers.sends = true := by
        simp [Answers.sends, hupdate, hsend, Except.toOption]
      rw [hsends]
      refine iff_of_true ?_ (.inl rfl)
      refine ⟨hupdated, ?_, _, congrArg (· ++ _) hopen.messages⟩
      show world.amlStatus answers.transactionId = _
      rw [hpending, hsystem]
      cases reservation <;> rfl

/-- The AML database is the only thing that a reservation touches. -/
theorem World.Open.withAml {status : ℤ} (hopen : world.Open start answers.transactionId status)
    (aml : Aml.Db) : World.Open { world with aml } start answers.transactionId status :=
  ⟨hopen.messages, hopen.stored, hopen.unmarked⟩

/-- A payment of a keyword that is none of the system. -/
theorem reserve_accounted (hid : request.transactionId = answers.transactionId)
    (hopen : world.Open start answers.transactionId 1)
    (hfresh : world.aml.reservations.find? answers.transactionId = none)
    (hsystem : answers.isSystem = false) :
    Accounted start answers (world.reserve answers request prepared) ↔
      (¬ ((answers.reserve = .done ∧ world.grants answers request = true) ∧
          answers.sends = true) → answers.mark ≠ .lost) ∧
        (answers.reserve ≠ .lost → world.grants answers request = true →
          answers.reserve = .done ∧ (answers.sends = false → answers.release ≠ .lost)) := by
  have hnone : world.amlStatus answers.transactionId ≠ some .pending := by
    rw [World.amlStatus, hfresh]
    intro hpending
    cases hpending
  rw [World.reserve, hid]
  cases hcall : world.aml.amlReserve answers.now (reserveCall request) with
  | none =>
    have hgrants : world.grants answers request = false := by
      rw [World.grants, hcall, Option.any_none]
    have hfails : ∀ message, Accounted start answers
        (world.fail answers answers.transactionId (.error message)) ↔ answers.mark ≠ .lost := by
      intro message
      rw [fail_accounted hopen rfl, and_iff_left hnone]
    cases hreserve : answers.reserve <;> simp [hfails, hgrants]
  | some answer =>
    obtain ⟨result, aml⟩ := answer
    have hgrants : world.grants answers request = result.success := by
      rw [World.grants, hcall, Option.any_some]
    have hstatus : World.amlStatus { world with aml } answers.transactionId =
        if result.success then some .pending else none := by
      rw [World.amlStatus_eq, ← hid]
      exact amlStatus_of_amlReserve (hid ▸ hfresh) hcall
    have hopenAml := hopen.withAml aml
    cases hreserve : answers.reserve with
    | lost =>
      dsimp only
      rw [fail_accounted hopen rfl, and_iff_left hnone]
      simp
    | unacknowledged =>
      dsimp only
      rw [fail_accounted hopenAml rfl, hstatus, hgrants]
      cases result.success <;> simp
    | done =>
      dsimp only
      rw [hgrants]
      cases hsuccess : result.success with
      | false =>
        rw [hsuccess] at hstatus
        rw [if_neg Bool.false_ne_true, fail_accounted hopenAml rfl, hstatus]
        simp
      | true =>
        rw [hsuccess] at hstatus
        have hpending : World.amlStatus { world with aml } answers.transactionId =
            if (some result).isSome then some .pending else none := hstatus
        rw [if_pos rfl, submit_accounted hid hopenAml hpending hsystem]
        cases hsends : answers.sends <;> simp

/-! ## Checks and prices -/

theorem financialResponse_facts (keyword : Keyword) (amount : ℚ) (walletType : String) :
    (∀ check ∈ (financialResponse keyword amount walletType).amlCheck, check.1 = 100) ∧
      ∀ found ∈ (financialResponse keyword amount walletType).keywordExists, found = keyword := by
  rw [financialResponse]
  split
  next => exact ⟨by rintro _ ⟨⟩, by rintro _ ⟨⟩⟩
  next =>
    split
    next => exact ⟨by rintro _ ⟨⟩, by rintro _ ⟨⟩⟩
    next =>
      split
      next => exact ⟨by rintro _ ⟨⟩; rfl, by rintro _ ⟨⟩; rfl⟩
      next => exact ⟨by rintro _ ⟨⟩; rfl, by rintro _ ⟨⟩; rfl⟩

/-- The check is always passed, and the keyword is the one that was found. -/
theorem checkkeyword_facts {response : KeywordResponse}
    (hanswer : checkkeyword dto answers = .ok response) :
    (∀ check ∈ response.amlCheck, check.1 = 100) ∧
      ∀ keyword ∈ response.keywordExists, answers.keyword = .ok (some keyword) := by
  rw [checkkeyword] at hanswer
  split at hanswer
  next => cases hanswer
  next =>
    cases hanswer
    exact ⟨by rintro _ ⟨⟩, by rintro _ ⟨⟩⟩
  next keyword hfound =>
    split at hanswer
    next =>
      cases hanswer
      exact ⟨by rintro _ ⟨⟩, by rintro _ ⟨⟩⟩
    next =>
      split at hanswer
      next =>
        cases hanswer
        exact ⟨by rintro _ ⟨⟩, by rintro _ ⟨⟩⟩
      next =>
        cases hwallets : checkwalletdetails answers with
        | error message =>
          rw [hwallets] at hanswer
          cases hanswer
        | ok wallets =>
          rw [hwallets] at hanswer
          cases wallets with
          | ok walletType =>
            cases hanswer
            obtain ⟨hcheck, hkeyword⟩ :=
              financialResponse_facts keyword dto.amount walletType
            exact ⟨hcheck, fun found hmem => hkeyword found hmem ▸ hfound⟩
          | error refused =>
            cases hanswer
            have hnothing : response.amlCheck = none ∧ response.keywordExists = none := by
              rw [checkwalletdetails] at hwallets
              split at hwallets
              next => cases hwallets
              next => cases hwallets
              next => cases hwallets; exact ⟨rfl, rfl⟩
              next => cases hwallets; exact ⟨rfl, rfl⟩
              next => cases hwallets
            rw [hnothing.1, hnothing.2]
            exact ⟨by rintro _ ⟨⟩, by rintro _ ⟨⟩⟩
      next =>
        cases hanswer
        exact ⟨by rintro _ ⟨⟩, by rintro _ ⟨⟩⟩

/-- What is answered before a keyword is found to be eligible is no success. -/
theorem verifyKeyword_facts (dto : CreateTransaction) (answers : Answers) (transactionId : ℤ) :
    (∀ response, verifyKeyword dto answers transactionId = .error (.answers response) →
        response.responsecode ≠ 200) ∧
      ∀ keyword, verifyKeyword dto answers transactionId = .ok keyword →
        answers.keyword = .ok (some keyword) := by
  rw [verifyKeyword]
  cases hanswer : checkkeyword dto answers with
  | error message => exact ⟨by rintro _ ⟨⟩, by rintro _ ⟨⟩⟩
  | ok response =>
    obtain ⟨hcheck, hkeyword⟩ := checkkeyword_facts hanswer
    dsimp only
    split
    next hcode => exact ⟨by rintro _ ⟨⟩; exact hcode, by rintro _ ⟨⟩⟩
    next =>
      split
      next => exact ⟨by rintro _ ⟨⟩; decide, by rintro _ ⟨⟩⟩
      next hfound => exact ⟨by rintro _ ⟨⟩, by rintro _ ⟨⟩; exact hkeyword _ hfound⟩
      next => exact ⟨by rintro _ ⟨⟩, by rintro _ ⟨⟩⟩
      next code message hgiven hsome hnone =>
        have hcode : code = 100 := hcheck (code, message) hgiven
        cases hfound : response.keywordExists with
        | none => exact absurd hcode (hnone hfound)
        | some keyword => exact absurd hcode (hsome keyword hfound)

theorem verifyUsers_facts {response : Response}
    (hrefused : verifyUsers answers = .error (.answers response)) :
    response.responsecode ≠ 200 := by
  rw [verifyUsers] at hrefused
  split at hrefused
  next => cases hrefused
  next => cases hrefused
  next => cases hrefused; decide
  next => cases hrefused; decide
  next =>
    split at hrefused
    next => cases hrefused
    next => cases hrefused; decide
    next =>
      split at hrefused
      next => cases hrefused; decide
      next => cases hrefused

theorem price_facts {α : Type} {applies lookup : Option String} {purpose : String}
    {users : User × User} {calculate : Answer α} {response : Response}
    (hrefused : price applies lookup purpose users calculate = .error (.answers response)) :
    response.responsecode ≠ 200 := by
  rw [price] at hrefused
  by_cases happlies : isYes applies = false
  · rw [if_pos happlies] at hrefused
    cases hrefused
  · rw [if_neg happlies] at hrefused
    by_cases hpriced : (if lookup = some "S" then users.1 else users.2).priced = false
    · rw [if_pos hpriced] at hrefused
      cases hrefused
      show (422 : ℕ) ≠ 200
      decide
    · rw [if_neg hpriced] at hrefused
      cases calculate <;> cases hrefused

/-- What is answered before the reservation is no success, and the keyword is the one that was
found. -/
theorem verify_facts (dto : CreateTransaction) (answers : Answers) (transactionId : ℤ) :
    (∀ response, verify dto answers transactionId = .error (.answers response) →
        response.responsecode ≠ 200) ∧
      ∀ prepared, verify dto answers transactionId = .ok prepared →
        answers.keyword = .ok (some prepared.keyword) := by
  rw [verify]
  obtain ⟨hrefused, hkeyword⟩ := verifyKeyword_facts dto answers transactionId
  cases hverified : verifyKeyword dto answers transactionId with
  | error refusal =>
    refine ⟨?_, by rintro _ ⟨⟩⟩
    rintro response ⟨⟩
    exact hrefused response hverified
  | ok keyword =>
    dsimp only
    cases husers : verifyUsers answers with
    | error refusal =>
      refine ⟨?_, by rintro _ ⟨⟩⟩
      rintro response ⟨⟩
      exact verifyUsers_facts husers
    | ok users =>
      dsimp only
      split
      next refusal hcharge =>
        refine ⟨?_, by rintro _ ⟨⟩⟩
        rintro response ⟨⟩
        exact price_facts hcharge
      next =>
        split
        next refusal hcommission =>
          refine ⟨?_, by rintro _ ⟨⟩⟩
          rintro response ⟨⟩
          exact price_facts hcommission
        next =>
          refine ⟨by rintro _ ⟨⟩, ?_⟩
          rintro prepared ⟨⟩
          exact hkeyword keyword hverified

/-! ## Attempts -/

/-- What the rest of the attempt owes once the request is stored. -/
theorem process_accounted (hid : request.transactionId = answers.transactionId)
    (hopen : world.Open start answers.transactionId 1) (haml : world.aml = start.aml)
    (hfresh : start.Fresh answers.transactionId) :
    Accounted start answers (world.process dto answers request) ↔
      (∀ message, verify dto answers request.transactionId ≠ .error (.escapes message)) ∧
        ((∀ prepared, verify dto answers request.transactionId = .ok prepared →
          ¬ Submits start answers request prepared) → answers.mark ≠ .lost) ∧
        ∀ prepared, verify dto answers request.transactionId = .ok prepared →
          Reserves start answers request prepared →
            answers.reserve = .done ∧ (answers.sends = false → answers.release ≠ .lost) := by
  have hnothing : world.amlStatus answers.transactionId = none := by
    rw [World.amlStatus, haml, hfresh.reservation]
    rfl
  have hunpending : world.amlStatus answers.transactionId ≠ some .pending := by
    rw [hnothing]
    intro hpending
    cases hpending
  obtain ⟨hrefused, hkeyword⟩ := verify_facts dto answers request.transactionId
  rw [World.process]
  cases hverified : verify dto answers request.transactionId with
  | error refusal =>
    cases refusal with
    | escapes message =>
      refine iff_of_false ?_ fun horderly => horderly.1 message rfl
      intro haccounted
      have hmarked := haccounted.2.1 1 hopen.stored
      exact absurd hmarked (by decide)
    | answers response =>
      have hunsuccessful : succeeds (.ok response) = false :=
        decide_eq_false (hrefused response hverified)
      dsimp only
      rw [hid, fail_accounted hopen hunsuccessful]
      simp [hunpending]
    | throws message =>
      dsimp only
      rw [hid, fail_accounted hopen rfl]
      simp [hunpending]
  | ok prepared =>
    have hfound := hkeyword prepared hverified
    have hsystem : answers.isSystem = prepared.keyword.isSystemKeyword := by
      rw [Answers.isSystem, hfound]
    have hgrants : world.grants answers request = start.grants answers request := by
      rw [World.grants, haml, World.grants]
    dsimp only
    cases his : prepared.keyword.isSystemKeyword with
    | true =>
      have hpending : world.amlStatus answers.transactionId =
          if (none : Option Aml.ReserveResult).isSome then some .pending else none := hnothing
      rw [if_pos rfl, submit_accounted hid hopen hpending (hsystem.trans his)]
      cases hsends : answers.sends <;> simp [Submits, Reserves, his, hsends]
    | false =>
      rw [if_neg Bool.false_ne_true, reserve_accounted hid hopen (haml ▸ hfresh.reservation)
        (hsystem.trans his), hgrants]
      simp [Submits, Reserves, his]

/-- A new request has the drawn identifier and status 1. -/
theorem create_facts (hcreate : create dto answers = .ok request) :
    request.transactionId = answers.transactionId ∧ request.transactionStatus = 1 := by
  rw [create] at hcreate
  split at hcreate
  next => cases hcreate
  next => cases hcreate
  next =>
    dsimp only at hcreate
    split at hcreate
    next => cases hcreate
    next =>
      split at hcreate
      next => cases hcreate
      next =>
        split at hcreate
        next => cases hcreate
        next => exact Except.ok.inj hcreate ▸ ⟨rfl, rfl⟩
  next => cases hcreate

theorem World.Fresh.store (hfresh : start.Fresh request.transactionId)
    (hstatus : request.transactionStatus = 1) :
    (start.store request).Open start request.transactionId 1 := by
  obtain ⟨requests, hinsert⟩ := Table.insert?_of_fresh hfresh.request
  have hstored : (start.store request).requests = requests := by
    rw [World.store, hinsert, Option.getD_some]
  constructor
  case messages => rfl
  case stored =>
    rw [World.requestStatus, hstored, Table.find?_of_insert? hinsert, if_pos rfl, Option.map_some,
      hstatus]
  case unmarked => decide

/-- An attempt that stores nothing is accounted for when it throws. -/
theorem accounted_unstored (hfresh : start.Fresh answers.transactionId) (message : String) :
    Accounted start answers { reply := .error message, world := start } := by
  refine ⟨rfl, ?_, ?_⟩
  · intro status hstatus
    rw [World.requestStatus, hfresh.request] at hstatus
    cases hstatus
  · rw [World.amlStatus, hfresh.reservation]
    intro hpending
    cases hpending

/-- A payment attempt ends accounted for exactly when its answers are orderly. -/
theorem attempts_end_accounted_for (start : World) (dto : CreateTransaction) (identity : String)
    (answers : Answers) (hfresh : start.Fresh answers.transactionId) :
    Accounted start answers (transactionprocess start dto identity answers) ↔
      Orderly start dto identity answers := by
  have hunstored : ∀ message, stored? dto identity answers = none →
      (Accounted start answers { reply := .error message, world := start } ↔
        Orderly start dto identity answers) := by
    intro message hnone
    refine iff_of_true (accounted_unstored hfresh message) ?_
    intro request hstored
    rw [hnone] at hstored
    cases hstored
  rw [transactionprocess]
  by_cases hidentity : dto.mobileNumber = identity
  case neg =>
    rw [if_pos hidentity]
    exact hunstored _ (if_neg fun h => hidentity h.1)
  case pos =>
    rw [if_neg (not_not_intro hidentity)]
    cases howned : answers.ownership with
    | error message => exact hunstored _ (if_neg fun h => by simp [howned, Except.toOption] at h)
    | ok owned =>
      cases owned with
      | false => exact hunstored _ (if_neg fun h => by simp [howned, Except.toOption] at h)
      | true =>
        dsimp only
        cases hcreate : create dto answers with
        | error message =>
          refine hunstored _ ?_
          rw [stored?, hcreate]
          exact ite_self _
        | ok request =>
          obtain ⟨hid, hstatus⟩ := create_facts hcreate
          have hopen := World.Fresh.store (hid ▸ hfresh) hstatus
          rw [hid] at hopen
          have hstored : answers.save ≠ .lost →
              stored? dto identity answers = some request := by
            intro hsave
            rw [stored?, if_pos ⟨hidentity, by rw [howned]; rfl, hsave⟩, hcreate]
            rfl
          cases hsave : answers.save with
          | lost => exact hunstored _ (if_neg fun h => h.2.2 hsave)
          | unacknowledged =>
            refine iff_of_false ?_ ?_
            · intro haccounted
              have hmarked := haccounted.2.1 1 hopen.stored
              exact absurd hmarked (by decide)
            · intro horderly
              have hdone := (horderly request (hstored (by rw [hsave]; decide))).1
              rw [hsave] at hdone
              cases hdone
          | done =>
            have hknown := hstored (by rw [hsave]; decide)
            dsimp only
            rw [process_accounted hid hopen rfl hfresh, Orderly, hknown]
            simp [hsave]

end

/-! ## One payment -/

/-- Nothing is stored yet; the wallet 17 may reserve amounts for the keyword. -/
def shop : World where
  requests := .empty
  aml := Aml.openingDb
  messages := []

theorem shop_fresh : shop.Fresh 1 := ⟨rfl, rfl⟩

def purchase : CreateTransaction where
  amount := 40
  pin := "1234"
  keyword := "PAY"
  sourceAccount := 17
  destinationAccount := 18
  mobileNumber := "256700000001"

/-- Everything is found, nothing is charged, and every write is done. -/
def smooth : Answers where
  ownership := .ok true
  sourceWallet := .ok (some { status := 0, currency := some "UGX" })
  destinationWallet := .ok (some { status := 0, currency := some "UGX" })
  transactionId := 1
  save := .done
  keyword := .ok (some
    { keyword := "PAY", keywordScope := some "M", isFinancial := some true
      chargeable := some "N", kcIdLookup := none, commissionable := some "N", kcmIdLookup := none
      minimumTranAmount := 1, isSystemKeyword := false, isActive := true })
  sourceDetails := .ok (some 100)
  destinationDetails := .ok (some 200)
  sourceUser := .ok (some { walletCode := some 1, amount := "500.00", fullName := "Customer" })
  destinationUser := .ok (some { walletCode := some 2, amount := "0.00", fullName := "Merchant" })
  pin := .ok true
  charge := .error "Active charge configuration not found"
  commission := .error "Active commission configuration not found"
  now := Stamp.of 2026 1 5 0
  reserve := .done
  update := .done
  send := .ok ()
  release := .done
  mark := .done

/-- The purchase goes through, and nothing was owed for it. -/
theorem attempts_end_accounted_for_purchase :
    Accounted shop smooth (transactionprocess shop purchase "256700000001" smooth) ∧
      Orderly shop purchase "256700000001" smooth := by
  have hsuccess : succeeds (transactionprocess shop purchase "256700000001" smooth).reply = true := by
    decide +kernel
  have hmessages : (transactionprocess shop purchase "256700000001" smooth).world.messages.length =
      1 := by
    decide +kernel
  obtain ⟨message, hmessage⟩ := List.length_eq_one_iff.mp hmessages
  have haccounted : Accounted shop smooth
      (transactionprocess shop purchase "256700000001" smooth) := by
    rw [Accounted]
    simp only [hsuccess, if_true]
    exact ⟨by decide +kernel, by decide +kernel, message, hmessage⟩
  exact ⟨haccounted,
    (attempts_end_accounted_for shop purchase "256700000001" smooth shop_fresh).mp haccounted⟩

/-- The check of the PIN throws and the request stays as it was stored; and a message that is not
sent leaves capacity reserved when the release fails. -/
theorem attempts_left_open :
    ¬ Accounted shop { smooth with pin := .error "Connection terminated unexpectedly" }
        (transactionprocess shop purchase "256700000001"
          { smooth with pin := .error "Connection terminated unexpectedly" }) ∧
      ¬ Accounted shop { smooth with send := .error "Broker not available", release := .lost }
        (transactionprocess shop purchase "256700000001"
          { smooth with send := .error "Broker not available", release := .lost }) := by
  constructor
  · intro haccounted
    have hfails : succeeds (transactionprocess shop purchase "256700000001"
        { smooth with pin := .error "Connection terminated unexpectedly" }).reply = false := by
      decide +kernel
    have hstatus : (transactionprocess shop purchase "256700000001"
        { smooth with pin := .error "Connection terminated unexpectedly" }).world.requestStatus 1 =
          some 1 := by
      decide +kernel
    rw [Accounted] at haccounted
    simp only [hfails, Bool.false_eq_true, if_false] at haccounted
    exact absurd (haccounted.2.1 1 hstatus) (by decide)
  · intro haccounted
    have hfails : succeeds (transactionprocess shop purchase "256700000001"
        { smooth with send := .error "Broker not available", release := .lost }).reply = false := by
      decide +kernel
    have hpending : (transactionprocess shop purchase "256700000001"
        { smooth with send := .error "Broker not available", release := .lost }).world.amlStatus 1 =
          some .pending := by
      decide +kernel
    rw [Accounted] at haccounted
    simp only [hfails, Bool.false_eq_true, if_false] at haccounted
    exact haccounted.2.2 hpending

end Finify.Delivery.Attempts
