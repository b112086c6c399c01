/-
# The life cycle of a transaction in a mode

What a transaction has been through in one mode is a stage: nothing, a
reservation, a posting, or one of these taken back.  The procedures do not store
the stage; they store up to three journals with a status each.  This module
states the stages and the moves between them, says which journals a stage stands
for, and proves that every committed call is such a move or none.
-/

import Finify.Posting.GiveBack

namespace Finify.Posting

open Finify.Foundations

/-! ## Stages -/

/-- What a transaction has been through in a mode.  `cancelled` is a reservation
taken back before it was settled, `reversed` a posting taken back. -/
inductive Stage : Mode → Type
  | fresh {mode : Mode} : Stage mode
  | reserved : Stage .twoLeg
  | posted {mode : Mode} : Stage mode
  | cancelled : Stage .twoLeg
  | reversed {mode : Mode} : Stage mode
  deriving DecidableEq

namespace Stage

variable {mode : Mode}

/-- The stage that an operation leads to, from the stages that admit it. -/
def advance : {mode : Mode} → Stage mode → Operation → Option (Stage mode)
  | .direct, fresh, .direct => some posted
  | .twoLeg, fresh, .reserve => some reserved
  | .twoLeg, reserved, .settle => some posted
  | .twoLeg, reserved, .reverse .twoLeg => some cancelled
  | .direct, posted, .reverse .direct => some reversed
  | .twoLeg, posted, .reverse .twoLeg => some reversed
  | _, _, _ => none

def journalStatus : {mode : Mode} → Stage mode → Operation → Option JournalStatus
  | .direct, posted, .direct => some .completed
  | .direct, reversed, .direct => some .reversed
  | .direct, reversed, .reverse .direct => some .completed
  | .twoLeg, reserved, .reserve => some .reserved
  | .twoLeg, posted, .reserve => some .settled
  | .twoLeg, posted, .settle => some .completed
  | .twoLeg, cancelled, .reserve => some .reversed
  | .twoLeg, cancelled, .reverse .twoLeg => some .completed
  | .twoLeg, reversed, .reserve => some .reversed
  | .twoLeg, reversed, .settle => some .reversed
  | .twoLeg, reversed, .reverse .twoLeg => some .completed
  | _, _, _ => none

/-- What an operation makes of the status of an older journal of the same
transaction: a settlement settles the reservation, a reversal reverses what has
been posted in its mode. -/
def closing (operation older : Operation) (status : JournalStatus) : JournalStatus :=
  match operation with
  | .settle => if older = .reserve then .settled else status
  | .reverse mode =>
    if older.mode = mode ∧ older.action = .post ∧ status.reversible then .reversed else status
  | .direct => status
  | .reserve => status

/-- Moving on writes the journal of the operation and closes older ones. -/
theorem journalStatus_advance {stage next : Stage mode} {operation : Operation}
    (hadvance : stage.advance operation = some next) (older : Operation) :
    next.journalStatus older =
      if older = operation then some operation.postStatus
      else (stage.journalStatus older).map (closing operation older) := by
  rcases operation with _ | _ | _ | ⟨_ | _⟩ <;> cases mode <;> cases stage <;> cases hadvance <;>
    rcases older with _ | _ | _ | ⟨_ | _⟩ <;> rfl

/-- Something is posted or reserved and has not been taken back. -/
def Standing : Stage mode → Prop
  | fresh => False
  | reserved => True
  | posted => True
  | cancelled => False
  | reversed => False

/-- What has been posted or reserved has been taken back. -/
def Closed : Stage mode → Prop
  | fresh => False
  | reserved => False
  | posted => False
  | cancelled => True
  | reversed => True

/-- No operation leads back to the beginning. -/
theorem ne_fresh_of_advance {stage next : Stage mode} {operation : Operation}
    (hadvance : stage.advance operation = some next) : next ≠ fresh := by
  rintro rfl
  rcases operation with _ | _ | _ | ⟨_ | _⟩ <;> cases mode <;> cases stage <;> cases hadvance

theorem Closed.ne_fresh {stage : Stage mode} (hclosed : stage.Closed) : stage ≠ fresh := by
  rintro rfl
  exact hclosed

/-- Direct postings and reservations start from nothing; nothing else does. -/
theorem advance_fresh_eq_some {operation : Operation} {next : Stage mode}
    (hadvance : (fresh : Stage mode).advance operation = some next) :
    operation = .direct ∨ operation = .reserve := by
  rcases operation with _ | _ | _ | ⟨_ | _⟩ <;> cases mode <;> cases hadvance <;> simp

theorem eq_fresh_of_first_leg {stage next : Stage mode} {operation : Operation}
    (hadvance : stage.advance operation = some next)
    (hfirst : operation = .direct ∨ operation = .reserve) : stage = fresh := by
  rcases hfirst with rfl | rfl <;> cases mode <;> cases stage <;> first | rfl | cases hadvance

/-- Every stage but the first has a posting journal. -/
theorem exists_postStatus {stage : Stage mode} (hstage : stage ≠ fresh) :
    ∃ operation status, operation.mode = mode ∧ operation.action = .post ∧
      stage.journalStatus operation = some status := by
  cases mode <;> cases stage
  case direct.fresh => exact absurd rfl hstage
  case direct.posted => exact ⟨.direct, _, rfl, rfl, rfl⟩
  case direct.reversed => exact ⟨.direct, _, rfl, rfl, rfl⟩
  case twoLeg.fresh => exact absurd rfl hstage
  case twoLeg.reserved => exact ⟨.reserve, _, rfl, rfl, rfl⟩
  case twoLeg.posted => exact ⟨.reserve, _, rfl, rfl, rfl⟩
  case twoLeg.cancelled => exact ⟨.reserve, _, rfl, rfl, rfl⟩
  case twoLeg.reversed => exact ⟨.reserve, _, rfl, rfl, rfl⟩

/-- A closed stage is final. -/
theorem Closed.advance_eq_none {stage : Stage mode} (hclosed : stage.Closed)
    (operation : Operation) : stage.advance operation = none := by
  cases stage with
  | fresh => cases hclosed
  | reserved => cases hclosed
  | posted => cases hclosed
  | cancelled => rcases operation with _ | _ | _ | ⟨_ | _⟩ <;> rfl
  | reversed => cases mode <;> rcases operation with _ | _ | _ | ⟨_ | _⟩ <;> rfl

/-- The request is only marked as reversed when its stage closes. -/
theorem closed_of_advance {operation : Operation} {stage next : Stage operation.mode}
    (hadvance : stage.advance operation = some next) (hstatus : operation.requestStatus = 6) :
    next.Closed := by
  rcases operation with _ | _ | _ | ⟨_ | _⟩ <;> cases stage <;> cases hadvance <;>
    trivial

theorem Standing.advance_reverse {stage : Stage mode} (hstanding : stage.Standing) :
    ∃ next, stage.advance (.reverse mode) = some next ∧ next.Closed := by
  cases stage with
  | fresh => cases hstanding
  | reserved => exact ⟨cancelled, rfl, trivial⟩
  | posted => cases mode <;> exact ⟨reversed, rfl, trivial⟩
  | cancelled => cases hstanding
  | reversed => cases hstanding

theorem standing_of_reversible {stage : Stage mode} {operation : Operation}
    {status : JournalStatus} (hstatus : stage.journalStatus operation = some status)
    (haction : operation.action = .post) (hreversible : status.reversible = true) :
    stage.Standing := by
  rcases operation with _ | _ | _ | ⟨_ | _⟩ <;> cases mode <;> cases stage <;> cases hstatus <;>
    trivial

end Stage

/-- The stage of every transaction in either mode. -/
abbrev Stages := ℤ → (mode : Mode) → Stage mode

namespace Stages

def set (stages : Stages) (transactionId : ℤ) (mode : Mode) (stage : Stage mode) : Stages :=
  Function.update stages transactionId (Function.update (stages transactionId) mode stage)

@[simp] theorem set_self (stages : Stages) (transactionId : ℤ) (mode : Mode) (stage : Stage mode) :
    stages.set transactionId mode stage transactionId mode = stage := by
  simp [set]

theorem set_of_ne_transaction (stages : Stages) {transactionId other : ℤ}
    (hne : other ≠ transactionId) (mode : Mode) (stage : Stage mode) :
    stages.set transactionId mode stage other = stages other := by
  simp [set, hne]

theorem set_of_ne_mode (stages : Stages) (transactionId : ℤ) {mode other : Mode}
    (hne : other ≠ mode) (stage : Stage mode) :
    stages.set transactionId mode stage transactionId other = stages transactionId other := by
  simp [set, hne]

/-- Moving on writes the journal of the operation and closes older ones; other
transactions keep theirs. -/
theorem journalStatus_set {stages : Stages} {transactionId : ℤ} {operation : Operation}
    {next : Stage operation.mode}
    (hadvance : (stages transactionId operation.mode).advance operation = some next)
    (older : Operation) :
    (stages.set transactionId operation.mode next transactionId older.mode).journalStatus older =
      if older = operation then some operation.postStatus
      else
        ((stages transactionId older.mode).journalStatus older).map
          (Stage.closing operation older) := by
  by_cases hmode : older.mode = operation.mode
  · rw [hmode, set_self]
    exact Stage.journalStatus_advance hadvance older
  · have hne : older ≠ operation := fun hsame => hmode (by rw [hsame])
    have hkeep : ∀ status, Stage.closing operation older status = status := by
      intro status
      cases operation with
      | direct => rfl
      | reserve => rfl
      | settle =>
        have : older ≠ .reserve := fun hreserve => hmode (by rw [hreserve]; rfl)
        simp [Stage.closing, this]
      | reverse mode =>
        have : older.mode ≠ mode := hmode
        simp [Stage.closing, this]
    rw [set_of_ne_mode _ _ hmode, if_neg hne, funext hkeep]
    exact (Option.map_id' ..).symm

/-- One transaction moves on by one operation. -/
inductive Step : Stages → Stages → Prop
  | advance {stages : Stages} {transactionId : ℤ} {operation : Operation}
      {next : Stage operation.mode}
      (hadvance : (stages transactionId operation.mode).advance operation = some next) :
      Step stages (stages.set transactionId operation.mode next)

/-- No transaction has been through anything. -/
def initial : Stages := fun _ _ => .fresh

end Stages

/-! ## Journals stand for stages -/

/-- The journals of the database are the ones that the stages call for, and none
of them has a double. -/
structure Refines (db : Db) (stages : Stages) : Prop where
  status : ∀ transactionId operation,
    (db.findJournal transactionId operation).map Journal.status =
      (stages transactionId operation.mode).journalStatus operation
  unique : ∀ journal ∈ db.journals.rows,
    db.findJournal journal.transactionId journal.operation = some journal

theorem Refines.initial {db : Db} (hstart : db.Initial) : Refines db Stages.initial where
  status := by
    intro transactionId operation
    rw [Db.findJournal, hstart.no_journals]
    rcases operation with _ | _ | _ | ⟨_ | _⟩ <;> rfl
  unique := by simp [hstart.no_journals]

theorem Refines.congr {before after : Db} {stages : Stages} (hrefines : Refines before stages)
    (hjournals : after.journals = before.journals) : Refines after stages := by
  constructor
  · simpa only [Db.findJournal, hjournals] using hrefines.status
  · simpa only [Db.findJournal, hjournals] using hrefines.unique

@[simp] theorem Plan.closeJournal_transactionId (plan : Plan) (journal : Journal) :
    (plan.closeJournal journal).transactionId = journal.transactionId := by
  unfold Plan.closeJournal
  split <;> (try split) <;> rfl

@[simp] theorem Plan.closeJournal_operation (plan : Plan) (journal : Journal) :
    (plan.closeJournal journal).operation = journal.operation := by
  unfold Plan.closeJournal
  split <;> (try split) <;> rfl

@[simp] theorem Plan.closeJournal_payload (plan : Plan) (journal : Journal) :
    (plan.closeJournal journal).payload = journal.payload := by
  unfold Plan.closeJournal
  split <;> (try split) <;> rfl

section Committed

variable {before after : Db} {plan : Plan} {journalId : ℕ} {entries : List Entry}

/-- After a committed plan its own operation has its journal, and every other
operation the journal it had, with the status that closing gives it. -/
theorem Committed.findJournal (hcommitted : Committed before plan journalId entries after)
    (transactionId : ℤ) (operation : Operation) :
    after.findJournal transactionId operation =
      if transactionId = plan.transactionId ∧ operation = plan.operation then
        some (plan.journal journalId)
      else (before.findJournal transactionId operation).map plan.closeJournal := by
  have hold : (before.journals.rows.map plan.closeJournal).find?
      (fun journal => journal.transactionId = transactionId ∧ journal.operation = operation) =
      (before.findJournal transactionId operation).map plan.closeJournal := by
    rw [List.find?_map, Db.findJournal]
    simp [Function.comp_def]
  have hnew : after.findJournal transactionId operation =
      ((before.findJournal transactionId operation).map plan.closeJournal).or
        ([plan.journal journalId].find? fun journal =>
          journal.transactionId = transactionId ∧ journal.operation = operation) := by
    rw [Db.findJournal, hcommitted.journals, List.find?_append, hold]
  rw [hnew]
  by_cases hown : transactionId = plan.transactionId ∧ operation = plan.operation
  · obtain ⟨rfl, rfl⟩ := hown
    simp [hcommitted.unposted, Plan.journal]
  · have hother : [plan.journal journalId].find? (fun journal =>
        journal.transactionId = transactionId ∧ journal.operation = operation) = none := by
      apply List.find?_eq_none.mpr
      intro journal hmem
      rw [List.mem_singleton.mp hmem, decide_eq_true_eq]
      exact fun h => hown ⟨h.1.symm, h.2.symm⟩
    rw [if_neg hown, hother, Option.or_none]

end Committed

/-! ## Committed calls move on -/

section Planned

variable {db : Db} {stages : Stages} {request : Request} {operation : Operation} {terms : Terms}
  {payload : Payload} {plan : Plan}

/-- The stage of a transaction knows the status of its journals. -/
theorem Refines.status_of_mem (hrefines : Refines db stages) {journal : Journal}
    (hmem : journal ∈ db.journals.rows) :
    (stages journal.transactionId journal.operation.mode).journalStatus journal.operation =
      some journal.status := by
  rw [← hrefines.status, hrefines.unique journal hmem]
  rfl

theorem Journal.postedIn_iff {transactionId : ℤ} {mode : Mode} {journal : Journal} :
    journal.postedIn transactionId mode ↔
      journal.transactionId = transactionId ∧ journal.operation.mode = mode ∧
        journal.operation.action = .post := by
  simp [Journal.postedIn]

/-- A plan is only made where the stage admits its operation. -/
theorem Refines.advance_of_plan (hrefines : Refines db stages)
    (hunposted : db.findJournal request.transactionId operation = none)
    (hplan : db.planOperation request operation terms payload = .ok plan) :
    ∃ next, (stages request.transactionId operation.mode).advance operation = some next := by
  have hnone := hrefines.status request.transactionId operation
  rw [hunposted] at hnone
  cases operation with
  | direct =>
    generalize stages request.transactionId Operation.direct.mode = stage at hnone ⊢
    cases stage with
    | fresh => exact ⟨.posted, rfl⟩
    | posted => cases hnone
    | reversed => cases hnone
  | reserve =>
    generalize stages request.transactionId Operation.reserve.mode = stage at hnone ⊢
    cases stage with
    | fresh => exact ⟨.reserved, rfl⟩
    | reserved => cases hnone
    | posted => cases hnone
    | cancelled => cases hnone
    | reversed => cases hnone
  | settle =>
    obtain ⟨reservation, hfind, hstatus, _⟩ := Db.planSettle_eq_ok hplan
    have hreserved := hrefines.status request.transactionId .reserve
    rw [hfind, Option.map_some, hstatus] at hreserved
    change some JournalStatus.reserved =
      (stages request.transactionId Operation.settle.mode).journalStatus .reserve at hreserved
    generalize stages request.transactionId Operation.settle.mode = stage at hreserved ⊢
    cases stage with
    | fresh => cases hreserved
    | reserved => exact ⟨.posted, rfl⟩
    | posted => cases hreserved
    | cancelled => cases hreserved
    | reversed => cases hreserved
  | reverse mode =>
    obtain ⟨_, hentries, _⟩ := Db.planReverse_eq_ok hplan
    obtain ⟨entry, hentry⟩ := List.exists_mem_of_ne_nil _ hentries
    obtain ⟨_, journal, hjournal, _, hposted, hreversible⟩ := Db.mem_reversalEntries.mp hentry
    obtain ⟨htransaction, hmode, haction⟩ := Journal.postedIn_iff.mp hposted
    have hstatus := hrefines.status_of_mem hjournal
    rw [htransaction, hmode] at hstatus
    have hstanding := Stage.standing_of_reversible hstatus haction hreversible
    obtain ⟨next, hnext, _⟩ := hstanding.advance_reverse
    exact ⟨next, hnext⟩

/-- A plan closes older journals of its own transaction as its operation says. -/
theorem Refines.closeJournal_status (hrefines : Refines db stages)
    (hplan : db.planOperation request operation terms payload = .ok plan) {journal : Journal}
    (hmem : journal ∈ db.journals.rows) :
    (plan.closeJournal journal).status =
      if journal.transactionId = request.transactionId then
        Stage.closing operation journal.operation journal.status
      else journal.status := by
  cases operation with
  | direct | reserve =>
    obtain ⟨_, rfl⟩ := planPosting_eq_ok (planFirstLeg_eq_ok hplan).2
    simp [Plan.closeJournal, Stage.closing]
  | settle =>
    obtain ⟨reservation, hfind, _, hposting⟩ := Db.planSettle_eq_ok hplan
    obtain ⟨_, rfl⟩ := planPosting_eq_ok hposting
    obtain ⟨hreservation, htransaction, hoperation⟩ := Db.findJournal_eq_some hfind
    -- The reservation is the one journal with its id, and the one with its operation.
    have hsame : journal.id = reservation.id ↔
        journal.transactionId = request.transactionId ∧ journal.operation = .reserve := by
      constructor
      · intro hid
        rw [db.journals.eq_of_serial_eq hmem hreservation hid]
        exact ⟨htransaction, hoperation⟩
      · rintro ⟨ht, ho⟩
        have hown := hrefines.unique journal hmem
        rw [ht, ho, hfind] at hown
        rw [Option.some.inj hown]
    simp only [Plan.closeJournal, Option.some.injEq, hsame, Stage.closing]
    split_ifs <;> simp_all
  | reverse mode =>
    obtain ⟨_, _, rfl⟩ := Db.planReverse_eq_ok hplan
    simp only [Plan.closeJournal, Bool.and_eq_true, Journal.postedIn_iff, Stage.closing]
    split_ifs <;> simp_all

/-- Closing rewrites the status of a journal and nothing else. -/
theorem Plan.closeJournal_eq (plan : Plan) (journal : Journal) :
    plan.closeJournal journal = { journal with status := (plan.closeJournal journal).status } := by
  unfold Plan.closeJournal
  split <;> (try split) <;> rfl

/-- Journals of other transactions are left alone. -/
theorem Refines.closeJournal_of_ne (hrefines : Refines db stages)
    (hplan : db.planOperation request operation terms payload = .ok plan) {journal : Journal}
    (hmem : journal ∈ db.journals.rows) (hother : journal.transactionId ≠ request.transactionId) :
    plan.closeJournal journal = journal := by
  have hstatus := hrefines.closeJournal_status hplan hmem
  rw [if_neg hother] at hstatus
  rw [plan.closeJournal_eq, hstatus]

end Planned

/-- A committed plan is one move of its transaction in the mode of its
operation. -/
theorem Refines.committed {before after : Db} {stages : Stages} {call : Call} {request : Request}
    {terms : Terms} {plan : Plan} {journalId : ℕ} {entries : List Entry}
    (hrefines : Refines before stages) (hplanned : Planned before call request terms plan)
    (hcommitted : Committed before plan journalId entries after) :
    ∃ next, (stages plan.transactionId plan.operation.mode).advance plan.operation = some next ∧
      Refines after (stages.set plan.transactionId plan.operation.mode next) := by
  obtain ⟨next, hnext⟩ := hrefines.advance_of_plan hplanned.unposted hplanned.planned
  rw [← hplanned.transactionId] at hnext
  refine ⟨next, hnext, ?_, ?_⟩
  · intro transactionId operation
    rw [hcommitted.findJournal]
    by_cases hown : transactionId = plan.transactionId
    · subst hown
      rw [Stages.journalStatus_set hnext]
      by_cases hoperation : operation = plan.operation
      · simp [hoperation, Plan.journal]
      · rw [if_neg (fun h => hoperation h.2), if_neg hoperation, ← hrefines.status]
        cases hfind : before.findJournal plan.transactionId operation with
        | none => rfl
        | some journal =>
          obtain ⟨hmem, htransaction, rfl⟩ := Db.findJournal_eq_some hfind
          have hstatus := hrefines.closeJournal_status hplanned.planned hmem
          rw [if_pos (htransaction.trans hplanned.transactionId)] at hstatus
          simp [hstatus]
    · rw [if_neg (fun h => hown h.1), Stages.set_of_ne_transaction _ hown, ← hrefines.status]
      cases hfind : before.findJournal transactionId operation with
      | none => rfl
      | some journal =>
        obtain ⟨hmem, htransaction, _⟩ := Db.findJournal_eq_some hfind
        have hstatus := hrefines.closeJournal_status hplanned.planned hmem
        rw [if_neg (by rw [htransaction, ← hplanned.transactionId]; exact hown)] at hstatus
        simp [hstatus]
  · intro journal hjournal
    rw [hcommitted.journals, List.mem_append, List.mem_singleton] at hjournal
    rw [hcommitted.findJournal]
    rcases hjournal with hold | rfl
    · obtain ⟨old, hmem, rfl⟩ := List.mem_map.mp hold
      have hfind := hrefines.unique old hmem
      rw [Plan.closeJournal_transactionId, Plan.closeJournal_operation, hfind, if_neg]
      · rfl
      · rintro ⟨htransaction, hoperation⟩
        rw [htransaction, hoperation, hcommitted.unposted] at hfind
        cases hfind
    · simp [Plan.journal]

theorem Refunded.findJournal {before after : Db} {plan : RefundPlan} {journalId : ℕ}
    {entries : List Entry} (hrefunded : Refunded before plan journalId entries after) :
    ∃ currency, ∀ transactionId operation,
      after.findJournal transactionId operation =
        if transactionId = plan.refundTransactionId ∧ operation = .direct then
          some (plan.journal currency journalId)
        else before.findJournal transactionId operation := by
  obtain ⟨currency, hjournals⟩ := hrefunded.journals
  refine ⟨currency, fun transactionId operation => ?_⟩
  have hnew : after.findJournal transactionId operation =
      (before.findJournal transactionId operation).or
        ([plan.journal currency journalId].find? fun journal =>
          journal.transactionId = transactionId ∧ journal.operation = operation) := by
    rw [Db.findJournal, hjournals, List.find?_append, Db.findJournal]
  rw [hnew]
  by_cases hown : transactionId = plan.refundTransactionId ∧ operation = .direct
  · obtain ⟨rfl, rfl⟩ := hown
    simp [hrefunded.unposted, RefundPlan.journal]
  · have hother : [plan.journal currency journalId].find? (fun journal =>
        journal.transactionId = transactionId ∧ journal.operation = operation) = none := by
      apply List.find?_eq_none.mpr
      intro journal hmem
      rw [List.mem_singleton.mp hmem, decide_eq_true_eq]
      exact fun h => hown ⟨h.1.symm, h.2.symm⟩
    rw [if_neg hown, hother, Option.or_none]

/-- A committed refund posts its own transaction directly. -/
theorem Refines.refunded {before after : Db} {stages : Stages} {plan : RefundPlan}
    {journalId : ℕ} {entries : List Entry} (hrefines : Refines before stages)
    (hrefunded : Refunded before plan journalId entries after) :
    (stages plan.refundTransactionId .direct).advance .direct = some .posted ∧
      Refines after (stages.set plan.refundTransactionId .direct .posted) := by
  have hfresh : (stages plan.refundTransactionId .direct).advance .direct = some .posted := by
    have hnone := hrefines.status plan.refundTransactionId .direct
    rw [hrefunded.unposted] at hnone
    change none = (stages plan.refundTransactionId .direct).journalStatus .direct at hnone
    generalize stages plan.refundTransactionId .direct = stage at hnone ⊢
    cases stage with
    | fresh => rfl
    | posted => cases hnone
    | reversed => cases hnone
  obtain ⟨currency, hfind⟩ := hrefunded.findJournal
  refine ⟨hfresh, ?_, ?_⟩
  · intro transactionId operation
    rw [hfind]
    by_cases hown : transactionId = plan.refundTransactionId
    · subst hown
      refine Eq.trans ?_ (@Stages.journalStatus_set stages _ .direct .posted hfresh operation).symm
      by_cases hoperation : operation = .direct
      · simp [hoperation, RefundPlan.journal, Operation.postStatus]
      · rw [if_neg (fun h => hoperation h.2), if_neg hoperation, ← hrefines.status]
        exact (Option.map_id' ..).symm
    · rw [if_neg (fun h => hown h.1), Stages.set_of_ne_transaction _ hown]
      exact hrefines.status transactionId operation
  · obtain ⟨currency', hjournals⟩ := hrefunded.journals
    intro journal hjournal
    rw [hjournals, List.mem_append, List.mem_singleton] at hjournal
    rcases hjournal with hold | rfl
    · rw [hfind, if_neg]
      · exact hrefines.unique journal hold
      · rintro ⟨htransaction, hoperation⟩
        have hown := hrefines.unique journal hold
        rw [htransaction, hoperation, hrefunded.unposted] at hown
        cases hown
    · have hown := hfind plan.refundTransactionId .direct
      rw [if_pos ⟨rfl, rfl⟩] at hown
      have hmem := (Db.findJournal_eq_some hown).1
      rw [hjournals, List.mem_append, List.mem_singleton] at hmem
      rcases hmem with hold | hnew
      · have hunposted := Db.findJournal_eq_none.mp hrefunded.unposted _ hold
        exact absurd ⟨rfl, rfl⟩ hunposted
      · rw [← hnew]
        exact hown

/-- Every committed call moves at most one transaction on in one mode. -/
theorem Refines.step {before after : Db} {stages : Stages} {event : Event}
    (hrefines : Refines before stages) (hstep : before.step event = some after) :
    ∃ stages', (stages' = stages ∨ Stages.Step stages stages') ∧ Refines after stages' := by
  cases Db.step_outcome hstep with
  | quiet hquiet => exact ⟨stages, .inl rfl, hrefines.congr hquiet.journals⟩
  | committed call request terms plan journalId entries _ _ hplanned hcommitted =>
    obtain ⟨next, hnext, hafter⟩ := hrefines.committed hplanned hcommitted
    exact ⟨_, .inr (.advance hnext), hafter⟩
  | refunded call plan journalId entries _ _ hrefunded =>
    obtain ⟨hnext, hafter⟩ := hrefines.refunded hrefunded
    exact ⟨_, .inr (@Stages.Step.advance stages _ .direct _ hnext), hafter⟩

/-- The journals of any run stand for stages that the transactions have moved to
one operation at a time. -/
theorem stages_of_run {start db : Db} (hstart : start.Initial)
    (hrun : Reaches Db.step start db) :
    ∃ stages, Relation.ReflTransGen Stages.Step Stages.initial stages ∧ Refines db stages := by
  apply hrun.simulates ?_ (Refines.initial hstart)
  intro before event after stages hrefines hstep
  obtain ⟨stages', hmove, hafter⟩ := hrefines.step hstep
  refine ⟨stages', ?_, hafter⟩
  rcases hmove with rfl | hmove
  · exact .refl
  · exact .single hmove

theorem stages_of_run_shop :
    ∃ db stages, runInputs Db.step shopDb [shopPost .twoLeg 1, shopPost .twoLeg 2] = some db ∧
      Relation.ReflTransGen Stages.Step Stages.initial stages ∧ Refines db stages := by
  obtain ⟨db, hrun⟩ := Option.isSome_iff_exists.mp
    (by decide +kernel :
      (runInputs Db.step shopDb [shopPost .twoLeg 1, shopPost .twoLeg 2]).isSome = true)
  obtain ⟨stages, hstages⟩ := stages_of_run (Db.opening_initial _ _) (.of_runInputs hrun)
  exact ⟨db, stages, hrun, hstages⟩

/-! ## What stays -/

/-- The books after some calls: entries and refunds stand as they did, with more behind them,
journals stand up to their status, and no wallet has been opened, closed or removed. -/
structure Db.Extends (later db : Db) : Prop where
  entries : db.entries.rows <+: later.entries.rows
  refunds : db.refunds <+: later.refunds
  journals : ∀ journal ∈ db.journals.rows,
    ∃ status, { journal with status := status } ∈ later.journals.rows
  wallets : ∀ wallet, (later.wallets.find? wallet).map Wallet.status =
    (db.wallets.find? wallet).map Wallet.status

theorem Outcome.extends {before after : Db} {event : Event}
    (houtcome : Outcome before event after) : after.Extends before := by
  cases houtcome with
  | quiet hquiet =>
    exact ⟨hquiet.entries ▸ List.prefix_rfl, hquiet.refunds ▸ List.prefix_rfl,
      fun journal hmem => ⟨journal.status, hquiet.journals ▸ hmem⟩, by simp [hquiet.wallets]⟩
  | committed _ _ _ plan _ entries _ _ _ hcommitted =>
    refine ⟨⟨entries, hcommitted.posted.appended.symm⟩,
      hcommitted.refunds ▸ List.prefix_rfl, ?_, hcommitted.posted.statuses⟩
    intro journal hmem
    refine ⟨(plan.closeJournal journal).status, ?_⟩
    rw [← plan.closeJournal_eq, hcommitted.journals]
    exact List.mem_append_left _ (List.mem_map_of_mem hmem)
  | refunded _ _ _ entries _ _ hrefunded =>
    obtain ⟨_, hjournals⟩ := hrefunded.journals
    exact ⟨⟨entries, hrefunded.posted.appended.symm⟩, ⟨_, hrefunded.refunds.symm⟩,
      fun journal hmem => ⟨journal.status, hjournals ▸ List.mem_append_left _ hmem⟩,
      hrefunded.posted.statuses⟩

/-- In every run the books only grow. -/
theorem books_only_grow {db later : Db} (hrun : Reaches Db.step db later) : later.Extends db := by
  apply hrun.preserves (Db.Extends · db)
  · intro before event after hbefore hstep
    have hafter := (Db.step_outcome hstep).extends
    refine ⟨hbefore.entries.trans hafter.entries, hbefore.refunds.trans hafter.refunds, ?_,
      fun wallet => (hafter.wallets wallet).trans (hbefore.wallets wallet)⟩
    intro journal hmem
    obtain ⟨_, hkept⟩ := hbefore.journals journal hmem
    obtain ⟨status, hstill⟩ := hafter.journals _ hkept
    exact ⟨status, hstill⟩
  · exact ⟨List.prefix_rfl, List.prefix_rfl, fun journal hmem => ⟨journal.status, hmem⟩,
      fun _ => rfl⟩

/-- A payment and its refund. -/
theorem books_only_grow_shop :
    ∃ db, runInputs Db.step shopDb [shopPost .direct 1, shopRefund] = some db ∧
      db.Extends shopDb := by
  obtain ⟨db, hrun⟩ := Option.isSome_iff_exists.mp
    (by decide +kernel :
      (runInputs Db.step shopDb [shopPost .direct 1, shopRefund]).isSome = true)
  exact ⟨db, hrun, books_only_grow (.of_runInputs hrun)⟩

end Finify.Posting
