/-
# What a reservation promises

The first leg moves the money to the reserve wallet and stores the message; the
second leg reads the amounts back from it.  The request has been rewritten in
between, the first leg has looked at two of the six amounts only, and the wallet
is shared with whoever names it.  This module says when the promise holds.
-/

import Finify.Foundations.Accounts
import Finify.Posting.Postings

namespace Finify.Posting

open Finify.Foundations

/-! ## The condition -/

/-- What the entries of a transaction have added to the reserve wallet. -/
def Db.reserveShare (db : Db) (transactionId : ℤ) : ℤ :=
  accountOf Entry.transactionId Entry.movement (db.walletEntries tempWallet) transactionId

/-- Lines that take from the reserve wallet no more than the transaction has
there, what they add included. -/
def Db.CoversShare (db : Db) (transactionId : ℤ) (lines : List Line) : Prop :=
  walletTotal .debit tempWallet lines ≤
    (db.reserveShare transactionId : Amount) + walletTotal .credit tempWallet lines

/-- A call that passes its checks does not draw on what other transactions have
in the reserve wallet. -/
def KeepsToItsShare (db : Db) : Event → Prop
  | .transaction call =>
    ∀ plan, db.plan call = .ok plan → db.CoversShare plan.transactionId plan.lines
  | .refund call =>
    ∀ plan, db.planRefund call = .ok plan →
      db.CoversShare plan.refundTransactionId plan.lines

/-- A call for another transaction that keeps to its own share. -/
def KeepsClear (transactionId : ℤ) (db : Db) (event : Event) : Prop :=
  ¬ event.Concerns transactionId ∧ KeepsToItsShare db event

/-- What the second leg would post for an open reservation: the terms of the
request and the amounts that the stored message gives. -/
def Db.settlement? (db : Db) (transactionId : ℤ) : Option (Terms × PostingAmounts) := do
  let request ← db.requests.find? transactionId
  let terms ← request.terms?
  let reservation ← (db.findJournal transactionId .reserve).filter (·.status = .reserved)
  return (terms, postingAmounts reservation.payload request terms.amount)

/-- Debits and credits of the six amounts agree. -/
def PostingAmounts.Balanced (amounts : PostingAmounts) : Prop :=
  amounts.sourceDebit + amounts.commissionDebit =
    amounts.destinationCredit + amounts.chargeCredit + amounts.sourceCommissionCredit +
      amounts.destinationCommissionCredit

instance (amounts : PostingAmounts) : Decidable amounts.Balanced :=
  inferInstanceAs (Decidable (_ = _))

/-- No transaction has taken from the reserve wallet what it had not put there. -/
def Db.SharesKept (db : Db) : Prop :=
  ∀ transactionId, 0 ≤ db.reserveShare transactionId

theorem accountTotal_movement (wallet : ℤ) (entries : List Entry) :
    accountTotal Entry.movement wallet entries =
      accountTotal Entry.credit wallet entries - accountTotal Entry.debit wallet entries :=
  Entry.sum_movement _

section Posted

variable {before after : Db} {header : Header} {lines : List Line} {entries : List Entry}

/-- A posting adds its own movement to the share of its own transaction. -/
theorem Posted.reserveShare (hposted : Posted header before (lines.zipIdx 1) entries after)
    (transactionId : ℤ) :
    after.reserveShare transactionId = before.reserveShare transactionId +
      if header.transactionId = transactionId then
        accountTotal Entry.movement tempWallet entries
      else 0 := by
  have howner : ∀ entry ∈ entries.filter (fun entry => entry.accountNumber = tempWallet),
      entry.transactionId = header.transactionId := by
    intro entry hentry
    obtain ⟨_, _, hrecord⟩ :=
      exists_line_of_recorded hposted.recorded (List.mem_of_mem_filter hentry)
    exact hrecord.transaction
  unfold Db.reserveShare Db.walletEntries
  rw [hposted.appended, List.filter_append, accountOf_append, accountOf_of_key howner]
  rfl

/-- Lines that the share covers leave it covered. -/
theorem Db.SharesKept.posted (hshares : before.SharesKept)
    (hposted : Posted header before (lines.zipIdx 1) entries after)
    (hcovers : before.CoversShare header.transactionId lines) : after.SharesKept := by
  intro transactionId
  rw [hposted.reserveShare]
  by_cases hown : header.transactionId = transactionId
  · subst hown
    rw [if_pos rfl, accountTotal_movement]
    unfold Db.CoversShare at hcovers
    rw [walletTotal_debit_of_recorded hposted.recorded,
      walletTotal_credit_of_recorded hposted.recorded] at hcovers
    have hcovers : accountTotal Entry.debit tempWallet entries ≤
        before.reserveShare header.transactionId +
          accountTotal Entry.credit tempWallet entries := by exact_mod_cast hcovers
    omega
  · rw [if_neg hown, add_zero]
    exact hshares transactionId

end Posted

/-- The first leg writes its own charge and commission on the request, where the
second leg takes its defaults from. -/
theorem postingAmounts_rewritten {payload : Payload} {request : Request} {amount : Amount}
    {charge commission : ℤ} (hcharge : (postingAmounts payload request amount).charge = charge)
    (hcommission : (postingAmounts payload request amount).commission = commission)
    (status : Option ℤ) :
    postingAmounts payload
      { request with
        transactionStatus := status
        transactionFee := some charge
        transactionComm := some commission } amount = postingAmounts payload request amount := by
  have hfee : round2 ((payload.chargeAmount <|> some (moneyToNumeric charge)).getD 0) =
      round2 ((payload.chargeAmount <|>
        request.transactionFee.map moneyToNumeric).getD 0) := by
    cases hpayload : payload.chargeAmount with
    | some value => rfl
    | none =>
      simp only [postingAmounts, hpayload] at hcharge
      exact (round2_moneyToNumeric charge).trans hcharge.symm
  have hcomm : round2 ((payload.commissionAmount <|> some (moneyToNumeric commission)).getD 0) =
      round2 ((payload.commissionAmount <|>
        request.transactionComm.map moneyToNumeric).getD 0) := by
    cases hpayload : payload.commissionAmount with
    | some value => rfl
    | none =>
      simp only [postingAmounts, hpayload] at hcommission
      exact (round2_moneyToNumeric commission).trans hcommission.symm
  unfold postingAmounts
  simp only [Option.map_some, hfee, hcomm]

section FirstLeg

variable {before after : Db} {call : Call} {request : Request} {terms : Terms} {plan : Plan}
  {journalId : ℕ} {entries : List Entry}

/-- What a plan for a first leg consists of. -/
theorem Planned.reserve (hplanned : Planned before call request terms plan)
    (hoperation : plan.operation = .reserve) :
    let amounts := postingAmounts call.payload request terms.amount
    ¬ amounts.Negative ∧ plan.charge = amounts.charge ∧ plan.commission = amounts.commission ∧
      plan.payload = call.payload ∧ ∃ currency, plan.lines = amounts.reserveLines terms currency := by
  have hplan := hplanned.planned
  rw [hoperation] at hplan
  obtain ⟨hnonneg, rfl⟩ := planPosting_eq_ok (planFirstLeg_eq_ok hplan).2
  exact ⟨hnonneg, rfl, rfl, rfl, _, rfl⟩

/-- After the first leg, the second leg would post the very amounts of the
first. -/
theorem Planned.settlement? (hplanned : Planned before call request terms plan)
    (hcommitted : Committed before plan journalId entries after)
    (hoperation : plan.operation = .reserve) :
    after.settlement? plan.transactionId =
      some (terms, postingAmounts call.payload request terms.amount) := by
  obtain ⟨_, hcharge, hcommission, hpayload, _⟩ := hplanned.reserve hoperation
  obtain ⟨charge, commission, hfee, hcomm, hfind⟩ := hcommitted.find?_request
  have hjournal := hcommitted.findJournal plan.transactionId .reserve
  rw [if_pos ⟨rfl, hoperation.symm⟩] at hjournal
  have hrequest := hfind plan.transactionId
  have haction : plan.operation.action = .post := by rw [hoperation]; rfl
  have hterms : { request with
      transactionStatus := some plan.operation.requestStatus
      transactionFee := some charge
      transactionComm := some commission }.terms? = some terms := hplanned.readTerms
  rw [if_pos rfl, hplanned.transactionId, hplanned.found, Option.map_some, if_pos haction,
    if_pos haction] at hrequest
  have hstatus : (plan.journal journalId).status = .reserved := by
    simp [Plan.journal, hoperation, Operation.postStatus]
  rw [hplanned.transactionId] at hjournal ⊢
  simp only [Db.settlement?, hrequest, hjournal, Option.bind_eq_bind, Option.bind_some, hterms,
    Option.filter_some, hstatus, decide_true, if_true, Option.pure_def]
  have hamounts := postingAmounts_rewritten (hcharge.symm.trans hfee)
    (hcommission.symm.trans hcomm) (some plan.operation.requestStatus)
  rw [Plan.journal, hpayload, hamounts]

theorem reserveLines_walletTotal (amounts : PostingAmounts) (terms : Terms) (currency : String) :
    walletTotal .debit tempWallet (amounts.reserveLines terms currency) =
        (if terms.source = tempWallet then amounts.sourceDebit else 0) ∧
      walletTotal .credit tempWallet (amounts.reserveLines terms currency) =
        amounts.sourceDebit := by
  by_cases hsource : terms.source = tempWallet <;>
    simp [PostingAmounts.reserveLines, walletTotal, sideTotal, hsource]

/-- A first leg adds to the share of its transaction, and the whole amount unless
the reserve wallet is its source. -/
theorem Planned.reserveShare (hplanned : Planned before call request terms plan)
    (hcommitted : Committed before plan journalId entries after)
    (hoperation : plan.operation = .reserve) (hshares : before.SharesKept) :
    after.SharesKept ∧
      (terms.source ≠ tempWallet →
        (postingAmounts call.payload request terms.amount).sourceDebit ≤
          (after.reserveShare plan.transactionId : Amount)) := by
  obtain ⟨hnonneg, _, _, _, currency, hlines⟩ := hplanned.reserve hoperation
  set amounts := postingAmounts call.payload request terms.amount
  obtain ⟨hdebit, hcredit⟩ := reserveLines_walletTotal amounts terms currency
  have hpositive : 0 ≤ amounts.sourceDebit := not_lt.mp fun hneg => hnonneg (.inl hneg)
  have hshare : (0 : Amount) ≤ (before.reserveShare plan.transactionId : Amount) := by
    exact_mod_cast hshares plan.transactionId
  constructor
  · apply hshares.posted hcommitted.posted
    unfold Db.CoversShare
    rw [hlines, hdebit, hcredit]
    refine le_trans ?_ (le_add_of_nonneg_left hshare)
    split
    · exact le_rfl
    · exact hpositive
  · intro hsource
    rw [if_neg hsource] at hdebit
    rw [← hlines, walletTotal_debit_of_recorded hcommitted.posted.recorded] at hdebit
    rw [← hlines, walletTotal_credit_of_recorded hcommitted.posted.recorded] at hcredit
    have hnone : accountTotal Entry.debit tempWallet entries = 0 := by exact_mod_cast hdebit
    rw [hcommitted.posted.reserveShare, if_pos rfl, accountTotal_movement, hnone, ← hcredit]
    have hkept := hshares plan.transactionId
    exact_mod_cast (by omega : accountTotal Entry.credit tempWallet entries ≤
      before.reserveShare plan.transactionId +
        (accountTotal Entry.credit tempWallet entries - 0))

end FirstLeg

/-! ## Calls for other transactions -/

/-- A transaction that nobody has called for: its request, its journals and its
share are what they were. -/
structure Untroubled (transactionId : ℤ) (before after : Db) : Prop where
  request : after.requests.find? transactionId = before.requests.find? transactionId
  journals : ∀ operation,
    after.findJournal transactionId operation = before.findJournal transactionId operation
  share : after.reserveShare transactionId = before.reserveShare transactionId

namespace Untroubled

variable {transactionId : ℤ} {before middle after : Db}

theorem refl (transactionId : ℤ) (db : Db) : Untroubled transactionId db db :=
  ⟨rfl, fun _ => rfl, rfl⟩

theorem trans (hfirst : Untroubled transactionId before middle)
    (hsecond : Untroubled transactionId middle after) : Untroubled transactionId before after where
  request := hsecond.request.trans hfirst.request
  journals := fun operation => (hsecond.journals operation).trans (hfirst.journals operation)
  share := hsecond.share.trans hfirst.share

theorem settlement? (huntroubled : Untroubled transactionId before after) :
    after.settlement? transactionId = before.settlement? transactionId := by
  unfold Db.settlement?
  rw [huntroubled.request, huntroubled.journals]

end Untroubled

/-- Calls for other transactions leave the transaction untroubled. -/
theorem Progress.untroubled {start before after : Db} {stages stages' : Stages} {event : Event}
    {transactionId : ℤ} (hconsistent : Consistent start before stages)
    (hprogress : Progress before stages event after stages')
    (hother : ¬ event.Concerns transactionId)
    (hrequest : (before.requests.find? transactionId).isSome) :
    Untroubled transactionId before after := by
  cases hprogress with
  | quiet hquiet hothers =>
    refine ⟨hothers transactionId hother, fun operation => ?_, ?_⟩
    · rw [Db.findJournal, Db.findJournal, hquiet.journals]
    · rw [Db.reserveShare, Db.reserveShare, Db.walletEntries, Db.walletEntries, hquiet.entries]
  | @committed call request terms plan journalId entries next hevent hplan hplanned hcommitted
      hnext =>
      subst hevent
      have hne : plan.transactionId ≠ transactionId := by
        rintro rfl
        exact hother (hplanned.transactionId ▸ hplanned.transaction)
      obtain ⟨charge, commission, _, _, hfind⟩ := hcommitted.find?_request
      refine ⟨?_, fun operation => ?_, ?_⟩
      · rw [hfind, if_neg (Ne.symm hne)]
      · rw [hcommitted.findJournal, if_neg fun h => hne h.1.symm]
        cases hjournal : before.findJournal transactionId operation with
        | none => rfl
        | some journal =>
          obtain ⟨hmem, htransaction, _⟩ := Db.findJournal_eq_some hjournal
          rw [Option.map_some, hconsistent.refines.closeJournal_of_ne hplanned.planned hmem]
          rw [htransaction, ← hplanned.transactionId]
          exact Ne.symm hne
      · rw [hcommitted.posted.reserveShare, if_neg hne, add_zero]
  | @refunded call plan journalId entries hevent hplanned hrefunded hnext =>
    subst hevent
    have hne : plan.refundTransactionId ≠ transactionId := by
      rintro rfl
      rw [hrefunded.unused] at hrequest
      cases hrequest
    obtain ⟨currency, hfind⟩ := hrefunded.findJournal
    refine ⟨?_, fun operation => ?_, ?_⟩
    · rw [hrefunded.find?_request, if_neg (Ne.symm hne)]
    · rw [hfind, if_neg fun h => hne h.1.symm]
    · rw [hrefunded.posted.reserveShare, if_neg hne, add_zero]

/-- Calls that keep to their share leave every share kept. -/
theorem Progress.sharesKept {before after : Db} {stages stages' : Stages} {event : Event}
    (hshares : before.SharesKept) (hguard : KeepsToItsShare before event)
    (hprogress : Progress before stages event after stages') : after.SharesKept := by
  cases hprogress with
  | quiet hquiet _ =>
    intro transactionId
    rw [Db.reserveShare, Db.walletEntries, hquiet.entries]
    exact hshares transactionId
  | committed hevent hplan hplanned hcommitted hnext =>
    subst hevent
    exact hshares.posted hcommitted.posted (hguard _ hplan)
  | refunded hevent hplanned hrefunded hnext =>
    subst hevent
    exact hshares.posted hrefunded.posted (hguard _ hplanned.passes)

/-! ## The second leg -/

section SecondLeg

variable {db after : Db} {transactionId : ℤ} {terms : Terms} {amounts : PostingAmounts}
  {call : Call} {result : Result} {currency : String}

end SecondLeg

/-- What a run that keeps to its shares maintains. -/
def KeptShares (start db : Db) : Prop :=
  (∃ stages, Consistent start db stages) ∧ db.SharesKept

theorem KeptShares.run {start db : Db} (hstart : start.Initial)
    (hrun : ReachesUnder Db.step KeepsToItsShare start db) : KeptShares start db := by
  apply hrun.preserves (KeptShares start)
  · rintro before event after ⟨⟨stages, hconsistent⟩, hshares⟩ hguard hstep
    obtain ⟨stages', hprogress, hconsistent'⟩ := hconsistent.step hstep
    exact ⟨⟨stages', hconsistent'⟩, hprogress.sharesKept hshares hguard⟩
  · refine ⟨⟨_, Consistent.initial hstart⟩, fun transactionId => ?_⟩
    rw [Db.reserveShare, Db.walletEntries, hstart.no_entries]
    exact le_rfl

/-- Calls for other transactions that keep to their shares keep the shares, and
the transaction untroubled. -/
theorem KeptShares.later {start reserved later : Db} {transactionId : ℤ}
    (hkept : KeptShares start reserved)
    (hrequest : (reserved.requests.find? transactionId).isSome)
    (hlater : ReachesUnder Db.step (KeepsClear transactionId) reserved later) :
    KeptShares start later ∧ Untroubled transactionId reserved later := by
  apply hlater.preserves fun db => KeptShares start db ∧ Untroubled transactionId reserved db
  · rintro before event after ⟨⟨⟨stages, hconsistent⟩, hshares⟩, huntroubled⟩ hguard hstep
    obtain ⟨stages', hprogress, hconsistent'⟩ := hconsistent.step hstep
    refine ⟨⟨⟨stages', hconsistent'⟩, hprogress.sharesKept hshares hguard.2⟩,
      huntroubled.trans (hprogress.untroubled hconsistent hguard.1 ?_)⟩
    rwa [huntroubled.request]
  · exact ⟨hkept, .refl transactionId reserved⟩

end Finify.Posting
