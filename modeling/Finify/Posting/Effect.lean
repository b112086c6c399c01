/-
# What a committed call does to the books

The posting loop is the only code that moves money.  This module says once what
it leaves behind: the entries it records for its lines, in order, and for every
wallet a trail of those entries from the old balance to the new one.  The two
procedures are then described by their exits and by the lines they post, and no
later proof unfolds them again.
-/

import Finify.Foundations.Trail
import Finify.Posting.Runs

namespace Finify.Posting

open Finify.Foundations

/-! ## Entries and lines -/

/-- An entry takes one balance of its wallet to the next. -/
def Moves (before : ℤ) (entry : Entry) (after : ℤ) : Prop :=
  entry.balanceBefore = some before ∧ entry.balanceAfter = some after ∧
    after = before + entry.credit - entry.debit

/-- `entry` is what the loop records for a numbered line. -/
structure RecordedBy (header : Header) (numbered : Line × ℕ) (entry : Entry) : Prop where
  journal : entry.journalId = header.journalId
  transaction : entry.transactionId = header.transactionId
  number : entry.lineNumber = numbered.2
  wallet : entry.accountNumber = numbered.1.wallet
  reverses : entry.reversesEntryId = numbered.1.originalEntryId
  debit : (entry.debit : Amount) = if numbered.1.side = .debit then numbered.1.amount else 0
  credit : (entry.credit : Amount) = if numbered.1.side = .credit then numbered.1.amount else 0

/-- The wallets and entries after some lines have been posted; `entries` are the
new ones. -/
structure Posted (header : Header) (before : Db) (lines : List (Line × ℕ))
    (entries : List Entry) (after : Db) : Prop where
  appended : after.entries.rows = before.entries.rows ++ entries
  recorded : List.Forall₂ (RecordedBy header) lines entries
  history : ∀ wallet a, before.balance wallet = some a →
    ∃ b, after.balance wallet = some b ∧
      Trail Moves a (entries.filter fun entry => entry.accountNumber = wallet) b
  missing : ∀ wallet, before.balance wallet = none → after.balance wallet = none
  statuses : ∀ wallet, (after.wallets.find? wallet).map Wallet.status =
    (before.wallets.find? wallet).map Wallet.status
  total : (∀ numbered ∈ lines, (before.balance numbered.1.wallet).isSome) →
    after.total = before.total + (entries.map Entry.movement).sum

namespace Posted

variable {header : Header} {before middle after : Db} {lines later : List (Line × ℕ)}
  {entries recorded : List Entry}

/-- Whether a wallet exists is not changed by posting. -/
theorem balance_isSome (hposted : Posted header before lines entries after) (wallet : ℤ) :
    (after.balance wallet).isSome = (before.balance wallet).isSome := by
  cases hbalance : before.balance wallet with
  | none => rw [hposted.missing wallet hbalance]
  | some a =>
    obtain ⟨b, hb, _⟩ := hposted.history wallet a hbalance
    rw [hb]
    rfl

theorem refl (header : Header) (db : Db) : Posted header db [] [] db where
  appended := by simp
  recorded := .nil
  history := fun _ a ha => ⟨a, ha, .nil a⟩
  missing := fun _ h => h
  statuses := fun _ => rfl
  total := fun _ => by simp

theorem trans (hfirst : Posted header before lines entries middle)
    (hsecond : Posted header middle later recorded after) :
    Posted header before (lines ++ later) (entries ++ recorded) after where
  appended := by rw [hsecond.appended, hfirst.appended, List.append_assoc]
  recorded := List.rel_append hfirst.recorded hsecond.recorded
  history := by
    intro wallet a ha
    obtain ⟨b, hb, htrail⟩ := hfirst.history wallet a ha
    obtain ⟨c, hc, hlater⟩ := hsecond.history wallet b hb
    refine ⟨c, hc, ?_⟩
    rw [List.filter_append]
    exact htrail.append hlater
  missing := fun wallet h => hsecond.missing wallet (hfirst.missing wallet h)
  statuses := fun wallet => (hsecond.statuses wallet).trans (hfirst.statuses wallet)
  total := by
    intro hexists
    rw [hsecond.total fun numbered hmem => ?_, hfirst.total fun numbered hmem => ?_,
      List.map_append, List.sum_append, add_assoc]
    · exact hexists numbered (List.mem_append_left _ hmem)
    · rw [hfirst.balance_isSome]
      exact hexists numbered (List.mem_append_right _ hmem)

/-- Posting is about wallets and entries only. -/
theorem congr {before' after' : Db} (hposted : Posted header before lines entries after)
    (hwallets : before'.wallets = before.wallets) (hentries : before'.entries = before.entries)
    (hwallets' : after'.wallets = after.wallets) (hentries' : after'.entries = after.entries) :
    Posted header before' lines entries after' := by
  have hbalance : ∀ wallet, before'.balance wallet = before.balance wallet := fun wallet => by
    simp [Db.balance, hwallets]
  have hbalance' : ∀ wallet, after'.balance wallet = after.balance wallet := fun wallet => by
    simp [Db.balance, hwallets']
  refine ⟨?_, hposted.recorded, ?_, ?_, ?_, ?_⟩
  · rw [hentries, hentries', hposted.appended]
  · simpa only [hbalance, hbalance'] using hposted.history
  · simpa only [hbalance, hbalance'] using hposted.missing
  · simpa only [hwallets, hwallets'] using hposted.statuses
  · simpa only [hbalance, Db.total, hwallets, hwallets'] using hposted.total

end Posted

theorem Db.postLine_posted {header : Header} {before after : Db} {numbered : Line × ℕ}
    (hpost : Db.postLine header before numbered = some after) :
    ∃ entry, Posted header before [numbered] [entry] after := by
  obtain ⟨line, lineNumber⟩ := numbered
  simp only [Db.postLine, Option.bind_eq_bind, Option.bind_eq_some_iff] at hpost
  obtain ⟨accountType, _, amount, hamount, hpost⟩ := hpost
  rw [Amount.cents?_eq_some] at hamount
  split at hpost
  case isFalse => cases hpost
  case isTrue hpos =>
    cases hpost
    refine ⟨_, ⟨rfl, .cons ⟨rfl, rfl, rfl, rfl, rfl, ?_, ?_⟩ .nil, ?_, ?_, ?_, ?_⟩⟩
    · show ((if line.side = .debit then amount else 0 : ℤ) : Amount) = _
      split <;> simp [hamount]
    · show ((if line.side = .credit then amount else 0 : ℤ) : Amount) = _
      split <;> simp [hamount]
    · -- The line's own wallet moves by the entry, every other wallet stays.
      intro wallet a ha
      by_cases hwallet : wallet = line.wallet
      · subst hwallet
        refine ⟨line.side.apply a amount, ?_, ?_⟩
        · obtain ⟨row, hrow, rfl⟩ := Option.map_eq_some_iff.mp ha
          simp [Db.balance, hrow]
        · simp only [decide_true, List.filter_cons_of_pos, List.filter_nil]
          apply Trail.singleton
          exact ⟨ha, by simp [ha], line.side.apply_eq a amount⟩
      · refine ⟨a, ?_, ?_⟩
        · rw [← ha]
          unfold Db.balance
          rw [Table.find?_modify_of_ne _ hwallet]
        · simp only [Ne.symm hwallet, decide_false, Bool.false_eq_true, not_false_eq_true,
            List.filter_cons_of_neg, List.filter_nil]
          exact .nil a
    · intro wallet hnone
      unfold Db.balance at hnone ⊢
      rw [Option.map_eq_none_iff] at hnone ⊢
      by_cases hwallet : wallet = line.wallet
      · subst hwallet
        simp [hnone]
      · rwa [Table.find?_modify_of_ne _ hwallet]
    · intro wallet
      by_cases hwallet : wallet = line.wallet
      · subst hwallet
        simp [Function.comp_def]
      · rw [Table.find?_modify_of_ne _ hwallet]
    · intro hexists
      have hsome : (before.balance line.wallet).isSome := by
        simpa using hexists (line, lineNumber)
      obtain ⟨row, hrow, _⟩ := Option.map_eq_some_iff.mp (Option.some_get hsome).symm
      rw [Db.total, Table.sum_modify Wallet.amount hrow, line.side.apply_eq]
      simp only [Db.total, Entry.movement, List.map_cons, List.map_nil, List.sum_singleton]
      ring

private theorem foldlM_posted {header : Header} {numbered : List (Line × ℕ)} {before after : Db}
    (hpost : numbered.foldlM (Db.postLine header) before = some after) :
    ∃ entries, Posted header before numbered entries after := by
  induction numbered generalizing before with
  | nil =>
    cases hpost
    exact ⟨[], .refl header _⟩
  | cons first rest ih =>
    rw [List.foldlM_cons, Option.bind_eq_bind, Option.bind_eq_some_iff] at hpost
    obtain ⟨middle, hfirst, hrest⟩ := hpost
    obtain ⟨entry, hentry⟩ := Db.postLine_posted hfirst
    obtain ⟨entries, hentries⟩ := ih hrest
    exact ⟨entry :: entries, hentry.trans hentries⟩

theorem Db.postLines_posted {header : Header} {before after : Db} {lines : List Line}
    (hpost : before.postLines header lines = some after) :
    ∃ entries, Posted header before (lines.zipIdx 1) entries after :=
  foldlM_posted hpost

/-- The loop writes nothing but wallets and entries. -/
structure SameBooksElsewhere (before after : Db) : Prop where
  journals : after.journals = before.journals
  requests : after.requests = before.requests
  refunds : after.refunds = before.refunds
  categories : after.categories = before.categories

theorem Db.postLine_frame {header : Header} {before after : Db} {numbered : Line × ℕ}
    (hpost : Db.postLine header before numbered = some after) :
    SameBooksElsewhere before after := by
  obtain ⟨line, lineNumber⟩ := numbered
  simp only [Db.postLine, Option.bind_eq_bind, Option.bind_eq_some_iff] at hpost
  obtain ⟨_, _, amount, _, hpost⟩ := hpost
  split at hpost
  case isTrue =>
    cases hpost
    exact ⟨rfl, rfl, rfl, rfl⟩
  case isFalse => cases hpost

private theorem foldlM_frame {header : Header} {numbered : List (Line × ℕ)} {before after : Db}
    (hpost : numbered.foldlM (Db.postLine header) before = some after) :
    SameBooksElsewhere before after := by
  induction numbered generalizing before with
  | nil =>
    cases hpost
    exact ⟨rfl, rfl, rfl, rfl⟩
  | cons first rest ih =>
    rw [List.foldlM_cons, Option.bind_eq_bind, Option.bind_eq_some_iff] at hpost
    obtain ⟨middle, hfirst, hrest⟩ := hpost
    have hline := Db.postLine_frame hfirst
    have hlater := ih hrest
    exact ⟨hlater.journals.trans hline.journals, hlater.requests.trans hline.requests,
      hlater.refunds.trans hline.refunds, hlater.categories.trans hline.categories⟩

theorem Db.postLines_frame {header : Header} {before after : Db} {lines : List Line}
    (hpost : before.postLines header lines = some after) : SameBooksElsewhere before after :=
  foldlM_frame hpost

/-! ## Committed postings and reversals -/

/-- The journal that a committed plan leaves behind. -/
def Plan.journal (plan : Plan) (id : ℕ) : Journal where
  id := id
  transactionId := plan.transactionId
  operation := plan.operation
  status := plan.operation.postStatus
  originalJournalId := plan.originalJournalId
  currency := plan.currency
  payload := plan.payload

/-- What a committed plan makes of an older journal. -/
def Plan.closeJournal (plan : Plan) (journal : Journal) : Journal :=
  match plan.operation with
  | .settle =>
    if some journal.id = plan.originalJournalId then { journal with status := .settled }
    else journal
  | .reverse mode =>
    if journal.postedIn plan.transactionId mode && journal.status.reversible then
      { journal with status := .reversed }
    else journal
  | .direct => journal
  | .reserve => journal

@[simp] theorem Plan.closeJournal_id (plan : Plan) (journal : Journal) :
    (plan.closeJournal journal).id = journal.id := by
  unfold Plan.closeJournal
  split <;> (try split) <;> rfl

/-- The database after a committed plan. -/
structure Committed (before : Db) (plan : Plan) (journalId : ℕ) (entries : List Entry)
    (after : Db) : Prop where
  unposted : before.findJournal plan.transactionId plan.operation = none
  fresh : journalId = before.journals.next
  posted : Posted ⟨plan.transactionId, journalId⟩ before (plan.lines.zipIdx 1) entries after
  journals : after.journals.rows =
    before.journals.rows.map plan.closeJournal ++ [plan.journal journalId]
  requests : ∃ charge commission : ℤ, plan.charge = charge ∧ plan.commission = commission ∧
    after.requests = (before.closeRequest plan charge commission).requests
  refunds : after.refunds = before.refunds
  categories : after.categories = before.categories

theorem Db.openJournal_eq_some {before opened : Db} {transactionId : ℤ} {operation : Operation}
    {originalJournalId : Option ℕ} {currency : String} {payload : Payload} {journalId : ℕ}
    (hopen : before.openJournal transactionId operation originalJournalId currency payload =
      some (journalId, opened)) :
    before.findJournal transactionId operation = none ∧ journalId = before.journals.next ∧
      opened.journals.rows = before.journals.rows ++
        [{ id := journalId, transactionId := transactionId, operation := operation,
           status := .processing, originalJournalId := originalJournalId, currency := currency,
           payload := payload }] ∧
      opened = { before with journals := opened.journals } := by
  unfold Db.openJournal at hopen
  split at hopen
  case h_1 => cases hopen
  case h_2 hnone =>
    cases hopen
    exact ⟨hnone, rfl, rfl, rfl⟩

@[simp] theorem Db.setJournalStatus_rows (db : Db) (select : Journal → Bool)
    (status : JournalStatus) :
    (db.setJournalStatus select status).journals.rows =
      db.journals.rows.map fun journal =>
        if select journal then { journal with status := status } else journal := rfl

theorem Db.closeJournals_rows (db : Db) (plan : Plan) :
    (db.closeJournals plan).journals.rows = db.journals.rows.map plan.closeJournal := by
  unfold Db.closeJournals Plan.closeJournal
  cases plan.operation with
  | direct => simp
  | reserve => simp
  | settle => simp
  | reverse mode => simp

/-- Closing journals writes nothing but journals. -/
theorem Db.closeJournals_eq (db : Db) (plan : Plan) :
    db.closeJournals plan = { db with journals := (db.closeJournals plan).journals } := by
  unfold Db.closeJournals
  cases plan.operation <;> rfl

theorem Db.commit_eq_some {before after : Db} {plan : Plan} {journalId : ℕ}
    (hcommit : before.commit plan = some (journalId, after)) :
    ∃ entries, Committed before plan journalId entries after := by
  simp only [Db.commit, Option.bind_eq_bind, Option.bind_eq_some_iff, Option.pure_def,
    Option.some.injEq, Prod.mk.injEq, Prod.exists] at hcommit
  obtain ⟨id, opened, hopen, posted, hposted, _, _, charge, hcharge, commission, hcommission, rfl,
    rfl⟩ := hcommit
  rw [Amount.cents?_eq_some] at hcharge hcommission
  obtain ⟨hnone, hfresh, hrows, hopened⟩ := Db.openJournal_eq_some hopen
  obtain ⟨entries, hentries⟩ := Db.postLines_posted hposted
  have hframe := Db.postLines_frame hposted
  have hclose := Db.closeJournals_eq posted plan
  refine ⟨entries, hnone, hfresh, ?_, ?_, ⟨charge, commission, hcharge, hcommission, ?_⟩,
    ?_, ?_⟩
  · apply hentries.congr
    · rw [hopened]
    · rw [hopened]
    · show (posted.closeJournals plan).wallets = _
      rw [hclose]
    · show (posted.closeJournals plan).entries = _
      rw [hclose]
  · show (posted.closeJournals plan).journals.rows.map _ = _
    rw [Db.closeJournals_rows, hframe.journals, hrows, List.map_map, List.map_append]
    refine congrArg₂ _ ?_ ?_
    · -- An older journal has a smaller id than the new one.
      refine List.map_congr_left fun journal hjournal => ?_
      have hne : journal.id ≠ id := by
        rw [hfresh]
        exact (before.journals.below journal hjournal).ne
      simp [hne]
    · -- Whatever closing does to the new journal, its status is written last.
      cases hoperation : plan.operation with
      | direct => simp [Plan.closeJournal, Plan.journal, hoperation]
      | reserve => simp [Plan.closeJournal, Plan.journal, hoperation]
      | settle =>
        simp only [Plan.closeJournal, Plan.journal, hoperation, List.map_cons, List.map_nil,
          Function.comp_apply]
        split <;> simp
      | reverse mode =>
        simp [Plan.closeJournal, Plan.journal, hoperation, Journal.postedIn, Operation.action]
  · have hrequests : (posted.closeJournals plan).requests = before.requests := by
      rw [hclose, hframe.requests, hopened]
    show ((posted.closeJournals plan).closeRequest plan charge commission).requests = _
    simp only [Db.closeRequest, Db.updateRequest, hrequests]
  · show (posted.closeJournals plan).refunds = _
    rw [hclose, hframe.refunds, hopened]
  · show (posted.closeJournals plan).categories = _
    rw [hclose, hframe.categories, hopened]

/-! ## Committed refunds -/

/-- The journal that a committed refund leaves behind. -/
def RefundPlan.journal (plan : RefundPlan) (currency : String) (id : ℕ) : Journal where
  id := id
  transactionId := plan.refundTransactionId
  operation := .direct
  status := .completed
  originalJournalId := some plan.originalJournalId
  currency := currency
  payload := refundPayload

def RefundPlan.row (plan : RefundPlan) (journalId : ℕ) : MerchantRefund where
  originalTransactionId := plan.original.transactionId
  refundTransactionId := plan.refundTransactionId
  refundReference := plan.reference
  journalId := journalId

def RefundPlan.lines (plan : RefundPlan) : List Line :=
  plan.entries.map fun entry => entry.giveBack entry.currency

/-- The database after a committed refund. -/
structure Refunded (before : Db) (plan : RefundPlan) (journalId : ℕ) (entries : List Entry)
    (after : Db) : Prop where
  unused : before.requests.find? plan.refundTransactionId = none
  unposted : before.findJournal plan.refundTransactionId .direct = none
  fresh : journalId = before.journals.next
  posted : Posted ⟨plan.refundTransactionId, journalId⟩ before (plan.lines.zipIdx 1) entries after
  balanced : ¬ unbalancedRefund (after.journalEntries journalId)
  journals : ∃ currency, after.journals.rows =
    before.journals.rows ++ [plan.journal currency journalId]
  requests : before.requests.insert? plan.request = some after.requests
  refunds : after.refunds = before.refunds ++ [plan.row journalId]
  categories : after.categories = before.categories

theorem Db.insertRefund_eq_some {before after : Db} {row : MerchantRefund}
    (hinsert : before.insertRefund row = some after) :
    after = { before with refunds := before.refunds ++ [row] } := by
  unfold Db.insertRefund at hinsert
  split at hinsert
  · cases hinsert
  · cases hinsert
    rfl

theorem Db.commitRefund_eq_some {before after : Db} {plan : RefundPlan} {journalId : ℕ}
    (hcommit : before.commitRefund plan = some (journalId, after)) :
    ∃ entries, Refunded before plan journalId entries after := by
  simp only [Db.commitRefund, Option.bind_eq_bind, Option.bind_eq_some_iff, Prod.exists]
    at hcommit
  obtain ⟨requests, hrequests, currency, _, id, opened, hopen, posted, hposted, hcommit⟩ :=
    hcommit
  split at hcommit
  · cases hcommit
  rename_i hbalanced
  split at hcommit
  case isFalse => cases hcommit
  rw [Option.bind_eq_some_iff] at hcommit
  obtain ⟨recorded, hrecorded, hcommit⟩ := hcommit
  cases hcommit
  obtain rfl := Db.insertRefund_eq_some hrecorded
  obtain ⟨hnone, hfresh, hrows, hopened⟩ := Db.openJournal_eq_some hopen
  obtain ⟨entries, hentries⟩ := Db.postLines_posted hposted
  have hframe := Db.postLines_frame hposted
  refine ⟨entries, ?_, hnone, hfresh, ?_, hbalanced, ⟨currency, ?_⟩, ?_, ?_, ?_⟩
  · exact (Table.insert?_eq_some hrequests).1
  · apply hentries.congr
    · rw [hopened]
    · rw [hopened]
    · rfl
    · rfl
  · show posted.journals.rows.map _ = _
    rw [hframe.journals, hrows, List.map_append]
    refine congrArg₂ _ ?_ ?_
    · -- An older journal has a smaller id than the new one.
      refine (List.map_congr_left fun journal hjournal => ?_).trans (List.map_id _)
      have hne : journal.id ≠ journalId := by
        rw [hfresh]
        exact (before.journals.below journal hjournal).ne
      simp [hne]
    · simp [RefundPlan.journal]
  · show _ = some posted.requests
    rw [hframe.requests, hopened]
    exact hrequests
  · show posted.refunds ++ _ = _
    rw [hframe.refunds, hopened]
    rfl
  · show posted.categories = _
    rw [hframe.categories, hopened]

end Finify.Posting
