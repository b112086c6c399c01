/-
# Posted lines are given back at most once

Reversals and refunds give the same money back, and each keeps its own record of
having done so: a reversal the statuses of the journals, a refund its row.  Only
where a call heeds both records is every posted line undone at most once.
-/

import Finify.Posting.Postings

namespace Finify.Posting

open Finify.Foundations

/-! ## The condition -/

def Db.HasRefund (db : Db) (transactionId : ℤ) : Prop :=
  ∃ row ∈ db.refunds, row.originalTransactionId = transactionId

/-- A journal that reverses the transaction in some mode. -/
def Db.HasReversal (db : Db) (transactionId : ℤ) : Prop :=
  ∃ journal ∈ db.journals.rows, journal.transactionId = transactionId ∧
    journal.operation.action = .reverse

/-- What an operation that passes the checks of the procedure must find.  A
posting comes before any give-back.  A reversal comes before any refund, and the
transaction has been posted in no other mode. -/
def Db.GiveBackFree (db : Db) (transactionId : ℤ) : Operation → Prop
  | .reverse mode =>
    ¬ db.HasRefund transactionId ∧ ∀ other ≠ mode, ¬ db.PostedIn transactionId other
  | .direct => ¬ db.HasRefund transactionId ∧ ¬ db.HasReversal transactionId
  | .reserve => ¬ db.HasRefund transactionId ∧ ¬ db.HasReversal transactionId
  | .settle => ¬ db.HasRefund transactionId ∧ ¬ db.HasReversal transactionId

/-- Calls that pass their checks find the transaction as the operation needs it;
a refund that passes finds no open reservation, which it would leave behind. -/
def GivesBackOnce (transactionId : ℤ) (db : Db) : Event → Prop
  | .transaction call =>
    ∀ operation, call.payload.transactionId = some transactionId →
      call.operation? = some operation → db.Passes call →
        db.GiveBackFree transactionId operation
  | .refund call =>
    call.originalTransactionId = some transactionId →
      (∃ plan, db.planRefund call = .ok plan) →
        ∀ journal ∈ db.journals.rows, journal.postsFor transactionId →
          journal.status ≠ .reserved

/-! ## Entries that undo entries -/

/-- `give` gives `post` back: it refers to it and moves the same wallet the other
way. -/
structure Undoes (post give : Entry) : Prop where
  refers : give.reversesEntryId = some post.id
  wallet : give.accountNumber = post.accountNumber
  movement : give.movement = -post.movement

def Db.giveBacks (db : Db) (transactionId : ℤ) : List Entry :=
  db.entries.rows.filter fun entry =>
    ∃ post ∈ db.postEntries transactionId, entry.reversesEntryId = some post.id

def Db.timesGivenBack (db : Db) (post : Entry) : ℕ :=
  (db.entries.rows.filter fun entry => entry.reversesEntryId = some post.id).length

/-- What the postings of the transaction have added to a wallet. -/
def Db.postingEffect (db : Db) (transactionId wallet : ℤ) : ℤ :=
  accountTotal Entry.movement wallet (db.postEntries transactionId)

/-- The same with all entries that give the postings back. -/
def Db.netEffect (db : Db) (transactionId wallet : ℤ) : ℤ :=
  accountTotal Entry.movement wallet
    (db.postEntries transactionId ++ db.giveBacks transactionId)

theorem accountTotal_append (column : Entry → ℤ) (wallet : ℤ) (first second : List Entry) :
    accountTotal column wallet (first ++ second) =
      accountTotal column wallet first + accountTotal column wallet second := by
  simp [accountTotal]

theorem accountTotal_perm (column : Entry → ℤ) (wallet : ℤ) {first second : List Entry}
    (hperm : first.Perm second) :
    accountTotal column wallet first = accountTotal column wallet second :=
  ((hperm.filter _).map column).sum_eq

theorem accountTotal_undone (wallet : ℤ) {posts gives : List Entry}
    (hundone : List.Forall₂ Undoes posts gives) :
    accountTotal Entry.movement wallet gives = -accountTotal Entry.movement wallet posts := by
  induction hundone with
  | nil => rfl
  | @cons post give posts gives hundoes _ ih =>
    unfold accountTotal at ih ⊢
    rw [List.filter_cons, List.filter_cons, hundoes.wallet]
    by_cases hwallet : post.accountNumber = wallet
    · simp only [hwallet, decide_true, if_true, List.map_cons, List.sum_cons, ih,
        hundoes.movement]
      omega
    · simpa [hwallet] using ih

theorem Entry.movement_giveBack {header : Header} {number : ℕ} {post give : Entry}
    {currency : String} (hrecord : RecordedBy header (post.giveBack currency, number) give) :
    give.movement = -post.movement := by
  have hdebit := hrecord.debit
  have hcredit := hrecord.credit
  rw [post.giveBack_debit] at hdebit
  rw [post.giveBack_credit] at hcredit
  have hdebit : give.debit = post.credit := by exact_mod_cast hdebit
  have hcredit : give.credit = post.debit := by exact_mod_cast hcredit
  unfold Entry.movement
  omega

/-- Posting the lines that give entries back undoes these entries. -/
theorem undoes_of_recorded {header : Header} {posts gives : List Entry}
    {currency : Entry → String}
    (hrecorded : List.Forall₂ (RecordedBy header)
      ((posts.map fun post => post.giveBack (currency post)).zipIdx 1) gives) :
    List.Forall₂ Undoes posts gives := by
  have hlines : List.Forall₂ (fun line give => ∃ number, RecordedBy header (line, number) give)
      (((posts.map fun post => post.giveBack (currency post)).zipIdx 1).map Prod.fst) gives := by
    rw [List.forall₂_map_left_iff]
    exact hrecorded.imp fun _ _ hrecord => ⟨_, hrecord⟩
  rw [List.zipIdx_map_fst, List.forall₂_map_left_iff] at hlines
  refine hlines.imp ?_
  rintro post give ⟨number, hrecord⟩
  exact ⟨hrecord.reverses, hrecord.wallet, Entry.movement_giveBack hrecord⟩

theorem exists_undone {posts gives : List Entry} (hundone : List.Forall₂ Undoes posts gives)
    {give : Entry} (hgive : give ∈ gives) :
    ∃ post ∈ posts, give.reversesEntryId = some post.id := by
  induction hundone with
  | nil => cases hgive
  | cons hundoes _ ih =>
    rcases List.mem_cons.mp hgive with rfl | hrest
    · exact ⟨_, List.mem_cons_self, hundoes.refers⟩
    · obtain ⟨post, hpost, hrefers⟩ := ih hrest
      exact ⟨post, List.mem_cons_of_mem _ hpost, hrefers⟩

/-! ## References -/

/-- The foreign key of `reverses_entry_id`. -/
def Db.Linked (db : Db) : Prop :=
  ∀ entry ∈ db.entries.rows, ∀ id, entry.reversesEntryId = some id →
    ∃ target ∈ db.entries.rows, target.id = id

section Posted

variable {before after : Db} {entries : List Entry}

/-- New entries have ids of their own. -/
theorem id_lt_of_appended (happended : after.entries.rows = before.entries.rows ++ entries)
    {old new : Entry} (hold : old ∈ before.entries.rows) (hnew : new ∈ entries) :
    old.id < new.id := by
  have hincreasing := after.entries.increasing
  rw [happended] at hincreasing
  exact (List.pairwise_append.mp hincreasing).2.2 old hold new hnew

/-- New entries refer to old ones only, so among the entries that give the
transaction back they add those that refer to its old postings. -/
theorem Db.Linked.giveBacks_of_appended (hlinked : before.Linked)
    (happended : after.entries.rows = before.entries.rows ++ entries)
    (hrefers : ∀ entry ∈ entries, ∀ id, entry.reversesEntryId = some id →
      ∃ target ∈ before.entries.rows, target.id = id)
    {transactionId : ℤ} {posts : List Entry} (hsubset : ∀ post ∈ posts, post ∈ entries)
    (hposts : after.postEntries transactionId = before.postEntries transactionId ++ posts) :
    after.Linked ∧
      after.giveBacks transactionId = before.giveBacks transactionId ++
        entries.filter fun entry =>
          ∃ post ∈ before.postEntries transactionId, entry.reversesEntryId = some post.id := by
  have hall : ∀ entry ∈ after.entries.rows, ∀ id, entry.reversesEntryId = some id →
      ∃ target ∈ before.entries.rows, target.id = id := by
    intro entry hentry
    rw [happended, List.mem_append] at hentry
    rcases hentry with hold | hnew
    · exact hlinked entry hold
    · exact hrefers entry hnew
  constructor
  · intro entry hentry id hid
    obtain ⟨target, htarget, hsame⟩ := hall entry hentry id hid
    rw [happended]
    exact ⟨target, List.mem_append_left _ htarget, hsame⟩
  · have hsame : after.giveBacks transactionId = after.entries.rows.filter fun entry =>
        ∃ post ∈ before.postEntries transactionId, entry.reversesEntryId = some post.id := by
      apply List.filter_congr
      intro entry hentry
      rw [decide_eq_decide, hposts]
      constructor
      · rintro ⟨post, hpost, hid⟩
        rcases List.mem_append.mp hpost with hold | hnew
        · exact ⟨post, hold, hid⟩
        · obtain ⟨target, htarget, hsame⟩ := hall entry hentry _ hid
          have hlt := id_lt_of_appended happended htarget (hsubset post hnew)
          omega
      · rintro ⟨post, hpost, hid⟩
        exact ⟨post, List.mem_append_left _ hpost, hid⟩
    rw [hsame, happended, List.filter_append]
    rfl

end Posted

theorem Db.transaction_of_postEntry {db : Db} {transactionId : ℤ} {post : Entry}
    (hpost : post ∈ db.postEntries transactionId) {journal : Journal}
    (hjournal : journal ∈ db.journals.rows) (hid : post.journalId = journal.id) :
    journal.transactionId = transactionId := by
  obtain ⟨_, own, hown, hsame, hposts⟩ := Db.mem_postEntries.mp hpost
  rw [db.journals.eq_of_serial_eq hjournal hown (hid.symm.trans hsame)]
  exact (Journal.postsFor_iff.mp hposts).1

theorem Db.eq_of_postEntry_id {db : Db} {transactionId : ℤ} {post target : Entry}
    (hpost : post ∈ db.postEntries transactionId) (htarget : target ∈ db.entries.rows)
    (hid : target.id = post.id) : target = post :=
  db.entries.eq_of_serial_eq htarget (Db.mem_postEntries.mp hpost).1 hid

/-! ## What calls give back -/

theorem Db.joinEntries_congr {db : Db} {first second : Journal → Bool}
    (hsame : ∀ journal ∈ db.journals.rows, first journal = second journal) :
    db.joinEntries first = db.joinEntries second := by
  unfold Db.joinEntries
  rw [List.filter_congr hsame]

/-- Where all its postings can be reversed in one mode, reversing this mode gives
back every posted line of the transaction. -/
theorem Db.reversalEntries_perm {db : Db} {transactionId : ℤ} {mode : Mode}
    (hall : ∀ journal ∈ db.journals.rows, journal.postsFor transactionId →
      journal.operation.mode = mode ∧ journal.status.reversible) :
    (db.reversalEntries transactionId mode).Perm (db.postEntries transactionId) := by
  unfold Db.reversalEntries Db.postEntries
  refine ((giveBackOrder_perm _).map _).trans ?_
  rw [Db.joinEntries_congr]
  intro journal hjournal
  rw [Bool.eq_iff_iff, Bool.and_eq_true, Journal.postedIn_iff, Journal.postsFor_iff]
  constructor
  · rintro ⟨⟨htransaction, _, haction⟩, _⟩
    exact ⟨htransaction, haction⟩
  · rintro ⟨htransaction, haction⟩
    obtain ⟨hmode, hstatus⟩ :=
      hall journal hjournal (Journal.postsFor_iff.mpr ⟨htransaction, haction⟩)
    exact ⟨⟨htransaction, hmode, haction⟩, hstatus⟩

/-- Where all its posting journals are refundable, a refund gives back every
posted line of the transaction. -/
theorem Db.refundEntries_perm {db : Db} {transactionId : ℤ}
    (hall : ∀ journal ∈ db.journals.rows, journal.postsFor transactionId →
      journal.status.refundable) :
    (db.refundEntries transactionId).Perm (db.postEntries transactionId) := by
  unfold Db.refundEntries Db.postEntries
  refine ((giveBackOrder_perm _).map _).trans ?_
  rw [Db.joinEntries_congr]
  intro journal hjournal
  rw [Bool.eq_iff_iff, Journal.postsFor_iff]
  simp only [Journal.refundable, Bool.decide_and, Bool.and_eq_true, decide_eq_true_eq]
  constructor
  · rintro ⟨htransaction, haction, _⟩
    exact ⟨htransaction, haction⟩
  · rintro ⟨htransaction, haction⟩
    exact ⟨htransaction, haction,
      hall journal hjournal (Journal.postsFor_iff.mpr ⟨htransaction, haction⟩)⟩

theorem positiveLine_original {wallet : ℤ} {side : Side} {amount : Amount} {category : Category}
    {currency : String} {line : Line}
    (hline : line ∈ positiveLine wallet side amount category currency) :
    line.originalEntryId = none := by
  unfold positiveLine at hline
  split at hline
  · rw [List.mem_singleton.mp hline]
  · cases hline

theorem distribution_original {amounts : PostingAmounts} {terms : Terms} {currency : String}
    {line : Line} (hline : line ∈ amounts.distribution terms currency) :
    line.originalEntryId = none := by
  simp only [PostingAmounts.distribution, List.mem_append] at hline
  rcases hline with (((hline | hline) | hline) | hline) | hline <;>
    exact positiveLine_original hline

/-- A plan posts lines of its own, or gives back the entries posted in a mode. -/
theorem Db.planOperation_lines {db : Db} {request : Request} {operation : Operation}
    {terms : Terms} {payload : Payload} {plan : Plan}
    (hplan : db.planOperation request operation terms payload = .ok plan) :
    (operation.action = .post ∧ ∀ line ∈ plan.lines, line.originalEntryId = none) ∨
      ∃ mode currency, operation = .reverse mode ∧
        plan.lines = (db.reversalEntries request.transactionId mode).map (·.giveBack currency) := by
  cases operation with
  | direct =>
    obtain ⟨_, rfl⟩ := planPosting_eq_ok (planFirstLeg_eq_ok hplan).2
    refine .inl ⟨rfl, fun line hline => ?_⟩
    rcases List.mem_append.mp hline with hsource | hrest
    · exact positiveLine_original hsource
    · exact distribution_original hrest
  | reserve =>
    obtain ⟨_, rfl⟩ := planPosting_eq_ok (planFirstLeg_eq_ok hplan).2
    refine .inl ⟨rfl, fun line hline => ?_⟩
    simp only [PostingAmounts.reserveLines, List.mem_cons, List.not_mem_nil, or_false] at hline
    rcases hline with rfl | rfl <;> rfl
  | settle =>
    obtain ⟨_, _, _, hposting⟩ := Db.planSettle_eq_ok hplan
    obtain ⟨_, rfl⟩ := planPosting_eq_ok hposting
    refine .inl ⟨rfl, fun line hline => ?_⟩
    rcases List.mem_cons.mp hline with rfl | hrest
    · rfl
    · exact distribution_original hrest
  | reverse mode =>
    obtain ⟨_, _, rfl⟩ := Db.planReverse_eq_ok hplan
    exact .inr ⟨mode, _, rfl, rfl⟩

/-- A committed plan records entries of its own, or undoes the entries posted in
a mode. -/
theorem Planned.records {before after : Db} {call : Call} {request : Request} {terms : Terms}
    {plan : Plan} {journalId : ℕ} {entries : List Entry}
    (hplanned : Planned before call request terms plan)
    (hcommitted : Committed before plan journalId entries after) :
    (plan.operation.action = .post ∧ ∀ entry ∈ entries, entry.reversesEntryId = none) ∨
      ∃ mode, plan.operation = .reverse mode ∧
        List.Forall₂ Undoes (before.reversalEntries plan.transactionId mode) entries := by
  have hrecorded := hcommitted.posted.recorded
  rcases Db.planOperation_lines hplanned.planned with ⟨haction, hlines⟩ | hreverse
  · refine .inl ⟨haction, fun entry hentry => ?_⟩
    obtain ⟨numbered, hmem, hrecord⟩ := exists_line_of_recorded hrecorded hentry
    rw [hrecord.reverses]
    refine hlines numbered.1 ?_
    have hline := List.mem_map_of_mem (f := Prod.fst) hmem
    rwa [List.zipIdx_map_fst] at hline
  · obtain ⟨mode, currency, hoperation, hlines⟩ := hreverse
    rw [hlines, ← hplanned.transactionId] at hrecorded
    exact .inr ⟨mode, hoperation, undoes_of_recorded hrecorded⟩

theorem RefundPlanned.records {before after : Db} {call : RefundCall} {plan : RefundPlan}
    {journalId : ℕ} {entries : List Entry} (hplanned : RefundPlanned before call plan)
    (hrefunded : Refunded before plan journalId entries after) :
    List.Forall₂ Undoes (before.refundEntries plan.original.transactionId) entries := by
  rw [← hplanned.entries]
  exact undoes_of_recorded hrefunded.posted.recorded

/-- Among entries that undo postings of one transaction, those that refer to
postings of `transactionId` are all of them or none. -/
theorem Db.filter_undone {db : Db} {owner : ℤ} {posts gives : List Entry}
    (hposts : ∀ post ∈ posts, post ∈ db.postEntries owner)
    (hundone : List.Forall₂ Undoes posts gives) (transactionId : ℤ) :
    (gives.filter fun give =>
        ∃ post ∈ db.postEntries transactionId, give.reversesEntryId = some post.id) =
      if owner = transactionId then gives else [] := by
  by_cases hown : owner = transactionId
  · subst hown
    rw [if_pos rfl, List.filter_eq_self]
    intro give hgive
    obtain ⟨post, hpost, hrefers⟩ := exists_undone hundone hgive
    exact decide_eq_true ⟨post, hposts post hpost, hrefers⟩
  · rw [if_neg hown, List.filter_eq_nil_iff]
    intro give hgive hrefers
    obtain ⟨post, hpost, hid⟩ := of_decide_eq_true hrefers
    obtain ⟨target, htarget, htargetId⟩ := exists_undone hundone hgive
    have hsame : target.id = post.id := Option.some.inj (htargetId.symm.trans hid)
    obtain ⟨hmem, journal, hjournal, hjournalId, hfor⟩ := Db.mem_postEntries.mp (hposts _ htarget)
    rw [Db.eq_of_postEntry_id hpost hmem hsame] at hjournalId
    have htransaction := Db.transaction_of_postEntry hpost hjournal hjournalId
    exact hown ((Journal.postsFor_iff.mp hfor).1.symm.trans htransaction)

theorem Db.postEntry_of_reversalEntry {db : Db} {transactionId : ℤ} {mode : Mode} :
    ∀ post ∈ db.reversalEntries transactionId mode, post ∈ db.postEntries transactionId := by
  intro post hpost
  obtain ⟨hmem, journal, hjournal, hid, hposted, _⟩ := Db.mem_reversalEntries.mp hpost
  obtain ⟨htransaction, _, haction⟩ := Journal.postedIn_iff.mp hposted
  exact Db.mem_postEntries.mpr
    ⟨hmem, journal, hjournal, hid, Journal.postsFor_iff.mpr ⟨htransaction, haction⟩⟩

theorem Db.postEntry_of_refundEntry {db : Db} {transactionId : ℤ} :
    ∀ post ∈ db.refundEntries transactionId, post ∈ db.postEntries transactionId := by
  intro post hpost
  obtain ⟨hmem, journal, hjournal, hid, hrefundable⟩ := Db.mem_refundEntries.mp hpost
  simp only [Journal.refundable, Bool.decide_and, Bool.and_eq_true, decide_eq_true_eq]
    at hrefundable
  exact Db.mem_postEntries.mpr ⟨hmem, journal, hjournal, hid,
    Journal.postsFor_iff.mpr ⟨hrefundable.1, hrefundable.2.1⟩⟩

section Effect

variable {start before after : Db} {journalId : ℕ} {entries : List Entry}

/-- A committed plan adds its entries to what gives the transaction back if it
reverses the transaction. -/
theorem Planned.giveBacks {call : Call} {request : Request} {terms : Terms} {plan : Plan}
    (hplanned : Planned before call request terms plan)
    (hcommitted : Committed before plan journalId entries after) (hsound : Sound start before)
    (hlinked : before.Linked) (transactionId : ℤ) :
    after.Linked ∧
      after.giveBacks transactionId = before.giveBacks transactionId ++
        if plan.operation.action = .reverse ∧ plan.transactionId = transactionId then entries
        else [] := by
  have hposts := hsound.postEntries_of_committed hcommitted transactionId
  have hsubset : ∀ post ∈ (if plan.transactionId = transactionId ∧ plan.operation.action = .post
      then entries else []), post ∈ entries := by
    intro post hpost
    split at hpost
    · exact hpost
    · cases hpost
  rcases hplanned.records hcommitted with ⟨haction, hnone⟩ | ⟨mode, hoperation, hundone⟩
  · have hrefers : ∀ entry ∈ entries, ∀ id, entry.reversesEntryId = some id →
        ∃ target ∈ before.entries.rows, target.id = id := by
      intro entry hentry id hid
      rw [hnone entry hentry] at hid
      cases hid
    obtain ⟨hafter, hgives⟩ :=
      hlinked.giveBacks_of_appended hcommitted.posted.appended hrefers hsubset hposts
    refine ⟨hafter, hgives.trans (congrArg _ ?_)⟩
    rw [if_neg (by simp [haction]), List.filter_eq_nil_iff]
    intro entry hentry
    simp [hnone entry hentry]
  · have hposted := @Db.postEntry_of_reversalEntry before plan.transactionId mode
    have hrefers : ∀ entry ∈ entries, ∀ id, entry.reversesEntryId = some id →
        ∃ target ∈ before.entries.rows, target.id = id := by
      intro entry hentry id hid
      obtain ⟨post, hpost, hrefer⟩ := exists_undone hundone hentry
      exact ⟨post, (Db.mem_postEntries.mp (hposted post hpost)).1,
        Option.some.inj (hrefer.symm.trans hid)⟩
    obtain ⟨hafter, hgives⟩ :=
      hlinked.giveBacks_of_appended hcommitted.posted.appended hrefers hsubset hposts
    refine ⟨hafter, hgives.trans (congrArg _ ?_)⟩
    rw [Db.filter_undone hposted hundone]
    simp [hoperation, Operation.action]

/-- A committed refund adds its entries to what gives its original back. -/
theorem RefundPlanned.giveBacks {call : RefundCall} {plan : RefundPlan}
    (hplanned : RefundPlanned before call plan)
    (hrefunded : Refunded before plan journalId entries after) (hsound : Sound start before)
    (hlinked : before.Linked) (transactionId : ℤ) :
    after.Linked ∧
      after.giveBacks transactionId = before.giveBacks transactionId ++
        if plan.original.transactionId = transactionId then entries else [] := by
  have hposts := hsound.postEntries_of_refunded hrefunded transactionId
  have hundone := hplanned.records hrefunded
  have hposted := @Db.postEntry_of_refundEntry before plan.original.transactionId
  have hsubset : ∀ post ∈ (if plan.refundTransactionId = transactionId then entries else []),
      post ∈ entries := by
    intro post hpost
    split at hpost
    · exact hpost
    · cases hpost
  have hrefers : ∀ entry ∈ entries, ∀ id, entry.reversesEntryId = some id →
      ∃ target ∈ before.entries.rows, target.id = id := by
    intro entry hentry id hid
    obtain ⟨post, hpost, hrefer⟩ := exists_undone hundone hentry
    exact ⟨post, (Db.mem_postEntries.mp (hposted post hpost)).1,
      Option.some.inj (hrefer.symm.trans hid)⟩
  obtain ⟨hafter, hgives⟩ :=
    hlinked.giveBacks_of_appended hrefunded.posted.appended hrefers hsubset hposts
  refine ⟨hafter, hgives.trans (congrArg _ ?_)⟩
  exact Db.filter_undone hposted hundone transactionId

end Effect

/-! ## Stages that have been given back -/

namespace Stage

variable {mode : Mode}

theorem reversible_of_standing {stage : Stage mode} (hstanding : stage.Standing)
    {operation : Operation} {status : JournalStatus}
    (hstatus : stage.journalStatus operation = some status) : status.reversible = true := by
  rcases operation with _ | _ | _ | ⟨_ | _⟩ <;> cases mode <;> cases stage <;> cases hstatus <;>
    first | rfl | exact absurd hstanding id

theorem refundable_of_not_closed {stage : Stage mode} (hopen : ¬ stage.Closed)
    {operation : Operation} {status : JournalStatus}
    (hstatus : stage.journalStatus operation = some status)
    (hreserved : status ≠ .reserved) : status.refundable = true := by
  rcases operation with _ | _ | _ | ⟨_ | _⟩ <;> cases mode <;> cases stage <;> cases hstatus <;>
    first
    | rfl
    | exact absurd rfl hreserved
    | exact absurd trivial hopen

theorem not_refundable_of_closed {stage : Stage mode} (hclosed : stage.Closed)
    {operation : Operation} {status : JournalStatus}
    (hstatus : stage.journalStatus operation = some status) (haction : operation.action = .post) :
    status.refundable = false := by
  rcases operation with _ | _ | _ | ⟨_ | _⟩ <;> cases mode <;> cases stage <;> cases hstatus <;>
    first | rfl | exact absurd hclosed id | cases haction

/-- What is not a posting takes back what is standing. -/
theorem standing_of_advance {stage next : Stage mode} {operation : Operation}
    (hadvance : stage.advance operation = some next) (haction : operation.action ≠ .post) :
    stage.Standing ∧ next.Closed := by
  rcases operation with _ | _ | _ | ⟨_ | _⟩ <;> cases mode <;> cases stage <;> cases hadvance <;>
    first | exact ⟨trivial, trivial⟩ | exact absurd rfl haction

theorem not_closed_of_advance_post {stage next : Stage mode} {operation : Operation}
    (hadvance : stage.advance operation = some next) (haction : operation.action = .post) :
    ¬ next.Closed := by
  rcases operation with _ | _ | _ | ⟨_ | _⟩ <;> cases mode <;> cases stage <;> cases hadvance <;>
    first | exact id | cases haction

theorem journalStatus_reverse_of_closed {stage : Stage mode} (hclosed : stage.Closed) :
    stage.journalStatus (.reverse mode) = some .completed := by
  cases mode <;> cases stage <;> first | rfl | cases hclosed

theorem journalStatus_fresh (operation : Operation) :
    (fresh : Stage mode).journalStatus operation = none := by
  rcases operation with _ | _ | _ | ⟨_ | _⟩ <;> cases mode <;> rfl

end Stage

/-! ## The invariant -/

/-- Nothing of the transaction has been given back. -/
structure Untouched (transactionId : ℤ) (db : Db) (stages : Stages) : Prop where
  none_given : db.giveBacks transactionId = []
  unrefunded : ¬ db.HasRefund transactionId
  unclosed : ∀ mode, ¬ (stages transactionId mode).Closed

/-- Every posted line of the transaction has been given back, and either the
refund is on record or the only mode in use is closed. -/
structure Undone (transactionId : ℤ) (db : Db) (stages : Stages) : Prop where
  undone : ∃ posts, posts.Perm (db.postEntries transactionId) ∧
    List.Forall₂ Undoes posts (db.giveBacks transactionId)
  settled : db.HasRefund transactionId ∨ ∃ mode, (stages transactionId mode).Closed ∧
    ∀ other ≠ mode, stages transactionId other = .fresh
  used : ∃ mode, stages transactionId mode ≠ .fresh

section Congr

variable {transactionId : ℤ} {before after : Db} {stages stages' : Stages}

theorem Untouched.congr (huntouched : Untouched transactionId before stages)
    (hgives : after.giveBacks transactionId = before.giveBacks transactionId)
    (hrefund : after.HasRefund transactionId → before.HasRefund transactionId)
    (hstages : stages' transactionId = stages transactionId) :
    Untouched transactionId after stages' where
  none_given := by rw [hgives, huntouched.none_given]
  unrefunded := fun h => huntouched.unrefunded (hrefund h)
  unclosed := by rw [hstages]; exact huntouched.unclosed

theorem Undone.congr (hundone : Undone transactionId before stages)
    (hposts : after.postEntries transactionId = before.postEntries transactionId)
    (hgives : after.giveBacks transactionId = before.giveBacks transactionId)
    (hrefund : before.HasRefund transactionId → after.HasRefund transactionId)
    (hstages : stages' transactionId = stages transactionId) :
    Undone transactionId after stages' where
  undone := by rw [hposts, hgives]; exact hundone.undone
  settled := by rw [hstages]; exact hundone.settled.imp_left hrefund
  used := by rw [hstages]; exact hundone.used

end Congr

/-- A closed mode has its reversal journal. -/
theorem Refines.hasReversal {db : Db} {stages : Stages} (hrefines : Refines db stages)
    {transactionId : ℤ} {mode : Mode} (hclosed : (stages transactionId mode).Closed) :
    db.HasReversal transactionId := by
  have hstatus := hrefines.status transactionId (.reverse mode)
  change _ = (stages transactionId mode).journalStatus (.reverse mode) at hstatus
  rw [Stage.journalStatus_reverse_of_closed hclosed] at hstatus
  obtain ⟨journal, hfind, _⟩ := Option.map_eq_some_iff.mp hstatus
  obtain ⟨hmem, htransaction, hoperation⟩ := Db.findJournal_eq_some hfind
  exact ⟨journal, hmem, htransaction, by rw [hoperation]; rfl⟩

/-- A transaction with a journal is past its first stage in the journal's mode. -/
theorem Refines.ne_fresh_of_mem {db : Db} {stages : Stages} (hrefines : Refines db stages)
    {journal : Journal} (hmem : journal ∈ db.journals.rows) :
    stages journal.transactionId journal.operation.mode ≠ .fresh := by
  intro hfresh
  have hstatus := hrefines.status_of_mem hmem
  rw [hfresh, Stage.journalStatus_fresh] at hstatus
  cases hstatus

/-- A transaction past its first stage has a request. -/
theorem Consistent.request_of_ne_fresh {start db : Db} {stages : Stages}
    (hconsistent : Consistent start db stages) {transactionId : ℤ} {mode : Mode}
    (hused : stages transactionId mode ≠ .fresh) :
    (db.requests.find? transactionId).isSome := by
  obtain ⟨operation, status, rfl, _, hstatus⟩ := Stage.exists_postStatus hused
  rw [← hconsistent.refines.status] at hstatus
  obtain ⟨journal, hfind, _⟩ := Option.map_eq_some_iff.mp hstatus
  obtain ⟨hmem, rfl, _⟩ := Db.findJournal_eq_some hfind
  exact hconsistent.requested.request journal hmem

theorem Refunded.hasRefund_iff {before after : Db} {plan : RefundPlan} {journalId : ℕ}
    {entries : List Entry} (hrefunded : Refunded before plan journalId entries after)
    (transactionId : ℤ) :
    after.HasRefund transactionId ↔
      before.HasRefund transactionId ∨ plan.original.transactionId = transactionId := by
  unfold Db.HasRefund
  rw [hrefunded.refunds]
  simp [RefundPlan.row, or_and_right, exists_or]

theorem Db.hasRefund_congr {before after : Db} (hrefunds : after.refunds = before.refunds)
    (transactionId : ℤ) : after.HasRefund transactionId ↔ before.HasRefund transactionId := by
  unfold Db.HasRefund
  rw [hrefunds]

theorem Db.giveBacks_congr {before after : Db} (hjournals : after.journals = before.journals)
    (hentries : after.entries = before.entries) (transactionId : ℤ) :
    after.giveBacks transactionId = before.giveBacks transactionId := by
  unfold Db.giveBacks
  rw [hentries, Db.postEntries_congr hjournals hentries]

section Committed

variable {start before after : Db} {stages : Stages} {call : Call} {request : Request}
  {terms : Terms} {plan : Plan} {journalId : ℕ} {entries : List Entry}
  {next : Stage plan.operation.mode}

/-- Posting gives nothing back. -/
theorem Untouched.post (huntouched : Untouched plan.transactionId before stages)
    (hcommitted : Committed before plan journalId entries after)
    (hgives : after.giveBacks plan.transactionId = before.giveBacks plan.transactionId)
    (hnext : (stages plan.transactionId plan.operation.mode).advance plan.operation = some next)
    (haction : plan.operation.action = .post) :
    Untouched plan.transactionId after
      (stages.set plan.transactionId plan.operation.mode next) where
  none_given := by rw [hgives, huntouched.none_given]
  unrefunded := by
    rw [Db.hasRefund_congr hcommitted.refunds]
    exact huntouched.unrefunded
  unclosed := by
    intro mode
    by_cases hmode : mode = plan.operation.mode
    · rw [hmode, Stages.set_self]
      exact Stage.not_closed_of_advance_post hnext haction
    · rw [Stages.set_of_ne_mode _ _ hmode]
      exact huntouched.unclosed mode

/-- Reversing the only mode in use gives every posted line back. -/
theorem Untouched.reverse (huntouched : Untouched plan.transactionId before stages)
    (hconsistent : Consistent start before stages)
    (hplanned : Planned before call request terms plan)
    (hcommitted : Committed before plan journalId entries after)
    (hgives : after.giveBacks plan.transactionId =
      before.giveBacks plan.transactionId ++ entries)
    (hnext : (stages plan.transactionId plan.operation.mode).advance plan.operation = some next)
    (haction : plan.operation.action ≠ .post)
    (hother : ∀ other ≠ plan.operation.mode, ¬ before.PostedIn plan.transactionId other) :
    Undone plan.transactionId after
      (stages.set plan.transactionId plan.operation.mode next) := by
  rcases hplanned.records hcommitted with ⟨hpost, _⟩ | ⟨mode, hoperation, hundone⟩
  · exact absurd hpost haction
  have hmode : plan.operation.mode = mode := by rw [hoperation]; rfl
  subst hmode
  obtain ⟨hstanding, hclosed⟩ := Stage.standing_of_advance hnext haction
  have hposts := hconsistent.sound.postEntries_of_committed hcommitted plan.transactionId
  rw [if_neg fun h => haction h.2, List.append_nil] at hposts
  refine ⟨⟨before.reversalEntries plan.transactionId plan.operation.mode, ?_, ?_⟩,
    .inr ⟨plan.operation.mode, ?_, ?_⟩, plan.operation.mode, ?_⟩
  · rw [hposts]
    apply Db.reversalEntries_perm
    intro journal hjournal hfor
    obtain ⟨htransaction, hpost⟩ := Journal.postsFor_iff.mp hfor
    have hsame : journal.operation.mode = plan.operation.mode := by
      by_contra hne
      exact hother _ hne
        ⟨journal, hjournal, Journal.postedIn_iff.mpr ⟨htransaction, rfl, hpost⟩⟩
    have hstatus := hconsistent.refines.status_of_mem hjournal
    rw [htransaction, hsame] at hstatus
    exact ⟨hsame, Stage.reversible_of_standing hstanding hstatus⟩
  · rw [hgives, huntouched.none_given, List.nil_append]
    exact hundone
  · rw [Stages.set_self]
    exact hclosed
  · intro other hne
    rw [Stages.set_of_ne_mode _ _ hne]
    exact hconsistent.refines.fresh_of_not_postedIn (hother other hne)
  · rw [Stages.set_self]
    exact hclosed.ne_fresh

/-- Once its lines have been given back, nothing more is posted for the
transaction. -/
theorem Undone.not_committed (hundone : Undone plan.transactionId before stages)
    (hrefines : Refines before stages)
    (hnext : (stages plan.transactionId plan.operation.mode).advance plan.operation = some next)
    (hfree : before.GiveBackFree plan.transactionId plan.operation) : False := by
  by_cases haction : plan.operation.action = .post
  · -- A posting finds no refund and no reversal, but one of them is there.
    have hopen : ¬ before.HasRefund plan.transactionId ∧
        ¬ before.HasReversal plan.transactionId := by
      cases hoperation : plan.operation with
      | direct => simpa only [hoperation, Db.GiveBackFree] using hfree
      | reserve => simpa only [hoperation, Db.GiveBackFree] using hfree
      | settle => simpa only [hoperation, Db.GiveBackFree] using hfree
      | reverse mode => simp [hoperation, Operation.action] at haction
    rcases hundone.settled with hrefund | ⟨mode, hclosed, _⟩
    · exact hopen.1 hrefund
    · exact hopen.2 (hrefines.hasReversal hclosed)
  · cases hoperation : plan.operation with
    | direct => exact haction (by rw [hoperation]; rfl)
    | reserve => exact haction (by rw [hoperation]; rfl)
    | settle => exact haction (by rw [hoperation]; rfl)
    | reverse mode =>
      rw [hoperation] at hfree
      rcases hundone.settled with hrefund | ⟨closed, hclosed, hfresh⟩
      · exact hfree.1 hrefund
      · by_cases hmode : plan.operation.mode = closed
        · subst hmode
          rw [hclosed.advance_eq_none] at hnext
          cases hnext
        · rw [hfresh _ hmode] at hnext
          rcases Stage.advance_fresh_eq_some hnext with hfirst | hfirst <;>
            simp [hfirst, Operation.action] at haction

end Committed

section Refunded

variable {start before after : Db} {stages : Stages} {call : RefundCall} {plan : RefundPlan}
  {journalId : ℕ} {entries : List Entry}

theorem Refunded.ne_original (hplanned : RefundPlanned before call plan)
    (hrefunded : Refunded before plan journalId entries after) :
    plan.original.transactionId ≠ plan.refundTransactionId := by
  intro hsame
  have hunused := hrefunded.unused
  rw [← hsame, hplanned.found] at hunused
  cases hunused

/-- A refund that finds no open reservation gives every posted line back. -/
theorem Untouched.refund (huntouched : Untouched plan.original.transactionId before stages)
    (hconsistent : Consistent start before stages) (hplanned : RefundPlanned before call plan)
    (hrefunded : Refunded before plan journalId entries after)
    (hgives : after.giveBacks plan.original.transactionId =
      before.giveBacks plan.original.transactionId ++ entries)
    (hreserved : ∀ journal ∈ before.journals.rows,
      journal.postsFor plan.original.transactionId → journal.status ≠ .reserved) :
    Undone plan.original.transactionId after
      (stages.set plan.refundTransactionId .direct .posted) := by
  have hne := hrefunded.ne_original hplanned
  have hposts :=
    hconsistent.sound.postEntries_of_refunded hrefunded plan.original.transactionId
  rw [if_neg (Ne.symm hne), List.append_nil] at hposts
  refine ⟨⟨before.refundEntries plan.original.transactionId, ?_, ?_⟩,
    .inl ((hrefunded.hasRefund_iff _).mpr (.inr rfl)), ?_⟩
  · rw [hposts]
    apply Db.refundEntries_perm
    intro journal hjournal hfor
    obtain ⟨htransaction, _⟩ := Journal.postsFor_iff.mp hfor
    have hstatus := hconsistent.refines.status_of_mem hjournal
    rw [htransaction] at hstatus
    exact Stage.refundable_of_not_closed (huntouched.unclosed _) hstatus
      (hreserved journal hjournal hfor)
  · rw [hgives, huntouched.none_given, List.nil_append]
    exact hplanned.records hrefunded
  · obtain ⟨journal, hjournal, hrefundable⟩ := Db.refundedJournal_eq_some hplanned.posted
    simp only [Journal.refundable, Bool.decide_and, Bool.and_eq_true, decide_eq_true_eq]
      at hrefundable
    refine ⟨journal.operation.mode, ?_⟩
    rw [Stages.set_of_ne_transaction _ hne, ← hrefundable.1]
    exact hconsistent.refines.ne_fresh_of_mem hjournal

/-- The transaction of a refund starts with nothing given back. -/
theorem Untouched.candidate (huntouched : Untouched plan.refundTransactionId before stages)
    (hplanned : RefundPlanned before call plan)
    (hrefunded : Refunded before plan journalId entries after)
    (hgives : after.giveBacks plan.refundTransactionId =
      before.giveBacks plan.refundTransactionId) :
    Untouched plan.refundTransactionId after
      (stages.set plan.refundTransactionId .direct .posted) where
  none_given := by rw [hgives, huntouched.none_given]
  unrefunded := by
    rw [hrefunded.hasRefund_iff]
    exact not_or.mpr ⟨huntouched.unrefunded, hrefunded.ne_original hplanned⟩
  unclosed := by
    intro mode
    by_cases hmode : mode = .direct
    · rw [hmode, Stages.set_self]
      exact id
    · rw [Stages.set_of_ne_mode _ _ hmode]
      exact huntouched.unclosed mode

/-- Once its lines have been given back, the transaction is not refunded. -/
theorem Undone.not_refunded (hundone : Undone plan.original.transactionId before stages)
    (hrefines : Refines before stages) (hplanned : RefundPlanned before call plan) : False := by
  rcases hundone.settled with ⟨row, hrow, horiginal⟩ | ⟨closed, hclosed, hfresh⟩
  · have hnone := hplanned.unrefunded
    simp only [Db.existingRefund, Option.orElse_eq_none, List.find?_eq_none] at hnone
    simpa [horiginal] using hnone.2 row hrow
  · obtain ⟨journal, hjournal, hrefundable⟩ := Db.refundedJournal_eq_some hplanned.posted
    simp only [Journal.refundable, Bool.decide_and, Bool.and_eq_true, decide_eq_true_eq]
      at hrefundable
    obtain ⟨htransaction, haction, hstatus⟩ := hrefundable
    have hused := hrefines.ne_fresh_of_mem hjournal
    rw [htransaction] at hused
    have hmode : journal.operation.mode = closed := by
      by_contra hne
      exact hused (hfresh _ hne)
    have hjournalStatus := hrefines.status_of_mem hjournal
    rw [htransaction, hmode] at hjournalStatus
    rw [Stage.not_refundable_of_closed hclosed hjournalStatus haction] at hstatus
    cases hstatus

end Refunded

/-! ## Runs -/

/-- Everything a run that gives the transaction back once maintains. -/
structure OnceGivenBack (transactionId : ℤ) (start db : Db) (stages : Stages) : Prop where
  consistent : Consistent start db stages
  linked : db.Linked
  given : Untouched transactionId db stages ∨ Undone transactionId db stages

namespace OnceGivenBack

variable {transactionId : ℤ} {start before after : Db} {stages : Stages}

theorem initial {db : Db} (hstart : db.Initial) (transactionId : ℤ) :
    OnceGivenBack transactionId db db Stages.initial where
  consistent := Consistent.initial hstart
  linked := by
    intro entry hentry
    rw [hstart.no_entries] at hentry
    cases hentry
  given := by
    refine .inl ⟨?_, ?_, fun _ => id⟩
    · simp [Db.giveBacks, hstart.no_entries]
    · simp [Db.HasRefund, hstart.no_refunds]

/-- A quiet call leaves what has been given back as it is. -/
theorem quiet (honce : OnceGivenBack transactionId start before stages)
    (hconsistent : Consistent start after stages) (hquiet : Quiet before after) :
    OnceGivenBack transactionId start after stages where
  consistent := hconsistent
  linked := by
    unfold Db.Linked
    rw [hquiet.entries]
    exact honce.linked
  given := by
    have hgives := Db.giveBacks_congr hquiet.journals hquiet.entries transactionId
    have hposts := Db.postEntries_congr hquiet.journals hquiet.entries transactionId
    have hrefund := Db.hasRefund_congr hquiet.refunds transactionId
    rcases honce.given with huntouched | hundone
    · exact .inl (huntouched.congr hgives hrefund.mp rfl)
    · exact .inr (hundone.congr hposts hgives hrefund.mpr rfl)

theorem committed {call : Call} {request : Request} {terms : Terms} {plan : Plan}
    {journalId : ℕ} {entries : List Entry} {next : Stage plan.operation.mode}
    (honce : OnceGivenBack transactionId start before stages)
    (hguard : GivesBackOnce transactionId before (.transaction call))
    (hplan : before.plan call = .ok plan) (hplanned : Planned before call request terms plan)
    (hcommitted : Committed before plan journalId entries after)
    (hnext : (stages plan.transactionId plan.operation.mode).advance plan.operation = some next)
    (hconsistent : Consistent start after
      (stages.set plan.transactionId plan.operation.mode next)) :
    OnceGivenBack transactionId start after
      (stages.set plan.transactionId plan.operation.mode next) := by
  obtain ⟨hlinked, hgives⟩ := hplanned.giveBacks hcommitted honce.consistent.sound honce.linked
    transactionId
  refine ⟨hconsistent, hlinked, ?_⟩
  by_cases hown : plan.transactionId = transactionId
  · subst hown
    have hfree : before.GiveBackFree plan.transactionId plan.operation :=
      hguard _ (hplanned.transactionId ▸ hplanned.transaction) hplanned.operation ⟨plan, hplan⟩
    rcases honce.given with huntouched | hundone
    · by_cases haction : plan.operation.action = .post
      · rw [if_neg (by simp [haction]), List.append_nil] at hgives
        exact .inl (huntouched.post hcommitted hgives hnext haction)
      · have hreverse : plan.operation.action = .reverse := by
          cases hcase : plan.operation.action with
          | post => exact absurd hcase haction
          | reverse => rfl
        rw [if_pos ⟨hreverse, rfl⟩] at hgives
        have hother : ∀ other ≠ plan.operation.mode,
            ¬ before.PostedIn plan.transactionId other := by
          cases hoperation : plan.operation with
          | direct => simp [hoperation, Operation.action] at haction
          | reserve => simp [hoperation, Operation.action] at haction
          | settle => simp [hoperation, Operation.action] at haction
          | reverse mode =>
            rw [hoperation] at hfree
            exact hfree.2
        exact .inr (huntouched.reverse honce.consistent hplanned hcommitted hgives hnext haction
          hother)
    · exact (hundone.not_committed honce.consistent.refines hnext hfree).elim
  · have hstages := Stages.set_of_ne_transaction stages (Ne.symm hown) plan.operation.mode next
    have hrefund := Db.hasRefund_congr hcommitted.refunds transactionId
    have hposts := honce.consistent.sound.postEntries_of_committed hcommitted transactionId
    rw [if_neg fun h => hown h.1, List.append_nil] at hposts
    rw [if_neg fun h => hown h.2, List.append_nil] at hgives
    rcases honce.given with huntouched | hundone
    · exact .inl (huntouched.congr hgives hrefund.mp hstages)
    · exact .inr (hundone.congr hposts hgives hrefund.mpr hstages)

theorem refunded {call : RefundCall} {plan : RefundPlan} {journalId : ℕ} {entries : List Entry}
    (honce : OnceGivenBack transactionId start before stages)
    (hguard : GivesBackOnce transactionId before (.refund call))
    (hplanned : RefundPlanned before call plan)
    (hrefunded : Refunded before plan journalId entries after)
    (hconsistent : Consistent start after
      (stages.set plan.refundTransactionId .direct .posted)) :
    OnceGivenBack transactionId start after
      (stages.set plan.refundTransactionId .direct .posted) := by
  obtain ⟨hlinked, hgives⟩ := hplanned.giveBacks hrefunded honce.consistent.sound honce.linked
    transactionId
  refine ⟨hconsistent, hlinked, ?_⟩
  by_cases horiginal : plan.original.transactionId = transactionId
  · subst horiginal
    rw [if_pos rfl] at hgives
    have hreserved := hguard hplanned.transaction ⟨plan, hplanned.passes⟩
    rcases honce.given with huntouched | hundone
    · exact .inr (huntouched.refund honce.consistent hplanned hrefunded hgives hreserved)
    · exact (hundone.not_refunded honce.consistent.refines hplanned).elim
  · rw [if_neg horiginal, List.append_nil] at hgives
    by_cases hcandidate : plan.refundTransactionId = transactionId
    · subst hcandidate
      rcases honce.given with huntouched | hundone
      · exact .inl (huntouched.candidate hplanned hrefunded hgives)
      · -- A transaction in use has a request, and the candidate has none.
        obtain ⟨mode, hused⟩ := hundone.used
        have hrequest := honce.consistent.request_of_ne_fresh hused
        rw [hrefunded.unused] at hrequest
        cases hrequest
    · have hstages := Stages.set_of_ne_transaction stages (Ne.symm hcandidate) .direct .posted
      have hrefund := hrefunded.hasRefund_iff transactionId
      have hposts := honce.consistent.sound.postEntries_of_refunded hrefunded transactionId
      rw [if_neg hcandidate, List.append_nil] at hposts
      rcases honce.given with huntouched | hundone
      · refine .inl (huntouched.congr hgives ?_ hstages)
        intro hafter
        exact (hrefund.mp hafter).resolve_right horiginal
      · exact .inr (hundone.congr hposts hgives (fun h => hrefund.mpr (.inl h)) hstages)

theorem step {event : Event} (honce : OnceGivenBack transactionId start before stages)
    (hguard : GivesBackOnce transactionId before event)
    (hstep : before.step event = some after) :
    ∃ stages', OnceGivenBack transactionId start after stages' := by
  obtain ⟨stages', hprogress, hconsistent⟩ := honce.consistent.step hstep
  cases hprogress with
  | quiet hquiet => exact ⟨_, honce.quiet hconsistent hquiet⟩
  | committed hevent hplan hplanned hcommitted hnext =>
    subst hevent
    exact ⟨_, honce.committed hguard hplan hplanned hcommitted hnext hconsistent⟩
  | refunded hevent hplanned hrefunded hnext =>
    subst hevent
    exact ⟨_, honce.refunded hguard hplanned hrefunded hconsistent⟩

theorem run {db : Db} (hstart : start.Initial)
    (hrun : ReachesUnder Db.step (GivesBackOnce transactionId) start db) :
    ∃ stages, OnceGivenBack transactionId start db stages := by
  apply hrun.preserves fun db => ∃ stages, OnceGivenBack transactionId start db stages
  · rintro before event after ⟨stages, honce⟩ hguard hstep
    exact honce.step hguard hstep
  · exact ⟨_, initial hstart transactionId⟩

end OnceGivenBack

/-- Refund rows are kept. -/
theorem Db.HasRefund.step {before after : Db} {event : Event} {transactionId : ℤ}
    (hrefund : before.HasRefund transactionId) (hstep : before.step event = some after) :
    after.HasRefund transactionId := by
  cases Db.step_outcome hstep with
  | quiet hquiet => exact (Db.hasRefund_congr hquiet.refunds _).mpr hrefund
  | committed _ _ _ _ _ _ _ _ _ hcommitted =>
    exact (Db.hasRefund_congr hcommitted.refunds _).mpr hrefund
  | refunded _ _ _ _ _ _ hrefunded => exact (hrefunded.hasRefund_iff _).mpr (.inl hrefund)

/-! ## Counting -/

/-- No entry is posted twice. -/
theorem Db.postEntries_nodup (db : Db) (transactionId : ℤ) :
    ((db.postEntries transactionId).map Entry.id).Nodup :=
  db.entriesOf_nodup _

/-- Entries with different ids are undone by entries with different references. -/
theorem length_undoing_le_one {posts gives : List Entry}
    (hundone : List.Forall₂ Undoes posts gives) (hnodup : (posts.map Entry.id).Nodup) (id : ℕ) :
    (gives.filter fun give => give.reversesEntryId = some id).length ≤ 1 := by
  have hrefers : gives.map Entry.reversesEntryId = (posts.map Entry.id).map some := by
    induction hundone with
    | nil => rfl
    | cons hundoes _ ih =>
      rw [List.map_cons, List.nodup_cons] at hnodup
      rw [List.map_cons, List.map_cons, List.map_cons, ih hnodup.2, hundoes.refers]
  have hgives : (gives.map Entry.reversesEntryId).Nodup := by
    rw [hrefers]
    exact hnodup.map (Option.some_injective _)
  have hcount := List.nodup_iff_count_le_one.mp hgives (some id)
  rw [List.count, List.countP_map, List.countP_eq_length_filter] at hcount
  simpa [Function.comp_def, beq_eq_decide] using hcount

theorem Db.timesGivenBack_eq {db : Db} {transactionId : ℤ} {post : Entry}
    (hpost : post ∈ db.postEntries transactionId) :
    db.timesGivenBack post =
      ((db.giveBacks transactionId).filter fun give =>
        give.reversesEntryId = some post.id).length := by
  unfold Db.timesGivenBack Db.giveBacks
  rw [List.filter_filter]
  refine congrArg List.length (List.filter_congr fun entry _ => ?_)
  rw [← Bool.decide_and, decide_eq_decide]
  exact ⟨fun hid => ⟨hid, post, hpost, hid⟩, fun h => h.1⟩

/-- In a run in which a call that passes its checks posts the transaction only
before any give-back, reverses it only where it has not been refunded and is
posted in no other mode, and refunds it only without an open reservation: every
posted line is given back at most once, either all of them are given back or
none, and once the transaction has been refunded no call for it moves money. -/
theorem posted_lines_given_back_at_most_once {transactionId : ℤ} {start db : Db}
    (hstart : start.Initial)
    (hrun : ReachesUnder Db.step (GivesBackOnce transactionId) start db) :
    (∀ post ∈ db.postEntries transactionId, db.timesGivenBack post ≤ 1) ∧
    ((∀ wallet, db.netEffect transactionId wallet = db.postingEffect transactionId wallet) ∨
      ∀ wallet, db.netEffect transactionId wallet = 0) ∧
    (db.HasRefund transactionId →
      ∀ later, ReachesUnder Db.step (GivesBackOnce transactionId) db later →
        ∀ call after, call.payload.transactionId = some transactionId →
          GivesBackOnce transactionId later (.transaction call) →
          later.step (.transaction call) = some after → after.wallets = later.wallets) := by
  obtain ⟨stages, honce⟩ := OnceGivenBack.run hstart hrun
  refine ⟨?_, ?_, ?_⟩
  · intro post hpost
    rw [Db.timesGivenBack_eq hpost]
    rcases honce.given with huntouched | hundone
    · simp [huntouched.none_given]
    · obtain ⟨posts, hperm, hundoes⟩ := hundone.undone
      refine length_undoing_le_one hundoes ?_ post.id
      exact (hperm.map _).nodup_iff.mpr (db.postEntries_nodup transactionId)
  · rcases honce.given with huntouched | hundone
    · refine .inl fun wallet => ?_
      rw [Db.netEffect, huntouched.none_given, List.append_nil, Db.postingEffect]
    · refine .inr fun wallet => ?_
      obtain ⟨posts, hperm, hundoes⟩ := hundone.undone
      rw [Db.netEffect, accountTotal_append, accountTotal_undone wallet hundoes,
        accountTotal_perm _ wallet hperm, add_neg_cancel]
  · intro hrefund later hlater call after htransaction hguard hstep
    have hkept : ∃ stages, OnceGivenBack transactionId start later stages ∧
        later.HasRefund transactionId := by
      apply hlater.preserves fun db => ∃ stages, OnceGivenBack transactionId start db stages ∧
        db.HasRefund transactionId
      · rintro before event next ⟨stages, honce, hrefund⟩ hguard hstep
        obtain ⟨stages', honce'⟩ := honce.step hguard hstep
        exact ⟨stages', honce', hrefund.step hstep⟩
      · exact ⟨stages, honce, hrefund⟩
    obtain ⟨stages, honce, hrefund⟩ := hkept
    obtain ⟨stages', hprogress, _⟩ := honce.consistent.step hstep
    cases hprogress with
    | quiet hquiet => exact hquiet.wallets
    | @committed _ _ _ plan _ _ _ hevent hplan hplanned _ hnext =>
      cases hevent
      have hown : plan.transactionId = transactionId := by
        rw [hplanned.transactionId]
        exact Option.some.inj (hplanned.transaction.symm.trans htransaction)
      subst hown
      have hundone := honce.given.resolve_left fun huntouched =>
        huntouched.unrefunded hrefund
      exact (hundone.not_committed honce.consistent.refines hnext
        (hguard _ htransaction hplanned.operation ⟨plan, hplan⟩)).elim
    | refunded hevent _ _ _ => cases hevent

/-- A reversal after a refund pays the same lines back a second time. -/
theorem given_back_twice_shop :
    (runInputs Db.step shopDb [shopPost .direct 1, shopRefund, shopReverse .direct]).map
      (fun db => ((db.postEntries 7).map db.timesGivenBack, db.postingEffect 7 1,
        db.netEffect 7 1)) = some ([2, 2], -1000, 1000) := by
  decide +kernel

theorem posted_lines_given_back_at_most_once_shop :
    ∃ db, runInputs Db.step shopDb [shopPost .direct 1, shopRefund] = some db ∧
      db.HasRefund 7 ∧ ∀ post ∈ db.postEntries 7, db.timesGivenBack post ≤ 1 := by
  obtain ⟨db, hrun⟩ := Option.isSome_iff_exists.mp
    (by decide +kernel :
      (runInputs Db.step shopDb [shopPost .direct 1, shopRefund]).isSome = true)
  have hreserved : (shopDb.step (shopPost .direct 1)).all fun db =>
      db.journals.rows.all fun journal => journal.status ≠ .reserved := by
    decide +kernel
  have hrefunded : (runInputs Db.step shopDb [shopPost .direct 1, shopRefund]).any fun db =>
      db.refunds.any fun row => row.originalTransactionId = 7 := by
    decide +kernel
  rw [hrun] at hrefunded
  obtain ⟨posted, hpost, hrest⟩ := Option.bind_eq_some_iff.mp hrun
  obtain ⟨refunded, hrefund, hlast⟩ := Option.bind_eq_some_iff.mp hrest
  cases hlast
  have hfirst : GivesBackOnce 7 shopDb (shopPost .direct 1) := by
    intro operation _ hoperation _
    cases hoperation
    refine ⟨?_, ?_⟩
    · rintro ⟨row, hrow, _⟩
      cases hrow
    · rintro ⟨journal, hjournal, _⟩
      cases hjournal
  have hsecond : GivesBackOnce 7 posted shopRefund := by
    intro _ _ journal hjournal _
    rw [hpost] at hreserved
    simp only [Option.all_some, List.all_eq_true, decide_eq_true_eq] at hreserved
    exact hreserved journal hjournal
  have hreaches : ReachesUnder Db.step (GivesBackOnce 7) shopDb db :=
    .tail (.tail .refl ⟨_, hfirst, hpost⟩) ⟨_, hsecond, hrefund⟩
  have honce := posted_lines_given_back_at_most_once (Db.opening_initial _ _) hreaches
  exact ⟨db, hrun, by simpa [Db.HasRefund] using hrefunded, honce.1⟩

end Finify.Posting
