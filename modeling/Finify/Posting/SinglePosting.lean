/-
# At most one posting per transaction

Idempotency is looked up by operation, so nothing in the procedure keeps a
transaction from being posted in one mode after the other.  Where that does not
happen, the source is debited once and a reversed transaction stays closed.
-/

import Finify.Posting.Postings

namespace Finify.Posting

open Finify.Foundations

/-- No request starts out as reversed. -/
def Db.NoneReversed (db : Db) : Prop :=
  ∀ request ∈ db.requests.rows, request.transactionStatus ≠ some 6

instance (db : Db) : Decidable db.NoneReversed :=
  inferInstanceAs (Decidable (∀ request ∈ db.requests.rows, _))

def Mode.other : Mode → Mode
  | direct => twoLeg
  | twoLeg => direct

theorem Mode.eq_other_of_ne {first second : Mode} (hne : first ≠ second) :
    first = second.other := by
  cases first <;> cases second <;> first | rfl | exact absurd rfl hne

theorem Mode.other_ne (mode : Mode) : mode.other ≠ mode := by
  cases mode <;> decide

/-! ## The condition -/

/-- A posting whose source is also debited in another role: as the commission
wallet, or as the wallet that holds reserved funds. -/
def Db.DebitsSourceAgain (db : Db) (request : Request) (terms : Terms) (payload : Payload) :
    Operation → Prop
  | .direct =>
    let amounts := postingAmounts payload request terms.amount
    0 < amounts.sourceDebit ∧ amounts.commissionWallet = terms.source ∧
      0 < amounts.commissionDebit
  | .settle =>
    tempWallet = terms.source ∨
      ∃ reservation, db.findJournal request.transactionId .reserve = some reservation ∧
        let amounts := postingAmounts reservation.payload request terms.amount
        amounts.commissionWallet = terms.source ∧ 0 < amounts.commissionDebit
  | .reserve => False
  | .reverse _ => False

/-- No call that passes the checks posts the transaction in a second mode or
debits its source in a second role.  The transaction is not itself a refund. -/
def KeepsToOnePosting (transactionId : ℤ) (db : Db) : Event → Prop
  | .refund call => call.candidate ≠ transactionId
  | .transaction call =>
    ∀ request terms operation, call.payload.transactionId = some transactionId →
      db.requests.find? transactionId = some request → request.terms? = some terms →
      call.operation? = some operation → operation.action = .post → db.Passes call →
        ¬ db.PostedIn transactionId operation.mode.other ∧
          ¬ db.DebitsSourceAgain request terms call.payload operation

/-! ## Debits of the source -/

/-- How often posting journals of the transaction debit a wallet. -/
def Db.postedDebits (db : Db) (transactionId wallet : ℤ) : ℕ :=
  ((db.postEntries transactionId).filter fun entry =>
    entry.accountNumber = wallet ∧ 0 < entry.debit).length

def debitLines (wallet : ℤ) (lines : List Line) : ℕ :=
  (lines.filter fun line => line.wallet = wallet ∧ line.side = .debit).length

theorem debitLines_append (wallet : ℤ) (first second : List Line) :
    debitLines wallet (first ++ second) = debitLines wallet first + debitLines wallet second := by
  simp [debitLines]

theorem debitLines_positiveLine (wallet target : ℤ) (side : Side) (amount : Amount)
    (category : Category) (currency : String) :
    debitLines wallet (positiveLine target side amount category currency) =
      if 0 < amount ∧ target = wallet ∧ side = .debit then 1 else 0 := by
  unfold positiveLine debitLines
  by_cases hpositive : 0 < amount
  · by_cases hline : target = wallet ∧ side = .debit
    · simp [hpositive, hline]
    · simp [hpositive, hline]
  · simp [hpositive]

/-- Of the lines that direct postings and second legs share, only the commission
funding is a debit. -/
theorem debitLines_distribution (wallet : ℤ) (amounts : PostingAmounts) (terms : Terms)
    (currency : String) :
    debitLines wallet (amounts.distribution terms currency) =
      if 0 < amounts.commissionDebit ∧ amounts.commissionWallet = wallet then 1 else 0 := by
  simp [PostingAmounts.distribution, debitLines_append, debitLines_positiveLine]

theorem debits_le_of_recorded {header : Header} {numbered : List (Line × ℕ)}
    {entries : List Entry} (hrecorded : List.Forall₂ (RecordedBy header) numbered entries)
    (wallet : ℤ) :
    (entries.filter fun entry => entry.accountNumber = wallet ∧ 0 < entry.debit).length ≤
      debitLines wallet (numbered.map Prod.fst) := by
  induction hrecorded with
  | nil => simp
  | @cons n entry numbered entries hrecord _ ih =>
    unfold debitLines at ih ⊢
    rw [List.map_cons, List.filter_cons, List.filter_cons]
    by_cases hentry : entry.accountNumber = wallet ∧ 0 < entry.debit
    · have hside : n.1.side = .debit := by
        by_contra hcredit
        have hzero := hrecord.debit
        rw [if_neg hcredit] at hzero
        have : entry.debit = 0 := by exact_mod_cast hzero
        omega
      have hline : n.1.wallet = wallet ∧ n.1.side = .debit :=
        ⟨hrecord.wallet ▸ hentry.1, hside⟩
      simpa [hentry, hline] using ih
    · rw [if_neg (by simpa using hentry)]
      refine ih.trans ?_
      split
      · simp
      · exact le_rfl

/-- A plan for a posting that debits its source in one role has one line for it,
and a second leg none. -/
theorem debitLines_le_of_plan {db : Db} {request : Request} {terms : Terms} {payload : Payload}
    {plan : Plan} {operation : Operation}
    (hplan : db.planOperation request operation terms payload = .ok plan)
    (haction : operation.action = .post)
    (hagain : ¬ db.DebitsSourceAgain request terms payload operation) :
    debitLines terms.source plan.lines ≤ if operation = .settle then 0 else 1 := by
  cases operation with
  | direct =>
    obtain ⟨_, rfl⟩ := planPosting_eq_ok (planFirstLeg_eq_ok hplan).2
    simp only [PostingAmounts.directLines, debitLines_append, debitLines_positiveLine,
      debitLines_distribution]
    simp only [Db.DebitsSourceAgain] at hagain
    by_cases hsource : 0 < (postingAmounts payload request terms.amount).sourceDebit
    · have hcommission : ¬ (0 < (postingAmounts payload request terms.amount).commissionDebit ∧
          (postingAmounts payload request terms.amount).commissionWallet = terms.source) :=
        fun hline => hagain ⟨hsource, hline.2, hline.1⟩
      simp [hsource, hcommission]
    · simp only [hsource, false_and, if_false]
      split <;> simp
  | reserve =>
    obtain ⟨_, rfl⟩ := planPosting_eq_ok (planFirstLeg_eq_ok hplan).2
    by_cases htemp : tempWallet = terms.source
    · simp [PostingAmounts.reserveLines, debitLines, htemp]
    · simp [PostingAmounts.reserveLines, debitLines, htemp]
  | settle =>
    obtain ⟨reservation, hfind, _, hposting⟩ := Db.planSettle_eq_ok hplan
    obtain ⟨_, rfl⟩ := planPosting_eq_ok hposting
    simp only [Db.DebitsSourceAgain, not_or] at hagain
    obtain ⟨htemp, hcommission⟩ := hagain
    have hcons : ∀ line lines, debitLines terms.source (line :: lines) =
        debitLines terms.source [line] + debitLines terms.source lines := fun line lines =>
      debitLines_append terms.source [line] lines
    rw [PostingAmounts.settleLines, hcons, debitLines_distribution,
      if_neg fun hline => hcommission ⟨reservation, hfind, hline.2, hline.1⟩]
    simp [debitLines, htemp]
  | reverse mode => cases haction

/-! ## The invariant -/

/-- One mode of the transaction is unused, and its source has been debited at
most once. -/
structure PostedOnce (transactionId : ℤ) (db : Db) (stages : Stages) : Prop where
  one_mode : ∃ mode, stages transactionId mode = .fresh
  unposted : (∀ mode, stages transactionId mode = .fresh) → db.postEntries transactionId = []
  debits : ∀ request source, db.requests.find? transactionId = some request →
    request.sourceWalletId = some source → db.postedDebits transactionId source ≤ 1

section Committed

variable {start before after : Db} {stages : Stages} {call : Call} {request : Request}
  {terms : Terms} {plan : Plan} {journalId : ℕ} {entries : List Entry}
  {next : Stage plan.operation.mode}

/-- A posting in the only mode of its transaction keeps the source from being
debited twice. -/
theorem PostedOnce.post (honce : PostedOnce plan.transactionId before stages)
    (hconsistent : Consistent start before stages)
    (hplanned : Planned before call request terms plan)
    (hcommitted : Committed before plan journalId entries after)
    (hnext : (stages plan.transactionId plan.operation.mode).advance plan.operation = some next)
    (haction : plan.operation.action = .post)
    (hother : ¬ before.PostedIn plan.transactionId plan.operation.mode.other)
    (hagain : ¬ before.DebitsSourceAgain request terms call.payload plan.operation) :
    PostedOnce plan.transactionId after
      (stages.set plan.transactionId plan.operation.mode next) where
  one_mode := by
    refine ⟨plan.operation.mode.other, ?_⟩
    rw [Stages.set_of_ne_mode _ _ plan.operation.mode.other_ne]
    exact hconsistent.refines.fresh_of_not_postedIn hother
  unposted := by
    intro hfresh
    have hown := hfresh plan.operation.mode
    rw [Stages.set_self] at hown
    exact absurd hown (Stage.ne_fresh_of_advance hnext)
  debits := by
    intro found source hfound hsource
    obtain ⟨charge, commission, _, _, hfind⟩ := hcommitted.find?_request
    rw [hfind, if_pos rfl, hplanned.transactionId, hplanned.found] at hfound
    cases hfound
    have hterms := Request.source_of_terms hplanned.readTerms
    rw [hterms] at hsource
    cases hsource
    have hnew := debits_le_of_recorded hcommitted.posted.recorded terms.source
    rw [List.zipIdx_map_fst] at hnew
    have hlines := debitLines_le_of_plan hplanned.planned haction hagain
    have hold : before.postedDebits plan.transactionId terms.source ≤ 1 := by
      rw [hplanned.transactionId] at honce ⊢
      exact honce.debits request terms.source hplanned.found hterms
    unfold Db.postedDebits at hold ⊢
    rw [hconsistent.sound.postEntries_of_committed hcommitted, if_pos ⟨rfl, haction⟩,
      List.filter_append, List.length_append]
    by_cases hsettle : plan.operation = .settle
    · rw [if_pos hsettle] at hlines
      omega
    · -- A direct posting or a first leg starts from a transaction without postings.
      have hfirst : plan.operation = .direct ∨ plan.operation = .reserve := by
        cases hoperation : plan.operation with
        | direct => exact .inl rfl
        | reserve => exact .inr rfl
        | settle => exact absurd hoperation hsettle
        | reverse mode => simp [hoperation, Operation.action] at haction
      have hempty : before.postEntries plan.transactionId = [] := by
        apply honce.unposted
        intro mode
        by_cases hmode : mode = plan.operation.mode
        · rw [hmode]
          exact Stage.eq_fresh_of_first_leg hnext hfirst
        · rw [Mode.eq_other_of_ne hmode]
          exact hconsistent.refines.fresh_of_not_postedIn hother
      rw [if_neg hsettle] at hlines
      rw [hempty]
      simp only [List.filter_nil, List.length_nil, Nat.zero_add]
      omega

/-- A reversal leaves the postings of its transaction as they are. -/
theorem PostedOnce.reverse (honce : PostedOnce plan.transactionId before stages)
    (hconsistent : Consistent start before stages)
    (hcommitted : Committed before plan journalId entries after)
    (hnext : (stages plan.transactionId plan.operation.mode).advance plan.operation = some next)
    (haction : plan.operation.action ≠ .post) :
    PostedOnce plan.transactionId after
      (stages.set plan.transactionId plan.operation.mode next) where
  one_mode := by
    obtain ⟨mode, hfresh⟩ := honce.one_mode
    have hmode : mode ≠ plan.operation.mode := by
      rintro rfl
      rw [hfresh] at hnext
      rcases Stage.advance_fresh_eq_some hnext with hfirst | hfirst <;>
        simp [hfirst, Operation.action] at haction
    exact ⟨mode, by rw [Stages.set_of_ne_mode _ _ hmode, hfresh]⟩
  unposted := by
    intro hfresh
    have hown := hfresh plan.operation.mode
    rw [Stages.set_self] at hown
    exact absurd hown (Stage.ne_fresh_of_advance hnext)
  debits := by
    intro found source hfound hsource
    obtain ⟨charge, commission, _, _, hfind⟩ := hcommitted.find?_request
    rw [hfind, if_pos rfl] at hfound
    obtain ⟨old, hold, rfl⟩ := Option.map_eq_some_iff.mp hfound
    unfold Db.postedDebits
    rw [hconsistent.sound.postEntries_of_committed hcommitted, if_neg fun h => haction h.2,
      List.append_nil]
    exact honce.debits old source hold hsource

end Committed

/-- Calls that keep to one posting keep the source from being debited twice. -/
theorem PostedOnce.progress {transactionId : ℤ} {start before after : Db} {stages stages' : Stages}
    {event : Event} (honce : PostedOnce transactionId before stages)
    (hconsistent : Consistent start before stages)
    (hguard : KeepsToOnePosting transactionId before event)
    (hprogress : Progress before stages event after stages') :
    PostedOnce transactionId after stages' := by
  cases hprogress with
  | quiet hquiet =>
    refine ⟨honce.one_mode, ?_, ?_⟩
    · rw [Db.postEntries_congr hquiet.journals hquiet.entries]
      exact honce.unposted
    · intro request source hfound hsource
      unfold Db.postedDebits
      rw [Db.postEntries_congr hquiet.journals hquiet.entries]
      rcases hquiet.find?_request transactionId with hsame | hfailed
      · exact honce.debits request source (hsame ▸ hfound) hsource
      · rw [hfailed] at hfound
        obtain ⟨old, hold, rfl⟩ := Option.map_eq_some_iff.mp hfound
        exact honce.debits old source hold hsource
  | @committed call request terms plan journalId entries next hevent hplan hplanned hcommitted
      hnext =>
      subst hevent
      by_cases hown : plan.transactionId = transactionId
      · subst hown
        by_cases haction : plan.operation.action = .post
        · have hkeeps := hguard request terms plan.operation
            (hplanned.transactionId ▸ hplanned.transaction)
            (hplanned.transactionId ▸ hplanned.found) hplanned.readTerms hplanned.operation
            haction ⟨plan, hplan⟩
          exact honce.post hconsistent hplanned hcommitted hnext haction hkeeps.1 hkeeps.2
        · exact honce.reverse hconsistent hcommitted hnext haction
      · have hposts := hconsistent.sound.postEntries_of_committed hcommitted transactionId
        rw [if_neg fun h => hown h.1, List.append_nil] at hposts
        obtain ⟨charge, commission, _, _, hfind⟩ := hcommitted.find?_request
        refine ⟨?_, ?_, ?_⟩
        · rw [Stages.set_of_ne_transaction _ (Ne.symm hown)]
          exact honce.one_mode
        · rw [Stages.set_of_ne_transaction _ (Ne.symm hown), hposts]
          exact honce.unposted
        · unfold Db.postedDebits
          rw [hfind, if_neg (Ne.symm hown), hposts]
          exact honce.debits
  | @refunded call plan journalId entries hevent hplanned hrefunded hnext =>
    subst hevent
    have hown : plan.refundTransactionId ≠ transactionId := by
      rw [hplanned.candidate]
      exact hguard
    have hposts := hconsistent.sound.postEntries_of_refunded hrefunded transactionId
    rw [if_neg hown, List.append_nil] at hposts
    refine ⟨?_, ?_, ?_⟩
    · rw [Stages.set_of_ne_transaction _ (Ne.symm hown)]
      exact honce.one_mode
    · rw [Stages.set_of_ne_transaction _ (Ne.symm hown), hposts]
      exact honce.unposted
    · unfold Db.postedDebits
      rw [hrefunded.find?_request, if_neg (Ne.symm hown), hposts]
      exact honce.debits

/-- A closed transaction with one unused mode is closed for good: whatever
passes the checks and keeps to one posting leaves it alone. -/
theorem PostedOnce.closed_progress {transactionId : ℤ} {before after : Db}
    {stages stages' : Stages} {event : Event} (honce : PostedOnce transactionId before stages)
    (hrefines : Refines before stages) {mode : Mode}
    (hclosed : (stages transactionId mode).Closed)
    (hguard : KeepsToOnePosting transactionId before event)
    (hprogress : Progress before stages event after stages') :
    (stages' transactionId mode).Closed ∧
      ∀ call, event = .transaction call → call.payload.transactionId = some transactionId →
        Quiet before after := by
  cases hprogress with
  | quiet hquiet => exact ⟨hclosed, fun _ _ _ => hquiet⟩
  | @committed call request terms plan journalId entries next hevent hplan hplanned hcommitted
      hnext =>
      subst hevent
      by_cases hown : plan.transactionId = transactionId
      · -- The closed mode admits nothing, and the other mode is unused: only a
        -- first posting in it could pass, which the condition excludes.
        exfalso
        subst hown
        have hmode : plan.operation.mode ≠ mode := by
          rintro rfl
          rw [hclosed.advance_eq_none] at hnext
          cases hnext
        obtain ⟨unused, hfresh⟩ := honce.one_mode
        obtain rfl : unused = plan.operation.mode := by
          by_contra hne
          have : unused = mode := by
            rw [Mode.eq_other_of_ne hne, Mode.eq_other_of_ne (Ne.symm hmode)]
          rw [this] at hfresh
          exact hclosed.ne_fresh hfresh
        rw [hfresh] at hnext
        have haction : plan.operation.action = .post := by
          rcases Stage.advance_fresh_eq_some hnext with hfirst | hfirst <;> rw [hfirst] <;> rfl
        have hkeeps := hguard request terms plan.operation
          (hplanned.transactionId ▸ hplanned.transaction)
          (hplanned.transactionId ▸ hplanned.found) hplanned.readTerms hplanned.operation
          haction ⟨plan, hplan⟩
        have hopen := hrefines.fresh_of_not_postedIn hkeeps.1
        rw [← Mode.eq_other_of_ne (Ne.symm hmode)] at hopen
        exact hclosed.ne_fresh hopen
      · rw [Stages.set_of_ne_transaction _ (Ne.symm hown)]
        refine ⟨hclosed, fun other hsame htransaction => ?_⟩
        cases hsame
        rw [hplanned.transaction, ← hplanned.transactionId] at htransaction
        exact absurd (Option.some.inj htransaction) hown
  | @refunded call plan journalId entries hevent hplanned hrefunded hnext =>
    subst hevent
    have hown : plan.refundTransactionId ≠ transactionId := by
      rw [hplanned.candidate]
      exact hguard
    rw [Stages.set_of_ne_transaction _ (Ne.symm hown)]
    exact ⟨hclosed, fun _ hevent => by cases hevent⟩

/-- Everything a run that keeps to one posting maintains for the transaction. -/
def OnePosting (transactionId : ℤ) (start db : Db) (stages : Stages) : Prop :=
  Consistent start db stages ∧ PostedOnce transactionId db stages

theorem OnePosting.run {transactionId : ℤ} {start db : Db} (hstart : start.Initial)
    (hrun : ReachesUnder Db.step (KeepsToOnePosting transactionId) start db) :
    ∃ stages, OnePosting transactionId start db stages := by
  apply hrun.preserves fun db => ∃ stages, OnePosting transactionId start db stages
  · rintro before event after ⟨stages, hconsistent, honce⟩ hguard hstep
    obtain ⟨stages', hprogress, hconsistent'⟩ := hconsistent.step hstep
    exact ⟨stages', hconsistent', honce.progress hconsistent hguard hprogress⟩
  · have hempty : start.postEntries transactionId = [] := by
      rw [Db.postEntries, Db.joinEntries, hstart.no_journals]
      rfl
    refine ⟨Stages.initial, Consistent.initial hstart, ⟨.direct, rfl⟩, fun _ => hempty, ?_⟩
    intro request source _ _
    simp [Db.postedDebits, hempty]

/-- In a run in which no call that passes the checks posts the transaction in a
second mode or debits its source in a second role, the source is debited by
posting journals at most once, and after the request has been reversed no
posting call creates a journal or changes a wallet. -/
theorem posted_once_then_closed {transactionId : ℤ} {start db : Db} (hstart : start.Initial)
    (hnone : start.NoneReversed)
    (hrun : ReachesUnder Db.step (KeepsToOnePosting transactionId) start db) :
    (∀ request source, db.requests.find? transactionId = some request →
      request.sourceWalletId = some source → db.postedDebits transactionId source ≤ 1) ∧
    ∀ request, db.requests.find? transactionId = some request →
      request.transactionStatus = some 6 →
      ∀ later, ReachesUnder Db.step (KeepsToOnePosting transactionId) db later →
        ∀ call after, call.payload.transactionId = some transactionId →
          call.actionText = .post → KeepsToOnePosting transactionId later (.transaction call) →
          later.step (.transaction call) = some after →
          after.journals = later.journals ∧ after.wallets = later.wallets := by
  obtain ⟨stages, hconsistent, honce⟩ := OnePosting.run hstart hrun
  refine ⟨honce.debits, ?_⟩
  intro request hfound hstatus later hlater call after htransaction _ hguard hstep
  have hclosed : ∃ mode, (stages transactionId mode).Closed := by
    rcases hconsistent.requested.reversed transactionId request hfound hstatus with hclosed | hold
    · exact hclosed
    · obtain ⟨old, hmem, hold⟩ := hold
      exact absurd hold (hnone old hmem)
  obtain ⟨mode, hclosed⟩ := hclosed
  -- Closedness is carried along the rest of the run.
  have hinv : ∃ stages, OnePosting transactionId start later stages ∧
      (stages transactionId mode).Closed := by
    refine hlater.preserves
      (fun db => ∃ stages, OnePosting transactionId start db stages ∧
        (stages transactionId mode).Closed) ?_ ⟨stages, ⟨hconsistent, honce⟩, hclosed⟩
    rintro before event next ⟨stages, ⟨hconsistent, honce⟩, hclosed⟩ hguard hstep
    obtain ⟨stages', hprogress, hconsistent'⟩ := hconsistent.step hstep
    exact ⟨stages', ⟨hconsistent', honce.progress hconsistent hguard hprogress⟩,
      (honce.closed_progress hconsistent.refines hclosed hguard hprogress).1⟩
  obtain ⟨stages, ⟨hconsistent, honce⟩, hclosed⟩ := hinv
  obtain ⟨stages', hprogress, _⟩ := hconsistent.step hstep
  have hquiet := (honce.closed_progress hconsistent.refines hclosed hguard hprogress).2
    call rfl htransaction
  exact ⟨hquiet.journals, hquiet.wallets⟩

/-- A direct posting and a first leg both debit the source, and a reversed
direct posting does not keep a first leg from debiting it again. -/
theorem posted_in_both_modes_shop :
    ((runInputs Db.step shopDb [shopPost .direct 1, shopPost .twoLeg 1]).map
      fun db => db.postedDebits 7 1) = some 2 ∧
    ((runInputs Db.step shopDb [shopPost .direct 1, shopReverse .direct]).map
      fun db => ((db.requests.find? 7).bind Request.transactionStatus, db.balance 1)) =
        some (some 6, some 5000) ∧
    ((runInputs Db.step shopDb
        [shopPost .direct 1, shopReverse .direct, shopPost .twoLeg 1]).map
      fun db => db.balance 1) = some (some 4000) := by
  decide +kernel

theorem posted_once_then_closed_shop :
    ∃ db, runInputs Db.step shopDb [shopPost .direct 1, shopReverse .direct] = some db ∧
      ∀ request, db.requests.find? 7 = some request → request.sourceWalletId = some 1 →
        db.postedDebits 7 1 ≤ 1 := by
  obtain ⟨db, hrun⟩ := Option.isSome_iff_exists.mp
    (by decide +kernel :
      (runInputs Db.step shopDb [shopPost .direct 1, shopReverse .direct]).isSome = true)
  obtain ⟨posted, hpost, hrest⟩ := Option.bind_eq_some_iff.mp hrun
  obtain ⟨reversed, hreverse, hlast⟩ := Option.bind_eq_some_iff.mp hrest
  cases hlast
  have hfirst : KeepsToOnePosting 7 shopDb (shopPost .direct 1) := by
    intro request terms operation _ hfound _ hoperation _ _
    cases hoperation
    cases hfound
    refine ⟨?_, ?_⟩
    · rintro ⟨journal, hmem, _⟩
      cases hmem
    · rintro ⟨_, _, hcommission⟩
      have hzero : round2 (moneyToNumeric 0) = 0 := by decide +kernel
      change 0 < round2 (moneyToNumeric 0) at hcommission
      rw [hzero] at hcommission
      exact lt_irrefl _ hcommission
  have hsecond : KeepsToOnePosting 7 posted (shopReverse .direct) := by
    intro request terms operation _ _ _ hoperation haction _
    cases hoperation
    cases haction
  have hreaches : ReachesUnder Db.step (KeepsToOnePosting 7) shopDb db :=
    .tail (.tail .refl ⟨_, hfirst, hpost⟩) ⟨_, hsecond, hreverse⟩
  have honce := posted_once_then_closed (Db.opening_initial _ _) (by decide) hreaches
  exact ⟨db, hrun, fun request hfound hsource => honce.1 request 1 hfound hsource⟩

end Finify.Posting
