/-
# What the checks guarantee

A call that reaches the writing half has passed every check.  This module reads
the checks back: which request and operation it addresses, where its lines come
from, and that they balance, lie on active wallets and are funded.
-/

import Finify.Posting.Effect

namespace Finify.Posting

open Finify.Foundations

theorem bind_eq_ok {ε α β : Type} {first : Except ε α} {rest : α → Except ε β} {result : β}
    (hbind : first >>= rest = .ok result) : ∃ a, first = .ok a ∧ rest a = .ok result := by
  cases first with
  | error exit => cases hbind
  | ok a => exact ⟨a, rfl, hbind⟩

theorem bind_eq_error {ε α β : Type} {first : Except ε α} {rest : α → Except ε β} {exit : ε}
    (hbind : first >>= rest = .error exit) :
    first = .error exit ∨ ∃ a, first = .ok a ∧ rest a = .error exit := by
  cases first with
  | error other =>
    cases hbind
    exact .inl rfl
  | ok a => exact .inr ⟨a, rfl, hbind⟩

/-! ## The checks on the lines -/

theorem Db.walletsAvailable.active {db : Db} {lines : List Line}
    (havailable : db.walletsAvailable lines) {line : Line} (hline : line ∈ lines) :
    ∃ wallet, db.wallets.find? line.wallet = some wallet ∧ wallet.status = some 0 := by
  -- The rows found have distinct keys among the distinct wallets of the lines,
  -- and there are as many, so every wallet of a line has been found.
  let wanted := (lines.map Line.wallet).dedup
  let found := db.wallets.rows.filter fun wallet =>
    wallet.walletMsisdn ∈ wanted ∧ wallet.status = some 0
  have hnodup : (found.map Wallet.walletMsisdn).Nodup :=
    db.wallets.nodup.sublist (List.filter_sublist.map _)
  have hsubset : found.map Wallet.walletMsisdn ⊆ wanted := by
    intro msisdn hmem
    obtain ⟨wallet, hwallet, rfl⟩ := List.mem_map.mp hmem
    have := List.of_mem_filter hwallet
    simp only [decide_eq_true_eq] at this
    exact this.1
  have hperm : (found.map Wallet.walletMsisdn).Perm wanted :=
    (List.subperm_of_subset hnodup hsubset).perm_of_length_le (by
      rw [List.length_map]
      exact havailable.ge)
  have hmem : line.wallet ∈ found.map Wallet.walletMsisdn := by
    rw [hperm.mem_iff, List.mem_dedup]
    exact List.mem_map_of_mem hline
  obtain ⟨wallet, hwallet, hkey⟩ := List.mem_map.mp hmem
  have hactive := List.of_mem_filter hwallet
  simp only [decide_eq_true_eq] at hactive
  exact ⟨wallet, Table.find?_eq_some.mpr ⟨List.mem_of_mem_filter hwallet, hkey⟩, hactive.2⟩

/-- Lines that pass the three checks. -/
structure Db.Postable (db : Db) (action : Action) (lines : List Line) : Prop where
  positive : 0 < sideTotal .debit lines
  balanced : sideTotal .debit lines = sideTotal .credit lines
  available : db.walletsAvailable lines
  funded : ¬ db.shortOfFunds action lines

theorem Db.checkLines_eq_ok {db : Db} {transactionId : ℤ} {operation : Operation}
    {lines : List Line} :
    db.checkLines transactionId operation lines = .ok () ↔
      db.Postable operation.action lines := by
  unfold Db.checkLines
  constructor
  · intro hcheck
    simp only at hcheck
    split at hcheck
    · cases operation <;> cases hcheck
    · rename_i hbalance
      push Not at hbalance
      split at hcheck
      · cases hcheck
      · rename_i havailable
        split at hcheck
        · cases operation <;> cases hcheck
        · rename_i hfunded
          exact ⟨hbalance.1, hbalance.2, not_not.mp havailable, hfunded⟩
  · intro hpostable
    have hbalance : ¬ (sideTotal .debit lines ≤ 0 ∨
        sideTotal .debit lines ≠ sideTotal .credit lines) := by
      push Not
      exact ⟨hpostable.positive, hpostable.balanced⟩
    simp [hbalance, hpostable.available, hpostable.funded]

theorem Db.Postable.wallet_exists {db : Db} {action : Action} {lines : List Line}
    (hpostable : db.Postable action lines) {line : Line} (hline : line ∈ lines) :
    (db.balance line.wallet).isSome := by
  obtain ⟨wallet, hwallet, _⟩ := hpostable.available.active hline
  simp [Db.balance, hwallet]

/-- A funded wallet covers its debits, with the credits of the posting counted
only for a reversal. -/
theorem Db.Postable.covered {db : Db} {action : Action} {lines : List Line}
    (hpostable : db.Postable action lines) {line : Line} (hline : line ∈ lines)
    (hside : line.side = .debit) {amount : ℤ} (hamount : db.balance line.wallet = some amount) :
    walletTotal .debit line.wallet lines ≤
      (amount : Amount) +
        (if action = .reverse then walletTotal .credit line.wallet lines else 0) := by
  by_contra hshort
  exact hpostable.funded ⟨line, hline, hside, amount, hamount, not_le.mp hshort⟩

/-! ## From a call to its plan -/

theorem Db.address_eq_ok {db : Db} {call : Call} {request : Request} {operation : Operation}
    (haddress : db.address call = .ok (request, operation)) :
    call.payload.transactionId = some request.transactionId ∧
      db.requests.find? request.transactionId = some request ∧
      call.operation? = some operation := by
  unfold Db.address at haddress
  split at haddress
  · cases haddress
  · rename_i transactionId htransaction
    split at haddress
    · cases haddress
    · rename_i found hfound
      split at haddress
      · cases haddress
      · rename_i op hop
        cases haddress
        obtain rfl := (Table.find?_eq_some.mp hfound).2
        exact ⟨htransaction, hfound, hop⟩

theorem requireTerms_eq_ok {request : Request} {terms : Terms}
    (hterms : requireTerms request = .ok terms) : request.terms? = some terms := by
  unfold requireTerms at hterms
  split at hterms
  · rename_i found hfound
    cases hterms
    exact hfound
  · cases hterms

theorem Request.source_of_terms {request : Request} {terms : Terms}
    (hterms : request.terms? = some terms) : request.sourceWalletId = some terms.source := by
  unfold Request.terms? at hterms
  split at hterms
  · rename_i source destination amount hsource _ _
    split at hterms
    · cases hterms
      exact hsource
    · cases hterms
  · cases hterms

/-- What the deciding half of the procedure guarantees about a plan. -/
structure Planned (db : Db) (call : Call) (request : Request) (terms : Terms) (plan : Plan) :
    Prop where
  transaction : call.payload.transactionId = some request.transactionId
  found : db.requests.find? request.transactionId = some request
  operation : call.operation? = some plan.operation
  unposted : db.findJournal request.transactionId plan.operation = none
  readTerms : request.terms? = some terms
  planned : db.planOperation request plan.operation terms call.payload = .ok plan
  transactionId : plan.transactionId = request.transactionId
  postable : db.Postable plan.operation.action plan.lines

theorem planPosting_eq_ok {request : Request} {operation : Operation} {terms : Terms}
    {payload : Payload} {originalJournalId : Option ℕ} {currency : String}
    {lines : PostingAmounts → Terms → String → List Line} {plan : Plan}
    (hplan : planPosting request operation terms payload originalJournalId currency lines =
      .ok plan) :
    ¬ (postingAmounts payload request terms.amount).Negative ∧
      plan =
        { transactionId := request.transactionId
          operation := operation
          terms := terms
          charge := (postingAmounts payload request terms.amount).charge
          commission := (postingAmounts payload request terms.amount).commission
          lines := lines (postingAmounts payload request terms.amount) terms currency
          payload := payload
          originalJournalId := originalJournalId
          currency := currency } := by
  unfold planPosting at hplan
  simp only at hplan
  split at hplan
  · cases hplan
  · rename_i hnonneg
    cases hplan
    exact ⟨hnonneg, rfl⟩

theorem planFirstLeg_eq_ok {request : Request} {operation : Operation} {terms : Terms}
    {payload : Payload} {lines : PostingAmounts → Terms → String → List Line} {plan : Plan}
    (hplan : planFirstLeg request operation terms payload lines = .ok plan) :
    payload.mismatch? terms = none ∧
      planPosting request operation terms payload none (postingCurrency request payload) lines =
        .ok plan := by
  unfold planFirstLeg at hplan
  split at hplan
  · cases hplan
  · rename_i hnone
    exact ⟨hnone, hplan⟩

theorem Db.planSettle_eq_ok {db : Db} {request : Request} {terms : Terms} {payload : Payload}
    {plan : Plan} (hplan : db.planSettle request terms payload = .ok plan) :
    ∃ reservation, db.findJournal request.transactionId .reserve = some reservation ∧
      reservation.status = .reserved ∧
      planPosting request .settle terms reservation.payload (some reservation.id)
        (postingCurrency request payload) PostingAmounts.settleLines = .ok plan := by
  unfold Db.planSettle at hplan
  split at hplan
  · cases hplan
  · rename_i reservation hreservation
    rw [Option.filter_eq_some_iff] at hreservation
    exact ⟨reservation, hreservation.1, by simpa using hreservation.2, hplan⟩

theorem Db.planReverse_eq_ok {db : Db} {request : Request} {terms : Terms} {payload : Payload}
    {mode : Mode} {plan : Plan} (hplan : db.planReverse request terms payload mode = .ok plan) :
    (request.transactionStatus = some 4 ∨ request.transactionStatus = some 5) ∧
      db.reversalEntries request.transactionId mode ≠ [] ∧
      plan =
        { transactionId := request.transactionId
          operation := .reverse mode
          terms := terms
          charge := 0
          commission := 0
          lines := (db.reversalEntries request.transactionId mode).map
            (·.giveBack (postingCurrency request payload))
          payload := payload
          originalJournalId := db.lastPostedJournal request.transactionId mode
          currency := postingCurrency request payload } := by
  unfold Db.planReverse at hplan
  simp only at hplan
  split at hplan
  · cases hplan
  · rename_i hstatus
    split at hplan
    · cases hplan
    · rename_i entry entries hentries
      cases hplan
      refine ⟨?_, by simp [hentries], by rw [hentries]⟩
      cases hrequest : request.transactionStatus with
      | none => simp [hrequest] at hstatus
      | some status =>
        simp only [hrequest, Option.getD_some, Option.some.injEq] at hstatus ⊢
        omega

theorem Db.planOperation_eq_ok {db : Db} {request : Request} {operation : Operation}
    {terms : Terms} {payload : Payload} {plan : Plan}
    (hplan : db.planOperation request operation terms payload = .ok plan) :
    plan.transactionId = request.transactionId ∧ plan.operation = operation := by
  cases operation with
  | direct | reserve =>
    obtain ⟨_, rfl⟩ := planPosting_eq_ok (planFirstLeg_eq_ok hplan).2
    exact ⟨rfl, rfl⟩
  | settle =>
    obtain ⟨_, _, _, hposting⟩ := Db.planSettle_eq_ok hplan
    obtain ⟨_, rfl⟩ := planPosting_eq_ok hposting
    exact ⟨rfl, rfl⟩
  | reverse mode =>
    obtain ⟨_, _, rfl⟩ := Db.planReverse_eq_ok hplan
    exact ⟨rfl, rfl⟩

theorem Db.plan_eq_ok {db : Db} {call : Call} {plan : Plan} (hplan : db.plan call = .ok plan) :
    ∃ request terms, Planned db call request terms plan := by
  unfold Db.plan at hplan
  obtain ⟨⟨request, operation⟩, haddress, hplan⟩ := bind_eq_ok hplan
  obtain ⟨htransaction, hfound, hop⟩ := Db.address_eq_ok haddress
  simp only at hplan
  split at hplan
  · cases hplan
  · rename_i hnone
    obtain ⟨terms, hterms, hplan⟩ := bind_eq_ok hplan
    obtain ⟨planned, hplanned, hplan⟩ := bind_eq_ok hplan
    obtain ⟨_, hcheck, hplan⟩ := bind_eq_ok hplan
    cases hplan
    obtain ⟨htransactionId, rfl⟩ := Db.planOperation_eq_ok hplanned
    exact ⟨request, terms, htransaction, hfound, hop, hnone, requireTerms_eq_ok hterms,
      hplanned, htransactionId, Db.checkLines_eq_ok.mp hcheck⟩

/-! ## Exits -/

def Exit.result : Exit → Result
  | returned result => result
  | failed result => result

/-- The codes of a call that has posted. -/
def PostingCode.posts : PostingCode → Bool
  | .reversed => true
  | .reserved => true
  | .completed => true
  | _ => false

theorem refuse_code {α : Type} {transactionId : Option ℤ} {code : PostingCode} {message : String}
    {exit : Exit} (hexit : (refuse transactionId code message : Except Exit α) = .error exit) :
    exit.result.statusCode = code := by
  cases hexit
  rfl

theorem refuseOperation_code {α : Type} {transactionId : ℤ} {operation : Operation}
    {code : PostingCode} {message : String} {exit : Exit}
    (hexit : (refuseOperation transactionId operation code message : Except Exit α) =
      .error exit) : exit.result.statusCode = code := by
  cases operation <;> cases hexit <;> rfl

theorem existingCode_posts (operation : Operation) (status : JournalStatus) :
    (existingCode operation status).posts = false := by
  unfold existingCode
  split
  · rfl
  · cases status <;> rfl

theorem Db.address_exit {db : Db} {call : Call} {exit : Exit}
    (hexit : db.address call = .error exit) : exit.result.statusCode.posts = false := by
  unfold Db.address at hexit
  split at hexit
  · rw [refuse_code hexit]
    rfl
  · split at hexit
    · rw [refuse_code hexit]
      rfl
    · split at hexit
      · rw [refuse_code hexit]
        rfl
      · cases hexit

theorem planPosting_exit {request : Request} {operation : Operation} {terms : Terms}
    {payload : Payload} {originalJournalId : Option ℕ} {currency : String}
    {lines : PostingAmounts → Terms → String → List Line} {exit : Exit}
    (hexit : planPosting request operation terms payload originalJournalId currency lines =
      .error exit) : exit.result.statusCode.posts = false := by
  unfold planPosting at hexit
  simp only at hexit
  split at hexit
  · rw [refuse_code hexit]
    rfl
  · cases hexit

theorem planFirstLeg_exit {request : Request} {operation : Operation} {terms : Terms}
    {payload : Payload} {lines : PostingAmounts → Terms → String → List Line} {exit : Exit}
    (hexit : planFirstLeg request operation terms payload lines = .error exit) :
    exit.result.statusCode.posts = false := by
  unfold planFirstLeg at hexit
  split at hexit
  · rw [refuse_code hexit]
    rfl
  · exact planPosting_exit hexit

theorem Db.planSettle_exit {db : Db} {request : Request} {terms : Terms} {payload : Payload}
    {exit : Exit} (hexit : db.planSettle request terms payload = .error exit) :
    exit.result.statusCode.posts = false := by
  unfold Db.planSettle at hexit
  split at hexit
  · rw [refuse_code hexit]
    rfl
  · exact planPosting_exit hexit

theorem Db.planReverse_exit {db : Db} {request : Request} {terms : Terms} {payload : Payload}
    {mode : Mode} {exit : Exit}
    (hexit : db.planReverse request terms payload mode = .error exit) :
    exit.result.statusCode.posts = false := by
  unfold Db.planReverse at hexit
  simp only at hexit
  split at hexit
  · rw [refuse_code hexit]
    split <;> rfl
  · split at hexit
    · rw [refuse_code hexit]
      rfl
    · cases hexit

theorem Db.planOperation_exit {db : Db} {request : Request} {operation : Operation}
    {terms : Terms} {payload : Payload} {exit : Exit}
    (hexit : db.planOperation request operation terms payload = .error exit) :
    exit.result.statusCode.posts = false := by
  cases operation with
  | direct => exact planFirstLeg_exit hexit
  | reserve => exact planFirstLeg_exit hexit
  | settle => exact Db.planSettle_exit hexit
  | reverse mode => exact Db.planReverse_exit hexit

theorem Db.checkLines_exit {db : Db} {transactionId : ℤ} {operation : Operation}
    {lines : List Line} {exit : Exit}
    (hexit : db.checkLines transactionId operation lines = .error exit) :
    exit.result.statusCode.posts = false := by
  unfold Db.checkLines at hexit
  simp only at hexit
  split at hexit
  · rw [refuseOperation_code hexit]
    rfl
  · split at hexit
    · rw [refuse_code hexit]
      rfl
    · split at hexit
      · rw [refuseOperation_code hexit]
        cases operation <;> rfl
      · cases hexit

/-- No exit claims to have posted. -/
theorem Db.plan_exit {db : Db} {call : Call} {exit : Exit} (hexit : db.plan call = .error exit) :
    exit.result.statusCode.posts = false := by
  unfold Db.plan at hexit
  rcases bind_eq_error hexit with haddress | ⟨⟨request, operation⟩, _, hexit⟩
  · exact Db.address_exit haddress
  simp only at hexit
  split at hexit
  · cases hexit
    exact existingCode_posts _ _
  rcases bind_eq_error hexit with hterms | ⟨terms, _, hexit⟩
  · unfold requireTerms at hterms
    split at hterms
    · cases hterms
    · cases hterms
      rfl
  rcases bind_eq_error hexit with hplan | ⟨plan, _, hexit⟩
  · exact Db.planOperation_exit hplan
  rcases bind_eq_error hexit with hcheck | ⟨_, _, hexit⟩
  · exact Db.checkLines_exit hcheck
  · cases hexit

/-! ## From a refund call to its plan -/

/-- What the deciding half of a refund guarantees about a plan. -/
structure RefundPlanned (db : Db) (call : RefundCall) (plan : RefundPlan) : Prop where
  passes : db.planRefund call = .ok plan
  transaction : call.originalTransactionId = some plan.original.transactionId
  reference : call.refundReference = some plan.reference
  unrefunded : db.existingRefund plan.original.transactionId plan.reference = none
  found : db.requests.find? plan.original.transactionId = some plan.original
  status : plan.original.transactionStatus = none ∨ plan.original.transactionStatus = some 5
  posted : db.refundedJournal plan.original.transactionId = some plan.originalJournalId
  entries : plan.entries = db.refundEntries plan.original.transactionId
  funded : ¬ db.refundBlocked plan.entries
  candidate : plan.refundTransactionId = call.candidate

theorem Db.planRefund_eq_ok {db : Db} {call : RefundCall} {plan : RefundPlan}
    (hplan : db.planRefund call = .ok plan) : RefundPlanned db call plan := by
  have hpasses := hplan
  unfold Db.planRefund at hplan
  split at hplan
  case h_2 => cases hplan
  case h_1 transactionId reference htransaction hreference =>
    split at hplan
    · cases hplan
    rename_i hunrefunded
    split at hplan
    · cases hplan
    rename_i original hfound
    obtain rfl := (Table.find?_eq_some.mp hfound).2
    split at hplan
    · cases hplan
    rename_i hstatus
    split at hplan
    · cases hplan
    rename_i originalJournalId hposted
    simp only at hplan
    split at hplan
    · cases hplan
    rename_i hfunded
    cases hplan
    refine ⟨hpasses, htransaction, hreference, hunrefunded, hfound, ?_, hposted, rfl, hfunded,
      rfl⟩
    cases hrequest : original.transactionStatus with
    | none => exact .inl rfl
    | some status =>
      simp only [hrequest, Option.any_some, decide_eq_true_eq, not_not] at hstatus
      exact .inr (congrArg some hstatus)

/-! ## Committed calls -/

/-- A call that posts nothing writes at most status 3 on a request. -/
structure Quiet (before after : Db) : Prop where
  wallets : after.wallets = before.wallets
  journals : after.journals = before.journals
  entries : after.entries = before.entries
  refunds : after.refunds = before.refunds
  categories : after.categories = before.categories
  requests : after.requests = before.requests ∨
    ∃ call, after.requests = (before.failRequest call).requests

theorem Quiet.refl (db : Db) : Quiet db db := ⟨rfl, rfl, rfl, rfl, rfl, .inl rfl⟩

theorem Db.failRequest_quiet (db : Db) (call : Call) : Quiet db (db.failRequest call) := by
  refine ⟨?_, ?_, ?_, ?_, ?_, .inr ⟨call, rfl⟩⟩ <;> unfold Db.failRequest <;> split <;> rfl

/-- A failing call marks no request but the one it names. -/
theorem Db.failRequest_find?_of_ne (db : Db) {call : Call} {transactionId : ℤ}
    (hother : call.payload.transactionId ≠ some transactionId) :
    (db.failRequest call).requests.find? transactionId = db.requests.find? transactionId := by
  unfold Db.failRequest
  split
  · rfl
  · rename_i named hnamed
    rw [Db.find?_updateRequest, if_neg]
    rintro rfl
    exact hother hnamed

/-- A call that ends before anything is posted. -/
structure Exited (before : Db) (call : Call) (result : Result) (after : Db) : Prop where
  quiet : Quiet before after
  others : ∀ transactionId, call.payload.transactionId ≠ some transactionId →
    after.requests.find? transactionId = before.requests.find? transactionId
  code : result.statusCode.posts = false

/-- A committed call of the transaction procedure ends before anything is
posted, or carries out a plan that has passed every check. -/
theorem Db.directFinifyTransaction_cases {before after : Db} {call : Call} {result : Result}
    (hcall : before.directFinifyTransaction call = some (result, after)) :
    Exited before call result after ∨
      ∃ request terms plan journalId entries, before.plan call = .ok plan ∧
        Planned before call request terms plan ∧
        Committed before plan journalId entries after ∧
        result = after.postedResult plan journalId := by
  unfold Db.directFinifyTransaction at hcall
  split at hcall
  · rename_i hexit
    cases hcall
    exact .inl ⟨.refl before, fun _ _ => rfl, Db.plan_exit hexit⟩
  · rename_i hexit
    cases hcall
    exact .inl ⟨before.failRequest_quiet call,
      fun _ hother => before.failRequest_find?_of_ne hother, Db.plan_exit hexit⟩
  · rename_i plan hplan
    obtain ⟨⟨journalId, committed⟩, hcommit, hresult⟩ := Option.map_eq_some_iff.mp hcall
    cases hresult
    obtain ⟨request, terms, hplanned⟩ := Db.plan_eq_ok hplan
    obtain ⟨entries, hcommitted⟩ := Db.commit_eq_some hcommit
    exact .inr ⟨request, terms, plan, journalId, entries, hplan, hplanned, hcommitted, rfl⟩

/-- A committed refund call changes nothing, or carries out a plan that has
passed every check. -/
theorem Db.fullMerchantRefund_cases {before after : Db} {call : RefundCall}
    {result : RefundResult} (hcall : before.fullMerchantRefund call = some (result, after)) :
    after = before ∨
      ∃ plan journalId entries, RefundPlanned before call plan ∧
        Refunded before plan journalId entries after ∧ result.success = true := by
  unfold Db.fullMerchantRefund at hcall
  split at hcall
  · cases hcall
    exact .inl rfl
  · rename_i plan hplan
    obtain ⟨⟨journalId, committed⟩, hcommit, hresult⟩ := Option.map_eq_some_iff.mp hcall
    cases hresult
    obtain ⟨entries, hrefunded⟩ := Db.commitRefund_eq_some hcommit
    exact .inr ⟨plan, journalId, entries, Db.planRefund_eq_ok hplan, hrefunded, rfl⟩

/-- What a committed call does, whichever procedure it calls. -/
inductive Outcome (before : Db) (event : Event) (after : Db) : Prop
  | quiet (hquiet : Quiet before after)
      (hothers : ∀ transactionId, ¬ event.Concerns transactionId →
        after.requests.find? transactionId = before.requests.find? transactionId)
  | committed (call : Call) (request : Request) (terms : Terms) (plan : Plan) (journalId : ℕ)
      (entries : List Entry) (hevent : event = .transaction call)
      (hplan : before.plan call = .ok plan) (hplanned : Planned before call request terms plan)
      (hcommitted : Committed before plan journalId entries after)
  | refunded (call : RefundCall) (plan : RefundPlan) (journalId : ℕ) (entries : List Entry)
      (hevent : event = .refund call) (hplanned : RefundPlanned before call plan)
      (hrefunded : Refunded before plan journalId entries after)

theorem Db.perform_outcome {before after : Db} {event : Event} {success : Bool}
    (hperform : before.perform event = some (success, after)) :
    Outcome before event after ∧ (success = false → Quiet before after) := by
  cases event with
  | transaction call =>
    obtain ⟨⟨result, after'⟩, hcall, heq⟩ := Option.map_eq_some_iff.mp hperform
    cases heq
    rcases Db.directFinifyTransaction_cases hcall with hexited | hposted
    · exact ⟨.quiet hexited.quiet hexited.others, fun _ => hexited.quiet⟩
    · obtain ⟨request, terms, plan, journalId, entries, hplan, hplanned, hcommitted, hresult⟩ :=
        hposted
      refine ⟨.committed call request terms plan journalId entries rfl hplan hplanned
        hcommitted, ?_⟩
      intro hfailure
      simp [hresult, Db.postedResult] at hfailure
  | refund call =>
    obtain ⟨⟨result, after'⟩, hcall, heq⟩ := Option.map_eq_some_iff.mp hperform
    cases heq
    rcases Db.fullMerchantRefund_cases hcall with rfl | hposted
    · exact ⟨.quiet (.refl _) fun _ _ => rfl, fun _ => .refl _⟩
    · obtain ⟨plan, journalId, entries, hplanned, hrefunded, hsuccess⟩ := hposted
      refine ⟨.refunded call plan journalId entries rfl hplanned hrefunded, ?_⟩
      intro hfailure
      simp [hsuccess] at hfailure

theorem Db.step_outcome {before after : Db} {event : Event}
    (hstep : before.step event = some after) : Outcome before event after := by
  obtain ⟨⟨success, after'⟩, hperform, rfl⟩ := Option.map_eq_some_iff.mp hstep
  exact (Db.perform_outcome hperform).1

/-! ## Totals of the recorded entries -/

section Recorded

variable {header : Header} {numbered : List (Line × ℕ)} {entries : List Entry}

theorem exists_line_of_recorded (hrecorded : List.Forall₂ (RecordedBy header) numbered entries)
    {entry : Entry} (hentry : entry ∈ entries) : ∃ n ∈ numbered, RecordedBy header n entry := by
  induction hrecorded with
  | nil => cases hentry
  | cons hrecord _ ih =>
    rcases List.mem_cons.mp hentry with rfl | hrest
    · exact ⟨_, List.mem_cons_self, hrecord⟩
    · obtain ⟨n, hn, hlater⟩ := ih hrest
      exact ⟨n, List.mem_cons_of_mem _ hn, hlater⟩

theorem sideTotal_cons (side : Side) (line : Line) (lines : List Line) :
    sideTotal side (line :: lines) =
      (if line.side = side then line.amount else 0) + sideTotal side lines := by
  unfold sideTotal
  by_cases hside : line.side = side <;> simp [hside]

theorem sideTotal_append (side : Side) (first second : List Line) :
    sideTotal side (first ++ second) = sideTotal side first + sideTotal side second := by
  simp [sideTotal]

/-- A line that is left out for want of a positive amount adds nothing anyway. -/
theorem sideTotal_positiveLine (side target : Side) (wallet : ℤ) {amount : Amount}
    (hnonneg : ¬ amount < 0) (category : Category) (currency : String) :
    sideTotal side (positiveLine wallet target amount category currency) =
      if target = side then amount else 0 := by
  unfold positiveLine
  by_cases hpositive : 0 < amount
  · rw [if_pos hpositive]
    by_cases hside : target = side <;> simp [sideTotal, hside]
  · rw [if_neg hpositive, le_antisymm (not_lt.mp hpositive) (not_lt.mp hnonneg)]
    simp [sideTotal]

namespace PostingAmounts

variable {amounts : PostingAmounts} (hnonneg : ¬ amounts.Negative)
include hnonneg

/-- Of the lines that direct postings and second legs share, the commission
funding is the only debit. -/
theorem debit_distribution (terms : Terms) (currency : String) :
    sideTotal .debit (amounts.distribution terms currency) = amounts.commissionDebit := by
  unfold Negative at hnonneg
  push Not at hnonneg
  obtain ⟨_, hdestination, hcharge, hcommission, hsource, hback⟩ := hnonneg
  simp [distribution, sideTotal_append, sideTotal_positiveLine, hdestination.not_gt,
    hcharge.not_gt, hcommission.not_gt, hsource.not_gt, hback.not_gt]

theorem credit_distribution (terms : Terms) (currency : String) :
    sideTotal .credit (amounts.distribution terms currency) =
      amounts.destinationCredit + amounts.chargeCredit + amounts.sourceCommissionCredit +
        amounts.destinationCommissionCredit := by
  unfold Negative at hnonneg
  push Not at hnonneg
  obtain ⟨_, hdestination, hcharge, hcommission, hsource, hback⟩ := hnonneg
  simp [distribution, sideTotal_append, sideTotal_positiveLine, add_assoc,
    hdestination.not_gt, hcharge.not_gt, hcommission.not_gt, hsource.not_gt, hback.not_gt]

end PostingAmounts

theorem walletTotal_eq_zero {side : Side} {wallet : ℤ} {lines : List Line}
    (hnone : ∀ line ∈ lines, line.wallet = wallet → line.side ≠ side) :
    walletTotal side wallet lines = 0 := by
  have hempty : ((lines.filter fun line => line.wallet = wallet).filter
      fun line => line.side = side) = [] := by
    rw [List.filter_eq_nil_iff]
    intro line hline
    obtain ⟨hmem, hwallet⟩ := List.mem_filter.mp hline
    simpa using hnone line hmem (by simpa using hwallet)
  rw [walletTotal, sideTotal, hempty]
  rfl

theorem sideTotal_debit_of_recorded
    (hrecorded : List.Forall₂ (RecordedBy header) numbered entries) :
    sideTotal .debit (numbered.map Prod.fst) = ((entries.map Entry.debit).sum : ℤ) := by
  induction hrecorded with
  | nil => simp [sideTotal]
  | cons hrecord _ ih =>
    rw [List.map_cons, sideTotal_cons, ih, ← hrecord.debit]
    simp

theorem sideTotal_credit_of_recorded
    (hrecorded : List.Forall₂ (RecordedBy header) numbered entries) :
    sideTotal .credit (numbered.map Prod.fst) = ((entries.map Entry.credit).sum : ℤ) := by
  induction hrecorded with
  | nil => simp [sideTotal]
  | cons hrecord _ ih =>
    rw [List.map_cons, sideTotal_cons, ih, ← hrecord.credit]
    simp

theorem recorded_on_wallet (hrecorded : List.Forall₂ (RecordedBy header) numbered entries)
    (wallet : ℤ) :
    List.Forall₂ (RecordedBy header) (numbered.filter fun n => n.1.wallet = wallet)
      (entries.filter fun entry => entry.accountNumber = wallet) := by
  induction hrecorded with
  | nil => exact .nil
  | cons hrecord _ ih =>
    rw [List.filter_cons, List.filter_cons, hrecord.wallet]
    split
    · exact .cons hrecord ih
    · exact ih

private theorem lines_on_wallet (lines : List Line) (wallet : ℤ) :
    ((lines.zipIdx 1).filter fun n => n.1.wallet = wallet).map Prod.fst =
      lines.filter fun line => line.wallet = wallet := by
  have hfilter := List.filter_map (p := fun line : Line => decide (line.wallet = wallet))
    (f := Prod.fst) (l := lines.zipIdx 1)
  rw [List.zipIdx_map_fst] at hfilter
  exact hfilter.symm

theorem walletTotal_debit_of_recorded {lines : List Line}
    (hrecorded : List.Forall₂ (RecordedBy header) (lines.zipIdx 1) entries) (wallet : ℤ) :
    walletTotal .debit wallet lines = (accountTotal Entry.debit wallet entries : ℤ) := by
  rw [walletTotal, ← lines_on_wallet,
    sideTotal_debit_of_recorded (recorded_on_wallet hrecorded wallet)]
  rfl

theorem walletTotal_credit_of_recorded {lines : List Line}
    (hrecorded : List.Forall₂ (RecordedBy header) (lines.zipIdx 1) entries) (wallet : ℤ) :
    walletTotal .credit wallet lines = (accountTotal Entry.credit wallet entries : ℤ) := by
  rw [walletTotal, ← lines_on_wallet,
    sideTotal_credit_of_recorded (recorded_on_wallet hrecorded wallet)]
  rfl

end Recorded

end Finify.Posting
