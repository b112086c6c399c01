/-
# A reversal is exact

A reversal that answers `REVERSED` has found every journal posted in its mode
still standing, so the entries that it records undo all of them, each once.  The
mode is closed from then on, and a reversal that comes later finds the journal of
the first.
-/

import Finify.Posting.GiveBackOnce

namespace Finify.Posting

open Finify.Foundations

/-! ## The entries of a mode -/

def Journal.reversesIn (transactionId : ℤ) (mode : Mode) (journal : Journal) : Bool :=
  journal.transactionId = transactionId ∧ journal.operation = .reverse mode

theorem Journal.reversesIn_iff {transactionId : ℤ} {mode : Mode} {journal : Journal} :
    journal.reversesIn transactionId mode = true ↔
      journal.transactionId = transactionId ∧ journal.operation = .reverse mode := by
  simp [Journal.reversesIn]

def Db.postedEntries (db : Db) (transactionId : ℤ) (mode : Mode) : List Entry :=
  db.entriesOf (Journal.postedIn transactionId mode)

def Db.reversingEntries (db : Db) (transactionId : ℤ) (mode : Mode) : List Entry :=
  db.entriesOf (Journal.reversesIn transactionId mode)

/-- A mode that is still standing has all its entries reversed. -/
theorem Db.reversalEntries_postedEntries {db : Db} {transactionId : ℤ} {mode : Mode}
    (hall : ∀ journal ∈ db.journals.rows, journal.postedIn transactionId mode →
      journal.status.reversible) :
    (db.reversalEntries transactionId mode).Perm (db.postedEntries transactionId mode) := by
  unfold Db.reversalEntries Db.postedEntries Db.entriesOf
  refine ((giveBackOrder_perm _).map _).trans ?_
  rw [Db.joinEntries_congr]
  intro journal hjournal
  rw [Bool.eq_iff_iff, Bool.and_eq_true]
  exact ⟨fun h => h.1, fun hposted => ⟨hposted, hall journal hjournal hposted⟩⟩

/-! ## References, one to one -/

/-- Every entry of `gives` refers to one of `posts`, and every one of `posts` is
referred to by exactly one of `gives`. -/
structure OneToOne (posts gives : List Entry) : Prop where
  target : ∀ give ∈ gives, ∃ post ∈ posts, give.reversesEntryId = some post.id
  distinct : (gives.map Entry.reversesEntryId).Nodup
  once : ∀ post ∈ posts, ∃! give, give ∈ gives ∧ give.reversesEntryId = some post.id

theorem references_of_undone {posts gives : List Entry}
    (hundone : List.Forall₂ Undoes posts gives) :
    gives.map Entry.reversesEntryId = (posts.map Entry.id).map some := by
  induction hundone with
  | nil => rfl
  | cons hundoes _ ih => rw [List.map_cons, List.map_cons, List.map_cons, ih, hundoes.refers]

theorem OneToOne.of_undone {posts ordered gives : List Entry}
    (hperm : ordered.Perm posts) (hundone : List.Forall₂ Undoes ordered gives)
    (hnodup : (posts.map Entry.id).Nodup) : OneToOne posts gives := by
  have hrefers := references_of_undone hundone
  have hdistinct : (gives.map Entry.reversesEntryId).Nodup := by
    rw [hrefers]
    exact ((hperm.map _).nodup_iff.mpr hnodup).map (Option.some_injective _)
  refine ⟨?_, hdistinct, ?_⟩
  · intro give hgive
    obtain ⟨post, hpost, hid⟩ := exists_undone hundone hgive
    exact ⟨post, hperm.mem_iff.mp hpost, hid⟩
  · intro post hpost
    have hreferred : some post.id ∈ gives.map Entry.reversesEntryId := by
      rw [hrefers]
      exact List.mem_map_of_mem (List.mem_map_of_mem (hperm.mem_iff.mpr hpost))
    obtain ⟨give, hgive, hid⟩ := List.mem_map.mp hreferred
    refine ⟨give, ⟨hgive, hid⟩, ?_⟩
    rintro other ⟨hother, hotherId⟩
    exact List.inj_on_of_nodup_map hdistinct hother hgive (hotherId.trans hid.symm)

/-! ## Closed modes -/

theorem Progress.closed {before after : Db} {stages stages' : Stages} {event : Event}
    {transactionId : ℤ} {mode : Mode} (hprogress : Progress before stages event after stages')
    (hclosed : (stages transactionId mode).Closed) : (stages' transactionId mode).Closed := by
  cases hprogress with
  | quiet _ _ => exact hclosed
  | @committed _ _ _ plan _ _ _ _ _ _ _ hnext =>
    by_cases hown : transactionId = plan.transactionId
    · subst hown
      by_cases hmode : mode = plan.operation.mode
      · subst hmode
        rw [hclosed.advance_eq_none] at hnext
        cases hnext
      · rwa [Stages.set_of_ne_mode _ _ hmode]
    · rwa [Stages.set_of_ne_transaction _ hown]
  | @refunded _ plan _ _ _ _ _ hnext =>
    by_cases hown : transactionId = plan.refundTransactionId
    · subst hown
      by_cases hmode : mode = .direct
      · subst hmode
        rw [hclosed.advance_eq_none] at hnext
        cases hnext
      · rwa [Stages.set_of_ne_mode _ _ hmode]
    · rwa [Stages.set_of_ne_transaction _ hown]

/-- Closedness is carried along a run. -/
theorem Consistent.closed_run {start db later : Db} {stages : Stages} {transactionId : ℤ}
    {mode : Mode} (hconsistent : Consistent start db stages)
    (hclosed : (stages transactionId mode).Closed) (hrun : Reaches Db.step db later) :
    ∃ stages', Consistent start later stages' ∧ (stages' transactionId mode).Closed := by
  apply hrun.preserves fun db => ∃ stages, Consistent start db stages ∧
    (stages transactionId mode).Closed
  · rintro before event after ⟨stages, hconsistent, hclosed⟩ hstep
    obtain ⟨stages', hprogress, hconsistent'⟩ := hconsistent.step hstep
    exact ⟨stages', hconsistent', hprogress.closed hclosed⟩
  · exact ⟨stages, hconsistent, hclosed⟩

/-- A reversal of a closed mode finds the journal of the first one and returns. -/
theorem Refines.reverse_unchanged {db after : Db} {stages : Stages} (hrefines : Refines db stages)
    {transactionId : ℤ} {mode : Mode} (hclosed : (stages transactionId mode).Closed) {call : Call}
    {result : Result} (htransaction : call.payload.transactionId = some transactionId)
    (hoperation : call.operation? = some (.reverse mode))
    (hcall : db.directFinifyTransaction call = some (result, after)) : after = db := by
  have hstatus := hrefines.status transactionId (.reverse mode)
  change _ = (stages transactionId mode).journalStatus (.reverse mode) at hstatus
  rw [Stage.journalStatus_reverse_of_closed hclosed] at hstatus
  obtain ⟨journal, hjournal, _⟩ := Option.map_eq_some_iff.mp hstatus
  have hplan : ∃ result, db.plan call = .error (.returned result) := by
    cases hfind : db.requests.find? transactionId with
    | none =>
      have haddress : db.address call = refuse (some transactionId) .transactionNotFound
          "Transaction request was not found" := by
        simp only [Db.address, htransaction, hfind]
      obtain ⟨refused, hrefused⟩ : ∃ refused, db.address call = .error (.returned refused) :=
        ⟨_, haddress⟩
      refine ⟨refused, ?_⟩
      rw [Db.plan, hrefused]
      rfl
    | some request =>
      have haddress : db.address call = .ok (request, .reverse mode) := by
        simp only [Db.address, htransaction, hfind, hoperation]
      obtain rfl := (Table.find?_eq_some.mp hfind).2
      refine ⟨db.existingResult request (.reverse mode) journal, ?_⟩
      simp only [Db.plan, haddress, bind, Except.bind, hjournal]
  obtain ⟨result', hplan⟩ := hplan
  simp only [Db.directFinifyTransaction, hplan, Option.some.injEq, Prod.mk.injEq] at hcall
  exact hcall.2.symm

/-! ## The reversal itself -/

/-- The transaction has been reversed in the mode, and exactly so. -/
structure Db.ExactlyReversed (db : Db) (transactionId : ℤ) (mode : Mode) : Prop where
  posted : db.postedEntries transactionId mode ≠ []
  balanced : ∀ wallet, accountTotal Entry.movement wallet
    (db.postedEntries transactionId mode ++ db.reversingEntries transactionId mode) = 0
  references : OneToOne (db.postedEntries transactionId mode)
    (db.reversingEntries transactionId mode)
  journals : ∀ journal ∈ db.journals.rows, journal.postedIn transactionId mode →
    journal.status = .reversed
  request : ∃ request, db.requests.find? transactionId = some request ∧
    request.transactionStatus = some 6

section Committed

variable {start before after : Db} {stages : Stages} {call : Call} {request : Request}
  {terms : Terms} {plan : Plan} {journalId : ℕ} {entries : List Entry} {mode : Mode}

theorem Db.committed_of_reversed {db after : Db} {call : Call} {result : Result}
    (hcall : db.directFinifyTransaction call = some (result, after))
    (hcode : result.statusCode = .reversed) :
    ∃ plan journalId, db.plan call = .ok plan ∧ db.commit plan = some (journalId, after) := by
  unfold Db.directFinifyTransaction at hcall
  split at hcall
  case h_1 returned hplan =>
    cases hcall
    have hexit := Db.plan_exit hplan
    rw [show (Exit.returned result).result.statusCode = .reversed from hcode] at hexit
    cases hexit
  case h_2 failed hplan =>
    cases hcall
    have hexit := Db.plan_exit hplan
    rw [show (Exit.failed result).result.statusCode = .reversed from hcode] at hexit
    cases hexit
  case h_3 plan hplan =>
    obtain ⟨⟨journalId, committed⟩, hcommit, hresult⟩ := Option.map_eq_some_iff.mp hcall
    cases hresult
    exact ⟨plan, journalId, hplan, hcommit⟩

theorem Sound.postedEntries_of_reverse (hsound : Sound start before)
    (hcommitted : Committed before plan journalId entries after)
    (hoperation : plan.operation = .reverse mode) :
    after.postedEntries plan.transactionId mode = before.postedEntries plan.transactionId mode := by
  have hentries : after.postedEntries plan.transactionId mode = _ :=
    hsound.entriesOf_committed hcommitted fun older => by
      simp [Journal.postedIn]
  rw [hentries, if_neg, List.append_nil]
  · rfl
  · simp [Journal.postedIn, Plan.journal, hoperation, Operation.action]

theorem Sound.reversingEntries_of_reverse (hsound : Sound start before)
    (hcommitted : Committed before plan journalId entries after)
    (hoperation : plan.operation = .reverse mode) :
    after.reversingEntries plan.transactionId mode = entries := by
  have hentries : after.reversingEntries plan.transactionId mode = _ :=
    hsound.entriesOf_committed hcommitted fun older => by
      simp [Journal.reversesIn]
  have hnone : before.entriesOf (Journal.reversesIn plan.transactionId mode) = [] := by
    have hunposted := Db.findJournal_eq_none.mp hcommitted.unposted
    unfold Db.entriesOf Db.joinEntries
    rw [List.filter_eq_nil_iff.mpr]
    · rfl
    · intro journal hjournal hreverses
      obtain ⟨htransaction, hreverse⟩ := Journal.reversesIn_iff.mp hreverses
      exact hunposted journal hjournal ⟨htransaction, hreverse.trans hoperation.symm⟩
  rw [hentries, hnone, List.nil_append, if_pos]
  exact Journal.reversesIn_iff.mpr ⟨rfl, hoperation⟩

/-- Where the mode is standing, reversing it is exact. -/
theorem Planned.exactlyReversed (hplanned : Planned before call request terms plan)
    (hcommitted : Committed before plan journalId entries after)
    (hconsistent : Consistent start before stages) (hoperation : plan.operation = .reverse mode)
    (hstanding : (stages plan.transactionId mode).Standing) :
    after.ExactlyReversed plan.transactionId mode := by
  have hposts := hconsistent.sound.postedEntries_of_reverse hcommitted hoperation
  have hgives := hconsistent.sound.reversingEntries_of_reverse hcommitted hoperation
  have hperm : (before.reversalEntries plan.transactionId mode).Perm
      (before.postedEntries plan.transactionId mode) := by
    apply Db.reversalEntries_postedEntries
    intro journal hjournal hposted
    obtain ⟨htransaction, hmode, _⟩ := Journal.postedIn_iff.mp hposted
    have hstatus := hconsistent.refines.status_of_mem hjournal
    rw [htransaction, hmode] at hstatus
    exact Stage.reversible_of_standing hstanding hstatus
  have hundone : List.Forall₂ Undoes (before.reversalEntries plan.transactionId mode) entries := by
    rcases hplanned.records hcommitted with ⟨hpost, _⟩ | ⟨other, hother, hundone⟩
    · rw [hoperation] at hpost
      cases hpost
    · obtain rfl := Operation.reverse.inj (hoperation.symm.trans hother)
      exact hundone
  have hsome : before.reversalEntries plan.transactionId mode ≠ [] := by
    have hplan := hplanned.planned
    rw [hoperation] at hplan
    have hreverse := (Db.planReverse_eq_ok hplan).2.1
    rwa [← hplanned.transactionId] at hreverse
  obtain ⟨_, _, _, _, hrequest⟩ := hcommitted.find?_request
  refine ⟨?_, ?_, ?_, ?_, ?_⟩
  · rw [hposts]
    intro hnil
    rw [hnil] at hperm
    exact hsome hperm.eq_nil
  · intro wallet
    rw [hposts, hgives, accountTotal_append, accountTotal_undone wallet hundone,
      accountTotal_perm _ wallet hperm, add_neg_cancel]
  · rw [hposts, hgives]
    exact .of_undone hperm hundone (before.entriesOf_nodup _)
  · intro journal hjournal hposted
    rw [hcommitted.journals, List.mem_append, List.mem_singleton] at hjournal
    rcases hjournal with hold | rfl
    · obtain ⟨old, hmem, rfl⟩ := List.mem_map.mp hold
      have holdPosted : old.postedIn plan.transactionId mode = true := by
        simpa [Journal.postedIn] using hposted
      obtain ⟨htransaction, hmode, _⟩ := Journal.postedIn_iff.mp holdPosted
      have hstatus := hconsistent.refines.status_of_mem hmem
      rw [htransaction, hmode] at hstatus
      have hreversible := Stage.reversible_of_standing hstanding hstatus
      simp [Plan.closeJournal, hoperation, holdPosted, hreversible]
    · have haction := (Journal.postedIn_iff.mp hposted).2.2
      simp [Plan.journal, hoperation, Operation.action] at haction
  · rw [hrequest, if_pos rfl, hplanned.transactionId, hplanned.found]
    exact ⟨_, rfl, by simp [hoperation, Operation.requestStatus]⟩

end Committed

/-- When a reversal answers `REVERSED` after any run, its transaction has been
reversed exactly, and no later reversal in the same mode changes anything. -/
theorem reversal_exact {start db after : Db} (hstart : start.Initial)
    (hrun : Reaches Db.step start db) {call : Call} {mode : Mode} {result : Result}
    (hoperation : call.operation? = some (.reverse mode))
    (hcall : db.directFinifyTransaction call = some (result, after))
    (hcode : result.statusCode = .reversed) :
    ∃ transactionId, call.payload.transactionId = some transactionId ∧
      after.ExactlyReversed transactionId mode ∧
      ∀ later, Reaches Db.step after later → ∀ again result' final,
        again.payload.transactionId = some transactionId →
        again.operation? = some (.reverse mode) →
        later.directFinifyTransaction again = some (result', final) → final = later := by
  obtain ⟨plan, journalId, hplan, hcommit⟩ := Db.committed_of_reversed hcall hcode
  obtain ⟨stages, hconsistent⟩ := Consistent.run hstart hrun
  obtain ⟨request, terms, hplanned⟩ := Db.plan_eq_ok hplan
  obtain ⟨entries, hcommitted⟩ := Db.commit_eq_some hcommit
  obtain ⟨next, hnext, hrefines⟩ := hconsistent.refines.committed hplanned hcommitted
  have hreverse : plan.operation = .reverse mode :=
    Option.some.inj (hplanned.operation.symm.trans hoperation)
  have haction : plan.operation.action ≠ .post := by simp [hreverse, Operation.action]
  obtain rfl : plan.operation.mode = mode := by rw [hreverse]; rfl
  obtain ⟨hstanding, hclosed⟩ := Stage.standing_of_advance hnext haction
  refine ⟨plan.transactionId, hplanned.transactionId ▸ hplanned.transaction,
    hplanned.exactlyReversed hcommitted hconsistent hreverse hstanding, ?_⟩
  intro later hlater again result' final htransaction hagain hcall'
  have hafter : Consistent start after
      (stages.set plan.transactionId plan.operation.mode next) :=
    ⟨hconsistent.sound.committed hplanned hcommitted, hrefines,
      hconsistent.requested.committed hplanned hcommitted hnext⟩
  have hstage : (stages.set plan.transactionId plan.operation.mode next plan.transactionId
      plan.operation.mode).Closed := by
    rw [Stages.set_self]
    exact hclosed
  obtain ⟨stages', hconsistent', hclosed'⟩ := hafter.closed_run hstage hlater
  exact hconsistent'.refines.reverse_unchanged hclosed' htransaction hagain hcall'

/-- A payment settled in two legs is reversed. -/
theorem reversal_exact_shop :
    ∃ db result after,
      runInputs Db.step shopDb [shopPost .twoLeg 1, shopPost .twoLeg 2] = some db ∧
      db.directFinifyTransaction
          { payload := { transactionId := some 7 }, mode := some .twoLeg,
            action := some .reverse } = some (result, after) ∧
      after.ExactlyReversed 7 .twoLeg := by
  have hcodes : (runInputs Db.step shopDb [shopPost .twoLeg 1, shopPost .twoLeg 2]).bind
      (fun db => (db.directFinifyTransaction
        { payload := { transactionId := some 7 }, mode := some .twoLeg,
          action := some .reverse }).map fun returned => returned.1.statusCode) =
      some .reversed := by
    decide +kernel
  obtain ⟨db, hrun, hcode⟩ := Option.bind_eq_some_iff.mp hcodes
  obtain ⟨⟨result, after⟩, hcall, hcode⟩ := Option.map_eq_some_iff.mp hcode
  obtain ⟨transactionId, htransaction, hexact, _⟩ :=
    reversal_exact (Db.opening_initial _ _) (.of_runInputs hrun) rfl hcall hcode
  obtain rfl := Option.some.inj htransaction
  exact ⟨db, result, after, hrun, hcall, hexact⟩

end Finify.Posting
