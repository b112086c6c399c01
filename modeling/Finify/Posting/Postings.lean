/-
# The postings of one transaction

The entries of a transaction's posting journals only grow, and only by calls
that post for it.  This module says by how much, and keeps the two facts about
requests that the single-transaction results need: every journal belongs to a
request, and a request that reads "reversed" has been reversed in some mode.
-/

import Finify.Posting.Lifecycle
import Finify.Posting.Soundness

namespace Finify.Posting

open Finify.Foundations

def Journal.postsFor (transactionId : ℤ) (journal : Journal) : Bool :=
  journal.transactionId = transactionId ∧ journal.operation.action = .post

theorem Journal.postsFor_iff {transactionId : ℤ} {journal : Journal} :
    journal.postsFor transactionId = true ↔
      journal.transactionId = transactionId ∧ journal.operation.action = .post := by
  simp [Journal.postsFor]

def Db.postEntries (db : Db) (transactionId : ℤ) : List Entry :=
  (db.joinEntries (Journal.postsFor transactionId)).map Prod.snd

theorem Db.mem_postEntries {db : Db} {transactionId : ℤ} {entry : Entry} :
    entry ∈ db.postEntries transactionId ↔
      entry ∈ db.entries.rows ∧ ∃ journal ∈ db.journals.rows,
        entry.journalId = journal.id ∧ journal.postsFor transactionId := by
  simp only [Db.postEntries, List.mem_map, Prod.exists, Db.mem_joinEntries, exists_eq_right]
  constructor
  · rintro ⟨journal, hjournal, hposts, hentry, hid⟩
    exact ⟨hentry, journal, hjournal, hid, hposts⟩
  · rintro ⟨hentry, journal, hjournal, hid, hposts⟩
    exact ⟨journal, hjournal, hposts, hentry, hid⟩

theorem Db.postEntries_congr {before after : Db} (hjournals : after.journals = before.journals)
    (hentries : after.entries = before.entries) (transactionId : ℤ) :
    after.postEntries transactionId = before.postEntries transactionId := by
  simp only [Db.postEntries, Db.joinEntries, Db.journalEntries, hjournals, hentries]

def Db.entriesOf (db : Db) (select : Journal → Bool) : List Entry :=
  (db.joinEntries select).map Prod.snd

theorem Db.mem_rows_of_mem_entriesOf {db : Db} {select : Journal → Bool} {entry : Entry}
    (hentry : entry ∈ db.entriesOf select) : entry ∈ db.entries.rows := by
  obtain ⟨⟨journal, found⟩, hfound, rfl⟩ := List.mem_map.mp hentry
  exact (Db.mem_joinEntries.mp hfound).2.2.1

/-- Entries have different ids, whichever journals they are taken from. -/
theorem Db.entriesOf_nodup (db : Db) (select : Journal → Bool) :
    ((db.entriesOf select).map Entry.id).Nodup := by
  have hrows : db.entries.rows.Nodup := db.entries.nodup_serial.of_map
  have hflat : db.entriesOf select =
      (db.journals.rows.filter select).flatMap fun journal => db.journalEntries journal.id := by
    simp [Db.entriesOf, Db.joinEntries, List.map_flatMap, Function.comp_def]
  have hentries : (db.entriesOf select).Nodup := by
    rw [hflat, List.nodup_flatMap]
    refine ⟨fun _ _ => hrows.filter _, ?_⟩
    refine (db.journals.increasing.filter select).imp ?_
    intro earlier later hlt entry hearlier hlater
    have hearlier := List.of_mem_filter hearlier
    have hlater := List.of_mem_filter hlater
    simp only [decide_eq_true_eq] at hearlier hlater
    omega
  refine hentries.map_on ?_
  intro first hfirst second hsecond hid
  exact db.entries.eq_of_serial_eq (Db.mem_rows_of_mem_entriesOf hfirst)
    (Db.mem_rows_of_mem_entriesOf hsecond) hid

section Posted

variable {start before after : Db} {header : Header} {numbered : List (Line × ℕ)}
  {entries : List Entry}

/-- One new journal with its entries adds these to the selected ones, if it is
selected, and leaves all others alone. -/
theorem Sound.entriesOf_posted (hsound : Sound start before)
    (hposted : Posted header before numbered entries after)
    (hfresh : header.journalId = before.journals.next) {close : Journal → Journal}
    {journal : Journal} (hjournals : after.journals.rows =
      before.journals.rows.map close ++ [journal])
    (hid : ∀ older, (close older).id = older.id) (hown : journal.id = header.journalId)
    {select : Journal → Bool} (hselect : ∀ older, select (close older) = select older) :
    after.entriesOf select =
      before.entriesOf select ++ if select journal then entries else [] := by
  have hnew := hsound.journalEntries_of_posted hposted hfresh
  have hold : ∀ older ∈ before.journals.rows,
      after.journalEntries older.id = before.journalEntries older.id := by
    intro older hmem
    have hbelow := before.journals.below older hmem
    rw [hnew, if_neg (by omega)]
  unfold Db.entriesOf Db.joinEntries
  rw [hjournals, List.filter_append, List.flatMap_append, List.map_append]
  refine congrArg₂ _ ?_ ?_
  · rw [List.filter_map, List.flatMap_map, List.map_flatMap, List.map_flatMap]
    have hsame : select ∘ close = select := by
      funext older
      exact hselect older
    rw [hsame]
    refine List.flatMap_congr fun older hmem => ?_
    rw [List.map_map, List.map_map, hid, hold older (List.mem_of_mem_filter hmem)]
    rfl
  · by_cases hpost : select journal = true
    · rw [if_pos hpost, List.filter_cons_of_pos hpost]
      simp [hown, hnew]
    · rw [if_neg hpost, List.filter_cons_of_neg hpost]
      rfl

end Posted

section Committed

variable {start before after : Db} {journalId : ℕ} {entries : List Entry}

/-- A committed plan adds its entries to those of its journal. -/
theorem Sound.entriesOf_committed {plan : Plan} (hsound : Sound start before)
    (hcommitted : Committed before plan journalId entries after) {select : Journal → Bool}
    (hselect : ∀ older, select (plan.closeJournal older) = select older) :
    after.entriesOf select =
      before.entriesOf select ++ if select (plan.journal journalId) then entries else [] :=
  hsound.entriesOf_posted hcommitted.posted hcommitted.fresh hcommitted.journals
    plan.closeJournal_id rfl hselect

theorem Sound.postEntries_of_committed {plan : Plan} (hsound : Sound start before)
    (hcommitted : Committed before plan journalId entries after) (transactionId : ℤ) :
    after.postEntries transactionId =
      before.postEntries transactionId ++
        if plan.transactionId = transactionId ∧ plan.operation.action = .post then entries
        else [] := by
  have hposts : (plan.journal journalId).postsFor transactionId = true ↔
      plan.transactionId = transactionId ∧ plan.operation.action = .post :=
    Journal.postsFor_iff
  simp only [← hposts]
  apply hsound.entriesOf_committed hcommitted
  intro older
  simp [Journal.postsFor]

theorem Sound.postEntries_of_refunded {plan : RefundPlan} (hsound : Sound start before)
    (hrefunded : Refunded before plan journalId entries after) (transactionId : ℤ) :
    after.postEntries transactionId =
      before.postEntries transactionId ++
        if plan.refundTransactionId = transactionId then entries else [] := by
  obtain ⟨currency, hjournals⟩ := hrefunded.journals
  rw [← List.map_id before.journals.rows] at hjournals
  have hentries : after.entriesOf (Journal.postsFor transactionId) = _ :=
    hsound.entriesOf_posted hrefunded.posted hrefunded.fresh hjournals (fun _ => rfl) rfl
      fun _ => rfl
  refine hentries.trans (congrArg _ ?_)
  simp [Journal.postsFor, RefundPlan.journal, Operation.action]

end Committed

def Db.PostedIn (db : Db) (transactionId : ℤ) (mode : Mode) : Prop :=
  ∃ journal ∈ db.journals.rows, journal.postedIn transactionId mode

theorem Refines.fresh_of_not_postedIn {db : Db} {stages : Stages} (hrefines : Refines db stages)
    {transactionId : ℤ} {mode : Mode} (hnone : ¬ db.PostedIn transactionId mode) :
    stages transactionId mode = .fresh := by
  by_contra hstage
  obtain ⟨operation, status, rfl, haction, hstatus⟩ := Stage.exists_postStatus hstage
  rw [← hrefines.status] at hstatus
  obtain ⟨journal, hfind, _⟩ := Option.map_eq_some_iff.mp hstatus
  obtain ⟨hmem, htransaction, hoperation⟩ := Db.findJournal_eq_some hfind
  exact hnone ⟨journal, hmem, Journal.postedIn_iff.mpr
    ⟨htransaction, by rw [hoperation], by rw [hoperation, haction]⟩⟩

/-- The call passes every check of the procedure. -/
def Db.Passes (db : Db) (call : Call) : Prop :=
  ∃ plan, db.plan call = .ok plan

/-! ## Requests -/

/-- Every journal belongs to a request, and a request with status 6 has been
reversed unless it started out with that status. -/
structure Requested (start db : Db) (stages : Stages) : Prop where
  request : ∀ journal ∈ db.journals.rows,
    (db.requests.find? journal.transactionId).isSome
  reversed : ∀ transactionId request, db.requests.find? transactionId = some request →
    request.transactionStatus = some 6 →
      (∃ mode, (stages transactionId mode).Closed) ∨
        ∃ old ∈ start.requests.rows, old.transactionStatus = some 6

theorem Db.failRequest_find? (db : Db) (call : Call) (transactionId : ℤ) :
    (db.failRequest call).requests.find? transactionId =
      if call.payload.transactionId = some transactionId then
        (db.requests.find? transactionId).map
          fun request => { request with transactionStatus := some 3 }
      else db.requests.find? transactionId := by
  unfold Db.failRequest
  split
  · rename_i hnone
    simp [hnone]
  · rename_i other hother
    rw [Db.find?_updateRequest, hother]
    simp only [Option.some.injEq, eq_comm]

theorem Quiet.find?_request {before after : Db} (hquiet : Quiet before after)
    (transactionId : ℤ) :
    after.requests.find? transactionId = before.requests.find? transactionId ∨
      after.requests.find? transactionId = (before.requests.find? transactionId).map
        fun request => { request with transactionStatus := some 3 } := by
  rcases hquiet.requests with hsame | ⟨call, hfailed⟩
  · exact .inl (by rw [hsame])
  · rw [hfailed, Db.failRequest_find?]
    split
    · exact .inr rfl
    · exact .inl rfl

theorem Committed.find?_request {before after : Db} {plan : Plan} {journalId : ℕ}
    {entries : List Entry} (hcommitted : Committed before plan journalId entries after) :
    ∃ charge commission : ℤ, plan.charge = charge ∧ plan.commission = commission ∧
      ∀ transactionId, after.requests.find? transactionId =
        if transactionId = plan.transactionId then
          (before.requests.find? transactionId).map fun request =>
            { request with
              transactionStatus := some plan.operation.requestStatus
              transactionFee :=
                if plan.operation.action = .post then some charge else request.transactionFee
              transactionComm :=
                if plan.operation.action = .post then some commission
                else request.transactionComm }
        else before.requests.find? transactionId := by
  obtain ⟨charge, commission, hcharge, hcommission, hrequests⟩ := hcommitted.requests
  refine ⟨charge, commission, hcharge, hcommission, fun transactionId => ?_⟩
  rw [hrequests, Db.closeRequest, Db.find?_updateRequest]

theorem Refunded.find?_request {before after : Db} {plan : RefundPlan} {journalId : ℕ}
    {entries : List Entry} (hrefunded : Refunded before plan journalId entries after)
    (transactionId : ℤ) :
    after.requests.find? transactionId =
      if transactionId = plan.refundTransactionId then some plan.request
      else before.requests.find? transactionId :=
  Table.find?_of_insert? hrefunded.requests transactionId

namespace Requested

variable {start before after : Db} {stages : Stages}

theorem initial {db : Db} (hstart : db.Initial) : Requested db db Stages.initial where
  request := by simp [hstart.no_journals]
  reversed := by
    intro transactionId request hfind hstatus
    exact .inr ⟨request, (Table.find?_eq_some.mp hfind).1, hstatus⟩

theorem quiet (hrequested : Requested start before stages) (hquiet : Quiet before after) :
    Requested start after stages where
  request := by
    intro journal hjournal
    rw [hquiet.journals] at hjournal
    have hsome := hrequested.request journal hjournal
    rcases hquiet.find?_request journal.transactionId with hsame | hfailed
    · rwa [hsame]
    · rwa [hfailed, Option.isSome_map]
  reversed := by
    intro transactionId request hfind hstatus
    rcases hquiet.find?_request transactionId with hsame | hfailed
    · exact hrequested.reversed transactionId request (hsame ▸ hfind) hstatus
    · rw [hfailed] at hfind
      obtain ⟨old, _, rfl⟩ := Option.map_eq_some_iff.mp hfind
      cases hstatus

theorem committed {call : Call} {request : Request} {terms : Terms} {plan : Plan}
    {journalId : ℕ} {entries : List Entry} (hrequested : Requested start before stages)
    (hplanned : Planned before call request terms plan)
    (hcommitted : Committed before plan journalId entries after)
    {next : Stage plan.operation.mode}
    (hnext : (stages plan.transactionId plan.operation.mode).advance plan.operation = some next) :
    Requested start after (stages.set plan.transactionId plan.operation.mode next) := by
  obtain ⟨charge, commission, _, _, hfind⟩ := hcommitted.find?_request
  have hown : (before.requests.find? plan.transactionId).isSome := by
    rw [hplanned.transactionId, hplanned.found]
    rfl
  refine ⟨?_, ?_⟩
  · intro journal hjournal
    have hsome : (before.requests.find? journal.transactionId).isSome := by
      rw [hcommitted.journals, List.mem_append, List.mem_singleton] at hjournal
      rcases hjournal with hold | rfl
      · obtain ⟨old, hmem, rfl⟩ := List.mem_map.mp hold
        rw [Plan.closeJournal_transactionId]
        exact hrequested.request old hmem
      · exact hown
    rw [hfind]
    split
    · rwa [Option.isSome_map]
    · exact hsome
  · intro transactionId found hafter hstatus
    rw [hfind] at hafter
    by_cases hsame : transactionId = plan.transactionId
    · subst hsame
      rw [if_pos rfl] at hafter
      obtain ⟨old, _, rfl⟩ := Option.map_eq_some_iff.mp hafter
      refine .inl ⟨plan.operation.mode, ?_⟩
      rw [Stages.set_self]
      exact Stage.closed_of_advance hnext (by simpa using hstatus)
    · rw [if_neg hsame] at hafter
      refine (hrequested.reversed transactionId found hafter hstatus).imp_left ?_
      rintro ⟨mode, hclosed⟩
      refine ⟨mode, ?_⟩
      rwa [Stages.set_of_ne_transaction _ hsame]

theorem refunded {plan : RefundPlan} {journalId : ℕ} {entries : List Entry}
    (hrequested : Requested start before stages)
    (hrefunded : Refunded before plan journalId entries after) :
    Requested start after (stages.set plan.refundTransactionId .direct .posted) := by
  refine ⟨?_, ?_⟩
  · intro journal hjournal
    rw [hrefunded.find?_request]
    split
    · rfl
    · rename_i hother
      obtain ⟨currency, hjournals⟩ := hrefunded.journals
      rw [hjournals, List.mem_append, List.mem_singleton] at hjournal
      rcases hjournal with hold | rfl
      · exact hrequested.request journal hold
      · exact absurd rfl hother
  · intro transactionId found hafter hstatus
    rw [hrefunded.find?_request] at hafter
    by_cases hsame : transactionId = plan.refundTransactionId
    · rw [if_pos hsame] at hafter
      cases hafter
      cases hstatus
    · rw [if_neg hsame] at hafter
      refine (hrequested.reversed transactionId found hafter hstatus).imp_left ?_
      rintro ⟨mode, hclosed⟩
      refine ⟨mode, ?_⟩
      rwa [Stages.set_of_ne_transaction _ hsame]

end Requested

/-! ## One step with its stages -/

/-- The facts about the whole database that every run keeps. -/
structure Consistent (start db : Db) (stages : Stages) : Prop where
  sound : Sound start db
  refines : Refines db stages
  requested : Requested start db stages

/-- What a committed call does, with the stages before and after it. -/
inductive Progress (before : Db) (stages : Stages) (event : Event) (after : Db) : Stages → Prop
  | quiet (hquiet : Quiet before after)
      (hothers : ∀ transactionId, ¬ event.Concerns transactionId →
        after.requests.find? transactionId = before.requests.find? transactionId) :
      Progress before stages event after stages
  | committed {call : Call} {request : Request} {terms : Terms} {plan : Plan} {journalId : ℕ}
      {entries : List Entry} {next : Stage plan.operation.mode} (hevent : event = .transaction call)
      (hplan : before.plan call = .ok plan)
      (hplanned : Planned before call request terms plan)
      (hcommitted : Committed before plan journalId entries after)
      (hnext : (stages plan.transactionId plan.operation.mode).advance plan.operation =
        some next) :
      Progress before stages event after
        (stages.set plan.transactionId plan.operation.mode next)
  | refunded {call : RefundCall} {plan : RefundPlan} {journalId : ℕ} {entries : List Entry}
      (hevent : event = .refund call) (hplanned : RefundPlanned before call plan)
      (hrefunded : Refunded before plan journalId entries after)
      (hnext : (stages plan.refundTransactionId .direct).advance .direct = some .posted) :
      Progress before stages event after (stages.set plan.refundTransactionId .direct .posted)

theorem Consistent.initial {db : Db} (hstart : db.Initial) :
    Consistent db db Stages.initial :=
  ⟨Sound.initial hstart, Refines.initial hstart, Requested.initial hstart⟩

theorem Consistent.step {start before after : Db} {stages : Stages} {event : Event}
    (hconsistent : Consistent start before stages) (hstep : before.step event = some after) :
    ∃ stages', Progress before stages event after stages' ∧ Consistent start after stages' := by
  cases Db.step_outcome hstep with
  | quiet hquiet hothers =>
    refine ⟨stages, .quiet hquiet hothers, ?_, ?_, hconsistent.requested.quiet hquiet⟩
    · exact hconsistent.sound.congr hquiet.wallets hquiet.journals hquiet.entries
    · exact hconsistent.refines.congr hquiet.journals
  | committed call request terms plan journalId entries hevent hplan hplanned hcommitted =>
    obtain ⟨next, hnext, hrefines⟩ := hconsistent.refines.committed hplanned hcommitted
    exact ⟨_, .committed hevent hplan hplanned hcommitted hnext,
      hconsistent.sound.committed hplanned hcommitted, hrefines,
      hconsistent.requested.committed hplanned hcommitted hnext⟩
  | refunded call plan journalId entries hevent hplanned hrefunded =>
    obtain ⟨hnext, hrefines⟩ := hconsistent.refines.refunded hrefunded
    exact ⟨_, .refunded hevent hplanned hrefunded hnext,
      hconsistent.sound.refunded hplanned hrefunded, hrefines,
      hconsistent.requested.refunded hrefunded⟩

theorem Consistent.run {start db : Db} (hstart : start.Initial)
    (hrun : Reaches Db.step start db) : ∃ stages, Consistent start db stages := by
  apply hrun.preserves fun db => ∃ stages, Consistent start db stages
  · rintro before event after ⟨stages, hconsistent⟩ hstep
    obtain ⟨stages', _, hconsistent'⟩ := hconsistent.step hstep
    exact ⟨stages', hconsistent'⟩
  · exact ⟨_, Consistent.initial hstart⟩

end Finify.Posting
