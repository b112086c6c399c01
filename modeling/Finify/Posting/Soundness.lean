/-
# The ledger is sound

Whatever calls are committed, every journal balances, every wallet's entries
lead from its first amount to its present one, and no money is made or lost.
The invariant is carried by one lemma about posting a balanced set of lines; the
two procedures only have to show that their lines balance and lie on wallets
that exist.
-/

import Finify.Posting.Decision

namespace Finify.Posting

open Finify.Foundations

/-- The two sides of a journal. -/
def Db.journalDebit (db : Db) (journalId : ℕ) : ℤ :=
  ((db.journalEntries journalId).map Entry.debit).sum

def Db.journalCredit (db : Db) (journalId : ℕ) : ℤ :=
  ((db.journalEntries journalId).map Entry.credit).sum

/-- Soundness of a ledger that was opened with the wallets of `start`. -/
structure Sound (start db : Db) : Prop where
  journals_balance : ∀ journal ∈ db.journals.rows,
    0 < db.journalDebit journal.id ∧ db.journalDebit journal.id = db.journalCredit journal.id
  history : ∀ wallet a, start.balance wallet = some a →
    ∃ b, db.balance wallet = some b ∧ Trail Moves a (db.walletEntries wallet) b
  missing : ∀ wallet, start.balance wallet = none → db.balance wallet = none
  entry_journal : ∀ entry ∈ db.entries.rows, ∃ journal ∈ db.journals.rows,
    journal.id = entry.journalId
  entry_wallet : ∀ entry ∈ db.entries.rows, (db.balance entry.accountNumber).isSome
  total : db.total = start.total

namespace Sound

variable {start before after : Db}

theorem initial (hstart : start.Initial) : Sound start start where
  journals_balance := by simp [hstart.no_journals]
  history := by
    intro wallet a ha
    refine ⟨a, ha, ?_⟩
    rw [Db.walletEntries, hstart.no_entries]
    exact .nil a
  missing := fun _ h => h
  entry_journal := by simp [hstart.no_entries]
  entry_wallet := by simp [hstart.no_entries]
  total := rfl

/-- Soundness is about wallets, entries and the ids of journals. -/
theorem congr (hsound : Sound start before) (hwallets : after.wallets = before.wallets)
    (hjournals : after.journals = before.journals) (hentries : after.entries = before.entries) :
    Sound start after where
  journals_balance := by
    simpa only [Db.journalDebit, Db.journalCredit, Db.journalEntries, hjournals, hentries]
      using hsound.journals_balance
  history := by
    simpa only [Db.balance, Db.walletEntries, hwallets, hentries] using hsound.history
  missing := by simpa only [Db.balance, hwallets] using hsound.missing
  entry_journal := by simpa only [hjournals, hentries] using hsound.entry_journal
  entry_wallet := by simpa only [Db.balance, hwallets, hentries] using hsound.entry_wallet
  total := by simpa only [Db.total, hwallets] using hsound.total

/-- No entry carries the id of a journal that is yet to come. -/
theorem journalEntries_next (hsound : Sound start before) :
    before.journalEntries before.journals.next = [] := by
  rw [Db.journalEntries, List.filter_eq_nil_iff]
  intro entry hentry
  obtain ⟨journal, hjournal, hid⟩ := hsound.entry_journal entry hentry
  have hbelow := before.journals.below journal hjournal
  simp only [decide_eq_true_eq]
  omega

section Post

variable {header : Header} {numbered : List (Line × ℕ)} {entries : List Entry}

/-- The entries of a posting all belong to its journal. -/
theorem journalId_of_recorded (hrecorded : List.Forall₂ (RecordedBy header) numbered entries) :
    ∀ entry ∈ entries, entry.journalId = header.journalId := by
  intro entry hentry
  obtain ⟨_, _, hrecord⟩ := exists_line_of_recorded hrecorded hentry
  exact hrecord.journal

/-- A posting fills its own journal and leaves the others as they were. -/
theorem journalEntries_of_posted (hsound : Sound start before)
    (hposted : Posted header before numbered entries after)
    (hfresh : header.journalId = before.journals.next) (journalId : ℕ) :
    after.journalEntries journalId =
      if journalId = header.journalId then entries else before.journalEntries journalId := by
  have hnew := journalId_of_recorded hposted.recorded
  unfold Db.journalEntries
  rw [hposted.appended, List.filter_append]
  by_cases hid : journalId = header.journalId
  · have hold := hsound.journalEntries_next
    rw [← hfresh, ← hid, Db.journalEntries] at hold
    rw [hold, if_pos hid, List.nil_append, List.filter_eq_self]
    intro entry hentry
    simp [hnew entry hentry, hid]
  · have hnone : (entries.filter fun entry => entry.journalId = journalId) = [] := by
      rw [List.filter_eq_nil_iff]
      intro entry hentry
      simp [hnew entry hentry, Ne.symm hid]
    rw [hnone, if_neg hid, List.append_nil]

/-- Posting balanced lines on existing wallets keeps the ledger sound. -/
theorem post (hsound : Sound start before) (hposted : Posted header before numbered entries after)
    (hfresh : header.journalId = before.journals.next)
    (hjournals : after.journals.rows.map Journal.id =
      before.journals.rows.map Journal.id ++ [header.journalId])
    (hexists : ∀ n ∈ numbered, (before.balance n.1.wallet).isSome)
    (hpositive : 0 < (entries.map Entry.debit).sum)
    (hbalanced : (entries.map Entry.debit).sum = (entries.map Entry.credit).sum) :
    Sound start after where
  journals_balance := by
    intro journal hjournal
    have hid : journal.id ∈ after.journals.rows.map Journal.id := List.mem_map_of_mem hjournal
    unfold Db.journalDebit Db.journalCredit
    rw [hsound.journalEntries_of_posted hposted hfresh]
    by_cases hnew : journal.id = header.journalId
    · rw [if_pos hnew]
      exact ⟨hpositive, hbalanced⟩
    · rw [if_neg hnew]
      have hold : journal.id ∈ before.journals.rows.map Journal.id := by
        rw [hjournals, List.mem_append, List.mem_singleton] at hid
        exact hid.resolve_right hnew
      obtain ⟨old, hmem, hsame⟩ := List.mem_map.mp hold
      rw [← hsame]
      exact hsound.journals_balance old hmem
  history := by
    intro wallet a ha
    obtain ⟨b, hb, htrail⟩ := hsound.history wallet a ha
    obtain ⟨c, hc, hlater⟩ := hposted.history wallet b hb
    refine ⟨c, hc, ?_⟩
    rw [Db.walletEntries, hposted.appended, List.filter_append]
    exact htrail.append hlater
  missing := fun wallet h => hposted.missing wallet (hsound.missing wallet h)
  entry_journal := by
    intro entry hentry
    have hids : entry.journalId ∈ after.journals.rows.map Journal.id := by
      rw [hposted.appended, List.mem_append] at hentry
      rw [hjournals, List.mem_append, List.mem_singleton]
      rcases hentry with hold | hnew
      · obtain ⟨journal, hjournal, hid⟩ := hsound.entry_journal entry hold
        exact .inl (List.mem_map.mpr ⟨journal, hjournal, hid⟩)
      · exact .inr (journalId_of_recorded hposted.recorded entry hnew)
    exact List.mem_map.mp hids
  entry_wallet := by
    intro entry hentry
    rw [hposted.balance_isSome]
    rw [hposted.appended, List.mem_append] at hentry
    rcases hentry with hold | hnew
    · exact hsound.entry_wallet entry hold
    · obtain ⟨n, hn, hrecord⟩ := exists_line_of_recorded hposted.recorded hnew
      rw [hrecord.wallet]
      exact hexists n hn
  total := by
    rw [hposted.total hexists, hsound.total, Entry.sum_movement, hbalanced, sub_self, add_zero]

end Post

end Sound

theorem Db.Postable.entries_balance {db : Db} {action : Action} {lines : List Line}
    {header : Header} {entries : List Entry} (hpostable : db.Postable action lines)
    (hrecorded : List.Forall₂ (RecordedBy header) (lines.zipIdx 1) entries) :
    0 < (entries.map Entry.debit).sum ∧
      (entries.map Entry.debit).sum = (entries.map Entry.credit).sum := by
  have hdebit := sideTotal_debit_of_recorded hrecorded
  have hcredit := sideTotal_credit_of_recorded hrecorded
  rw [List.zipIdx_map_fst] at hdebit hcredit
  have hpositive := hpostable.positive
  have hbalanced := hpostable.balanced
  rw [hdebit] at hpositive hbalanced
  rw [hcredit] at hbalanced
  exact ⟨by exact_mod_cast hpositive, by exact_mod_cast hbalanced⟩

/-! ## The two procedures -/

namespace Sound

variable {start before after : Db}

/-- The journals after a committed plan are the old ones and its own. -/
theorem ids_of_committed {plan : Plan} {journalId : ℕ} {entries : List Entry}
    (hcommitted : Committed before plan journalId entries after) :
    after.journals.rows.map Journal.id = before.journals.rows.map Journal.id ++ [journalId] := by
  rw [hcommitted.journals, List.map_append, List.map_map]
  simp [Function.comp_def, Plan.journal]

theorem committed {call : Call} {request : Request} {terms : Terms} {plan : Plan} {journalId : ℕ}
    {entries : List Entry} (hsound : Sound start before)
    (hplanned : Planned before call request terms plan)
    (hcommitted : Committed before plan journalId entries after) : Sound start after := by
  obtain ⟨hpositive, hbalanced⟩ := hplanned.postable.entries_balance hcommitted.posted.recorded
  apply hsound.post hcommitted.posted hcommitted.fresh (ids_of_committed hcommitted) ?_
    hpositive hbalanced
  rintro ⟨line, n⟩ hn
  exact hplanned.postable.wallet_exists (List.fst_mem_of_mem_zipIdx hn)

/-- There is something to give back whenever a refund has a journal to point to. -/
theorem refundEntries_ne_nil (hsound : Sound start before) {transactionId : ℤ} {journalId : ℕ}
    (hjournal : before.refundedJournal transactionId = some journalId) :
    before.refundEntries transactionId ≠ [] := by
  obtain ⟨journal, hmem, hrefundable⟩ := Db.refundedJournal_eq_some hjournal
  have hpositive := (hsound.journals_balance journal hmem).1
  unfold Db.journalDebit at hpositive
  cases hentries : before.journalEntries journal.id with
  | nil => simp [hentries] at hpositive
  | cons entry rest =>
    have hentry : entry ∈ before.journalEntries journal.id := by simp [hentries]
    obtain ⟨hrow, hid⟩ := List.mem_filter.mp hentry
    refine List.ne_nil_of_mem (a := entry) (Db.mem_refundEntries.mpr ?_)
    exact ⟨hrow, journal, hmem, by simpa using hid, hrefundable⟩

theorem refunded {call : RefundCall} {plan : RefundPlan} {journalId : ℕ} {entries : List Entry}
    (hsound : Sound start before) (hplanned : RefundPlanned before call plan)
    (hrefunded : Refunded before plan journalId entries after) : Sound start after := by
  have hne : entries ≠ [] := by
    have hlength := hrefunded.posted.recorded.length_eq
    have hlines := hsound.refundEntries_ne_nil hplanned.posted
    rw [← hplanned.entries] at hlines
    intro hnil
    simp [hnil, RefundPlan.lines, hlines] at hlength
  have hown : after.journalEntries journalId = entries := by
    rw [hsound.journalEntries_of_posted hrefunded.posted hrefunded.fresh]
    simp
  have hbalanced := hrefunded.balanced
  rw [hown] at hbalanced
  unfold unbalancedRefund at hbalanced
  push Not at hbalanced
  obtain ⟨hpositive, hequal⟩ := hbalanced hne
  obtain ⟨currency, hjournals⟩ := hrefunded.journals
  apply hsound.post hrefunded.posted hrefunded.fresh ?_ ?_ hpositive hequal
  · rw [hjournals, List.map_append]
    rfl
  · rintro ⟨line, n⟩ hn
    obtain ⟨entry, hentry, rfl⟩ := List.mem_map.mp (List.fst_mem_of_mem_zipIdx hn)
    rw [hplanned.entries, Db.mem_refundEntries] at hentry
    exact hsound.entry_wallet entry hentry.1

/-- Every committed call keeps the ledger sound. -/
theorem step (hsound : Sound start before) {event : Event}
    (hstep : before.step event = some after) : Sound start after := by
  cases Db.step_outcome hstep with
  | quiet hquiet => exact hsound.congr hquiet.wallets hquiet.journals hquiet.entries
  | committed call request terms plan journalId entries _ _ hplanned hcommitted =>
    exact hsound.committed hplanned hcommitted
  | refunded call plan journalId entries _ hplanned hrefunded =>
    exact hsound.refunded hplanned hrefunded

/-- Every run leaves a sound ledger. -/
theorem run (hstart : start.Initial) {db : Db} (hrun : Reaches Db.step start db) :
    Sound start db :=
  hrun.preserves (Sound start) (fun _ _ _ hsound hstep => hsound.step hstep) (initial hstart)

end Sound

/-- After any run of committed calls every journal has equal, positive sides, the
entries of every wallet lead from its first amount to its present one, no money
has been made or lost, and a call that then answers `success = false` leaves
wallets, journals and entries alone. -/
theorem posting_core_sound {start db : Db} (hstart : start.Initial)
    (hrun : Reaches Db.step start db) :
    (∀ journal ∈ db.journals.rows,
      0 < db.journalDebit journal.id ∧
        db.journalDebit journal.id = db.journalCredit journal.id) ∧
    (∀ wallet a, start.balance wallet = some a →
      ∃ b, db.balance wallet = some b ∧ Trail Moves a (db.walletEntries wallet) b) ∧
    db.total = start.total ∧
    ∀ event after, db.perform event = some (false, after) →
      after.wallets = db.wallets ∧ after.journals = db.journals ∧ after.entries = db.entries := by
  have hsound := Sound.run hstart hrun
  refine ⟨hsound.journals_balance, hsound.history, hsound.total, ?_⟩
  intro event after hperform
  have hquiet := (Db.perform_outcome hperform).2 rfl
  exact ⟨hquiet.wallets, hquiet.journals, hquiet.entries⟩

theorem posting_core_sound_shop :
    ∃ db, runInputs Db.step shopDb [shopPost .direct 1, shopRefund] = some db ∧
      db.total = shopDb.total := by
  obtain ⟨db, hrun⟩ := Option.isSome_iff_exists.mp
    (by decide +kernel :
      (runInputs Db.step shopDb [shopPost .direct 1, shopRefund]).isSome = true)
  have hsound := posting_core_sound (Db.opening_initial _ _) (Reaches.of_runInputs hrun)
  exact ⟨db, hrun, hsound.2.2.1⟩

end Finify.Posting
