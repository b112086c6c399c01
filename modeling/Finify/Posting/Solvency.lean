/-
# No wallet is overdrawn

The sufficiency test compares totals once, and the lines are then applied one by
one.  The two fit together in two ways.  A posting counts no credits, so the
opening balance alone covers all debits of a wallet.  A reversal or a refund
counts the credits too, and its credits all come first.  Either way no balance
on the trail of a wallet is negative.
-/

import Finify.Posting.GiveBack
import Finify.Posting.Soundness

namespace Finify.Posting

open Finify.Foundations

/-- How a wallet that holds `a` is able to pay for the entries of one posting. -/
def Funds (a : ℤ) (entries : List Entry) : Prop :=
  (entries.map Entry.debit).sum ≤ a ∨
    ((entries.Pairwise fun earlier later => 0 < earlier.debit → later.credit = 0) ∧
      (entries.map Entry.debit).sum ≤ a + (entries.map Entry.credit).sum)

/-- A wallet that is able to pay is never overdrawn on the way. -/
theorem Funds.nonneg {a b : ℤ} {entries : List Entry} (hfunds : Funds a entries)
    (hstart : 0 ≤ a) (htrail : Trail Moves a entries b) :
    0 ≤ b ∧ ∀ entry ∈ entries, ∃ x y, Moves x entry y ∧ 0 ≤ x ∧ 0 ≤ y := by
  have hmoves : ∀ x entry y, Moves x entry y → y = x + entry.credit - entry.debit :=
    fun _ _ _ hmove => hmove.2.2
  rcases hfunds with hdebits | ⟨horder, hcovered⟩
  · exact htrail.nonneg_of_debits_covered hmoves Entry.credit_nonneg Entry.debit_nonneg hdebits
  · exact htrail.nonneg_of_credits_first hmoves Entry.credit_nonneg Entry.debit_nonneg horder
      (fun entry _ => entry.debit_or_credit_zero) hstart hcovered

/-- No wallet is overdrawn, and none was when an entry was written. -/
structure Solvent (db : Db) : Prop where
  wallets : ∀ wallet a, db.balance wallet = some a → 0 ≤ a
  entries : ∀ entry ∈ db.entries.rows,
    (∃ before, entry.balanceBefore = some before ∧ 0 ≤ before) ∧
      ∃ after, entry.balanceAfter = some after ∧ 0 ≤ after

namespace Solvent

variable {before after : Db} {header : Header} {lines : List Line} {entries : List Entry}

/-- Posting lines that every wallet is able to pay for overdraws none. -/
theorem post (hsolvent : Solvent before)
    (hposted : Posted header before (lines.zipIdx 1) entries after)
    (hexists : ∀ line ∈ lines, (before.balance line.wallet).isSome)
    (hfunds : ∀ wallet a, before.balance wallet = some a →
      Funds a (entries.filter fun entry => entry.accountNumber = wallet)) : Solvent after where
  wallets := by
    intro wallet b hb
    cases ha : before.balance wallet with
    | none =>
      rw [hposted.missing wallet ha] at hb
      cases hb
    | some a =>
      obtain ⟨c, hc, htrail⟩ := hposted.history wallet a ha
      rw [hb] at hc
      cases hc
      exact ((hfunds wallet a ha).nonneg (hsolvent.wallets wallet a ha) htrail).1
  entries := by
    intro entry hentry
    rw [hposted.appended, List.mem_append] at hentry
    rcases hentry with hold | hnew
    · exact hsolvent.entries entry hold
    · obtain ⟨n, hn, hrecord⟩ := exists_line_of_recorded hposted.recorded hnew
      have hsome := hexists n.1 (List.fst_mem_of_mem_zipIdx hn)
      rw [← hrecord.wallet] at hsome
      obtain ⟨a, ha⟩ := Option.isSome_iff_exists.mp hsome
      obtain ⟨b, _, htrail⟩ := hposted.history entry.accountNumber a ha
      have hmem : entry ∈ entries.filter fun other =>
          other.accountNumber = entry.accountNumber := by
        simp [hnew]
      obtain ⟨x, y, hmove, hx, hy⟩ :=
        ((hfunds _ a ha).nonneg (hsolvent.wallets _ a ha) htrail).2 entry hmem
      exact ⟨⟨x, hmove.1, hx⟩, ⟨y, hmove.2.1, hy⟩⟩

end Solvent

/-! ## The two procedures are able to pay -/

theorem Planned.creditsFirst {db : Db} {call : Call} {request : Request} {terms : Terms}
    {plan : Plan} (hplanned : Planned db call request terms plan)
    (haction : plan.operation.action = .reverse) : CreditsFirst plan.lines := by
  have hplan := hplanned.planned
  cases hoperation : plan.operation with
  | direct => simp [hoperation, Operation.action] at haction
  | reserve => simp [hoperation, Operation.action] at haction
  | settle => simp [hoperation, Operation.action] at haction
  | reverse mode =>
    rw [hoperation] at hplan
    obtain ⟨_, _, hshape⟩ := Db.planReverse_eq_ok hplan
    rw [hshape]
    exact creditsFirst_giveBackOrder _ fun _ => _

theorem Planned.funds {db after : Db} {call : Call} {request : Request} {terms : Terms}
    {plan : Plan} {journalId : ℕ} {entries : List Entry}
    (hplanned : Planned db call request terms plan)
    (hcommitted : Committed db plan journalId entries after) (hsolvent : Solvent db)
    (wallet a : ℤ) (ha : db.balance wallet = some a) :
    Funds a (entries.filter fun entry => entry.accountNumber = wallet) := by
  have hrecorded := hcommitted.posted.recorded
  have hdebit := walletTotal_debit_of_recorded hrecorded wallet
  have hcredit := walletTotal_credit_of_recorded hrecorded wallet
  by_cases hline : ∃ line ∈ plan.lines, line.wallet = wallet ∧ line.side = .debit
  · obtain ⟨line, hmem, rfl, hside⟩ := hline
    have hcovered := hplanned.postable.covered hmem hside ha
    rw [hdebit] at hcovered
    by_cases haction : plan.operation.action = .reverse
    · right
      rw [if_pos haction, hcredit] at hcovered
      refine ⟨(debits_last_of_recorded hrecorded ?_).sublist List.filter_sublist,
        by exact_mod_cast hcovered⟩
      rw [List.zipIdx_map_fst]
      exact hplanned.creditsFirst haction
    · left
      rw [if_neg haction, add_zero] at hcovered
      exact_mod_cast hcovered
  · left
    rw [walletTotal_eq_zero fun line hmem hwallet hside => hline ⟨line, hmem, hwallet, hside⟩]
      at hdebit
    have hzero : accountTotal Entry.debit wallet entries = 0 := by exact_mod_cast hdebit.symm
    exact hzero.le.trans (hsolvent.wallets wallet a ha)

theorem RefundPlanned.funds {db after : Db} {call : RefundCall} {plan : RefundPlan}
    {journalId : ℕ} {entries : List Entry} (hplanned : RefundPlanned db call plan)
    (hrefunded : Refunded db plan journalId entries after) (hsolvent : Solvent db)
    (wallet a : ℤ) (ha : db.balance wallet = some a) :
    Funds a (entries.filter fun entry => entry.accountNumber = wallet) := by
  have hrecorded := hrefunded.posted.recorded
  have hdebit := walletTotal_debit_of_recorded hrecorded wallet
  have hcredit := walletTotal_credit_of_recorded hrecorded wallet
  rw [RefundPlan.lines, walletTotal_debit_giveBack] at hdebit
  rw [RefundPlan.lines, walletTotal_credit_giveBack] at hcredit
  norm_cast at hdebit hcredit
  by_cases hentry : ∃ entry ∈ plan.entries, entry.accountNumber = wallet
  · obtain ⟨entry, hmem, rfl⟩ := hentry
    obtain ⟨row, hrow, rfl⟩ := Option.map_eq_some_iff.mp ha
    have hcovered : accountTotal Entry.credit entry.accountNumber plan.entries ≤
        row.amount + accountTotal Entry.debit entry.accountNumber plan.entries := by
      by_contra hshort
      exact hplanned.funded ⟨entry, hmem, row, hrow, .inr (not_le.mp hshort)⟩
    right
    rw [hdebit, hcredit] at hcovered
    refine ⟨(debits_last_of_recorded hrecorded ?_).sublist List.filter_sublist, hcovered⟩
    rw [List.zipIdx_map_fst, RefundPlan.lines, hplanned.entries]
    exact creditsFirst_giveBackOrder _ Entry.currency
  · left
    have hnone : (plan.entries.filter fun entry => entry.accountNumber = wallet) = [] := by
      rw [List.filter_eq_nil_iff]
      intro entry hmem hwallet
      exact hentry ⟨entry, hmem, by simpa using hwallet⟩
    have hzero : accountTotal Entry.debit wallet entries = 0 := by
      rw [← hdebit, accountTotal, hnone]
      rfl
    exact hzero.le.trans (hsolvent.wallets wallet a ha)

/-- On a sound ledger, no committed call overdraws a wallet. -/
theorem Solvent.step {start before after : Db} (hsolvent : Solvent before)
    (hsound : Sound start before) {event : Event} (hstep : before.step event = some after) :
    Solvent after := by
  cases Db.step_outcome hstep with
  | quiet hquiet =>
    refine ⟨?_, ?_⟩
    · simpa only [Db.balance, hquiet.wallets] using hsolvent.wallets
    · simpa only [hquiet.entries] using hsolvent.entries
  | committed call request terms plan journalId entries _ _ hplanned hcommitted =>
    exact hsolvent.post hcommitted.posted
      (fun line hline => hplanned.postable.wallet_exists hline)
      (hplanned.funds hcommitted hsolvent)
  | refunded call plan journalId entries _ hplanned hrefunded =>
    refine hsolvent.post hrefunded.posted ?_ (hplanned.funds hrefunded hsolvent)
    intro line hline
    obtain ⟨entry, hentry, rfl⟩ := List.mem_map.mp hline
    rw [hplanned.entries, Db.mem_refundEntries] at hentry
    exact hsound.entry_wallet entry hentry.1

/-- Starting from wallets that are not overdrawn, no run of committed calls
overdraws one: not at its end, and not before or after any single line. -/
theorem no_wallet_overdrawn {start db : Db} (hstart : start.Initial)
    (hnonneg : ∀ wallet a, start.balance wallet = some a → 0 ≤ a)
    (hrun : Reaches Db.step start db) :
    (∀ wallet a, db.balance wallet = some a → 0 ≤ a) ∧
      ∀ entry ∈ db.entries.rows,
        (∃ before, entry.balanceBefore = some before ∧ 0 ≤ before) ∧
          ∃ after, entry.balanceAfter = some after ∧ 0 ≤ after := by
  have hboth : Sound start db ∧ Solvent db := by
    apply hrun.preserves fun db => Sound start db ∧ Solvent db
    · intro before event after ⟨hsound, hsolvent⟩ hstep
      exact ⟨hsound.step hstep, hsolvent.step hsound hstep⟩
    · exact ⟨Sound.initial hstart, hnonneg, by simp [hstart.no_entries]⟩
  exact ⟨hboth.2.wallets, hboth.2.entries⟩

theorem no_wallet_overdrawn_shop :
    ∃ db, runInputs Db.step shopDb [shopPost .twoLeg 1, shopPost .twoLeg 2, shopReverse .twoLeg] =
        some db ∧
      ∀ wallet a, db.balance wallet = some a → 0 ≤ a := by
  obtain ⟨db, hrun⟩ := Option.isSome_iff_exists.mp
    (by decide +kernel :
      (runInputs Db.step shopDb
        [shopPost .twoLeg 1, shopPost .twoLeg 2, shopReverse .twoLeg]).isSome = true)
  refine ⟨db, hrun, (no_wallet_overdrawn (Db.opening_initial _ _) ?_ (Reaches.of_runInputs hrun)).1⟩
  intro wallet a ha
  obtain ⟨row, hrow, rfl⟩ := Option.map_eq_some_iff.mp ha
  have hall : ∀ row ∈ shopDb.wallets.rows, 0 ≤ row.amount := by decide
  exact hall row (Table.find?_eq_some.mp hrow).1

end Finify.Posting
