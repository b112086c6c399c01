/-
# Limits within one day

The live reservations of an account, pending and completed, are what its limits
are about.  Usage as the procedures see it is the summary row, which covers the
completed reservations, plus the pending ones.  An admitted reservation keeps the
two together within the limits, except when the account has no summary row: then
nothing is compared.  Reading the missing row as zeros would close the gap, and
whether that admits the reservation is the condition under which the limits hold.
-/

import Finify.Aml.Runs

namespace Finify.Aml

open Finify.Foundations Finify.Posting

/-! ## The limit checks -/

/-- The total of an account's reservations in some of the statuses. -/
def Db.counterIn (db : Db) (account : Account) (statuses : ReservationStatus → Bool) : Counter :=
  db.counterOf fun reservation =>
    decide (reservation.account = account) && statuses reservation.status

/-- A total over two groups without a common reservation. -/
theorem Db.counterOf_add {db : Db} {first second both : Reservation → Bool}
    (hboth : ∀ reservation, both reservation = (first reservation || second reservation))
    (hdisjoint : ∀ reservation, ¬ (first reservation = true ∧ second reservation = true)) :
    db.counterOf both = db.counterOf first + db.counterOf second := by
  unfold Db.counterOf
  rw [sum_filter, sum_filter, sum_filter, ← List.sum_map_add]
  congr 1
  apply List.map_congr_left
  intro reservation _
  have hnot := hdisjoint reservation
  rw [hboth]
  cases hfirst : first reservation <;> cases hsecond : second reservation <;> simp_all

/-- A reservation counts for its account, as pending. -/
theorem Reserved.counterIn {before after : Db} {now : Stamp} {admission : Admission}
    (hreserved : Reserved before now admission after) (account : Account)
    (statuses : ReservationStatus → Bool) :
    after.counterIn account statuses = before.counterIn account statuses +
      if admission.account = account ∧ statuses .pending then (admission.amount, 1) else 0 := by
  unfold Db.counterIn
  rw [hreserved.counterOf]
  congr 1
  have haccount : (admission.reservation now hreserved.amount_pos).account = admission.account :=
    rfl
  have hstatus : (admission.reservation now hreserved.amount_pos).status = .pending := rfl
  by_cases hsame : admission.account = account <;> simp [haccount, hstatus, hsame]

/-- Moving a reservation on moves what it counts for from one status to another. -/
theorem Finalized.counterIn {before after : Db} {now : Stamp} {outcome : Outcome}
    {reservation : Reservation} {status : ReservationStatus}
    (hfinalized : Finalized before now outcome reservation status after) (account : Account)
    (statuses : ReservationStatus → Bool) :
    after.counterIn account statuses = before.counterIn account statuses +
      if reservation.account = account then
        (if statuses status then reservation.counter else 0) -
          if statuses reservation.status then reservation.counter else 0
      else 0 := by
  unfold Db.counterIn
  rw [hfinalized.counterOf]
  congr 1
  have haccount : (reservation.withStatus status now).account = reservation.account := rfl
  have hstatus : (reservation.withStatus status now).status = status := rfl
  by_cases hsame : reservation.account = account <;> simp [haccount, hstatus, hsame]

/-! ## Usage within one day -/

/-- The summary row as usage, zero without a row. -/
def Db.rowUsage (db : Db) (account : Account) (now : Stamp) : Usage :=
  (db.summaryUsage account now).getD 0

theorem Db.rowUsage_of_none {db : Db} {account : Account}
    (hnone : db.summaries.find? account = none) (now : Stamp) : db.rowUsage account now = 0 := by
  rw [Db.rowUsage, Db.summaryUsage, hnone]
  rfl

theorem Db.rowUsage_of_some {db : Db} {account : Account} {summary : Summary}
    (hsome : db.summaries.find? account = some summary) (now : Stamp) :
    db.rowUsage account now = summary.usage now := by
  rw [Db.rowUsage, Db.summaryUsage, hsome]
  rfl

/-- Within one day it does not matter when a row is read. -/
theorem Summary.current_of_day {summary : Summary} {period : Period} {first second : Stamp}
    (hday : first.day = second.day) (hcurrent : summary.current period first) :
    summary.current period second := by
  obtain ⟨updated, hupdated, hsame⟩ := hcurrent
  exact ⟨updated, hupdated, hsame.trans (period.same_of_day hday)⟩

/-- A row that has been updated today counts in full. -/
theorem Summary.usage_of_updated {summary : Summary} {updated now : Stamp}
    (hupdated : summary.lastUpdateDate = some updated) (hday : updated.day = now.day)
    (period : Period) : summary.usage now period = summary.counter period :=
  if_pos ⟨updated, hupdated, period.same_of_day hday⟩

/-- What holds of an account all through a day that opened without reservations
of it: they are of that day, counters are not negative, and the summary row
covers the completed ones. -/
structure DayUsage (account : Account) (day : Day) (db : Db) : Prop where
  reserved : ∀ reservation ∈ db.reservations.rows, reservation.account = account →
    reservation.reservedAt.day = day
  counters : ∀ summary ∈ db.summaries.find? account, ∀ period, 0 ≤ summary.counter period
  covered : ∀ now : Stamp, now.day = day → ∀ period,
    db.counterIn account (fun status => status = .completed) ≤ db.rowUsage account now period

namespace DayUsage

variable {account : Account} {day : Day} {before after : Db} {now : Stamp}

theorem pendingUsage (husage : DayUsage account day before) (hday : now.day = day)
    (period : Period) :
    before.pendingUsage account now period =
      before.counterIn account fun status => status = .pending := by
  apply Db.counterOf_congr
  intro reservation hmem
  by_cases haccount : reservation.account = account
  · have hsame : period.Same reservation.reservedAt now :=
      period.same_of_day ((husage.reserved reservation hmem haccount).trans hday.symm)
    simp [haccount, hsame]
  · simp [haccount]

theorem reserve {admission : Admission} (husage : DayUsage account day before)
    (hday : now.day = day) (hreserved : Reserved before now admission after) :
    DayUsage account day after := by
  refine ⟨?_, ?_, ?_⟩
  · intro reservation hmem haccount
    rw [hreserved.rows] at hmem
    rcases List.mem_append.mp hmem with hold | hnew
    · exact husage.reserved reservation hold haccount
    · rw [List.mem_singleton.mp hnew]
      exact hday
  · rw [hreserved.summaries]
    exact husage.counters
  · intro later hlater period
    rw [hreserved.counterIn, Db.rowUsage, Db.summaryUsage, hreserved.summaries]
    simpa [Db.rowUsage, Db.summaryUsage] using husage.covered later hlater period

/-- The reservations after one has been moved on are still of the day. -/
theorem reserved_of_finalized {outcome : Outcome} {reservation : Reservation}
    {status : ReservationStatus} (husage : DayUsage account day before)
    (hfinalized : Finalized before now outcome reservation status after) :
    ∀ other ∈ after.reservations.rows, other.account = account →
      other.reservedAt.day = day := by
  intro other hmem haccount
  rcases hfinalized.mem hmem with rfl | hold
  · exact husage.reserved reservation (Table.find?_eq_some.mp hfinalized.found).1 haccount
  · exact husage.reserved other hold haccount

/-- A row rewritten on the day covers the completed reservations, if its counters
do. -/
theorem of_row {outcome : Outcome} {reservation : Reservation} {status : ReservationStatus}
    {summary : Summary} (husage : DayUsage account day before) (hday : now.day = day)
    (hfinalized : Finalized before now outcome reservation status after)
    (hrow : after.summaries.find? account = some summary)
    (hupdated : summary.lastUpdateDate = some now)
    (hcounter : ∀ period, 0 ≤ summary.counter period ∧
      after.counterIn account (fun status => status = .completed) ≤ summary.counter period) :
    DayUsage account day after := by
  refine ⟨husage.reserved_of_finalized hfinalized, ?_, ?_⟩
  · intro row hsome
    rw [hrow] at hsome
    cases hsome
    exact fun period => (hcounter period).1
  · intro later hlater period
    rw [Db.rowUsage_of_some hrow, Summary.usage_of_updated hupdated (hday.trans hlater.symm)]
    exact (hcounter period).2

/-- A row that was left alone covers the completed reservations, if there are no
more of them. -/
theorem of_same_row {outcome : Outcome} {reservation : Reservation} {status : ReservationStatus}
    (husage : DayUsage account day before)
    (hfinalized : Finalized before now outcome reservation status after)
    (hrow : after.summaries.find? account = before.summaries.find? account)
    (hcompleted : after.counterIn account (fun status => status = .completed) =
      before.counterIn account fun status => status = .completed) :
    DayUsage account day after := by
  refine ⟨husage.reserved_of_finalized hfinalized, ?_, ?_⟩
  · rw [hrow]
    exact husage.counters
  · intro later hlater period
    rw [hcompleted, Db.rowUsage, Db.summaryUsage, hrow]
    exact husage.covered later hlater period

theorem complete {reservation : Reservation} (husage : DayUsage account day before)
    (hday : now.day = day)
    (hfinalized : Finalized before now .completed reservation .completed after)
    (hsource : reservation.status = .pending)
    (hsummaries : after.summaries.find? account = some
      ((before.summaries.find? account).elim (reservation.firstSummary now)
        fun summary => summary.complete reservation now))
    (haccount : reservation.account = account) : DayUsage account day after := by
  have hcompleted := hfinalized.counterIn account fun status => status = .completed
  simp only [haccount, hsource, if_true, decide_true, reduceCtorEq, decide_false,
    Bool.false_eq_true, if_false, sub_zero] at hcompleted
  have hcounter : ∀ period, 0 ≤ before.rowUsage account now period →
      0 ≤ before.rowUsage account now period + reservation.counter ∧
        after.counterIn account (fun status => status = .completed) ≤
          before.rowUsage account now period + reservation.counter := by
    intro period hnonneg
    refine ⟨add_nonneg hnonneg reservation.counter_nonneg, ?_⟩
    rw [hcompleted]
    exact add_le_add_left (husage.covered now hday period) _
  cases hfind : before.summaries.find? account with
  | none =>
    rw [hfind] at hsummaries
    refine husage.of_row hday hfinalized hsummaries rfl fun period => ?_
    have hrow := hcounter period
    rw [Db.rowUsage_of_none hfind] at hrow
    simpa [reservation.firstSummary_counter] using hrow
  | some summary =>
    rw [hfind] at hsummaries
    refine husage.of_row hday hfinalized hsummaries rfl fun period => ?_
    have hrow := hcounter period
    rw [Db.rowUsage_of_some hfind, ← summary.complete_counter] at hrow
    apply hrow
    unfold Summary.usage
    split
    · exact husage.counters summary hfind period
    · exact le_rfl

theorem reverse {reservation : Reservation} {summary : Summary}
    (husage : DayUsage account day before) (hday : now.day = day)
    (hfinalized : Finalized before now .reversed reservation .reversed after)
    (hsource : reservation.status = .completed)
    (hsummary : before.summaries.find? account = some summary)
    (hsummaries : after.summaries.find? account = some (summary.reverse reservation now))
    (haccount : reservation.account = account) : DayUsage account day after := by
  have hcompleted := hfinalized.counterIn account fun status => status = .completed
  simp only [haccount, hsource, if_true, decide_true, reduceCtorEq, decide_false,
    Bool.false_eq_true, if_false, zero_sub, ← sub_eq_add_neg] at hcompleted
  have hreserved : reservation.reservedAt.day = now.day :=
    (husage.reserved reservation (Table.find?_eq_some.mp hfinalized.found).1 haccount).trans
      hday.symm
  refine husage.of_row hday hfinalized hsummaries rfl fun period => ?_
  have hnonneg := husage.counters summary hsummary period
  have hcovered := husage.covered now hday period
  rw [Db.rowUsage_of_some hsummary] at hcovered
  rw [summary.reverse_counter, hcompleted]
  split
  case isTrue hcurrent =>
    refine ⟨le_sup_right, le_trans (sub_le_sub_right ?_ _) le_sup_left⟩
    rwa [Summary.usage, if_pos (Summary.current_of_day hreserved hcurrent)] at hcovered
  case isFalse hstale =>
    refine ⟨hnonneg, le_trans ?_ hnonneg⟩
    rw [Summary.usage, if_neg fun hcurrent =>
      hstale (Summary.current_of_day hreserved.symm hcurrent)] at hcovered
    exact sub_nonpos_of_le (hcovered.trans reservation.counter_nonneg)

theorem finalize {outcome : Outcome} {reservation : Reservation} {status : ReservationStatus}
    (husage : DayUsage account day before) (hday : now.day = day)
    (hfinalized : Finalized before now outcome reservation status after) :
    DayUsage account day after := by
  by_cases haccount : reservation.account = account
  · cases hfinalized.moves with
    | completed hsource hsummaries =>
      have hrow := hsummaries account
      rw [if_pos haccount.symm] at hrow
      exact husage.complete hday hfinalized hsource hrow haccount
    | released hsource hsummaries =>
      apply husage.of_same_row hfinalized (by rw [hsummaries])
      rw [hfinalized.counterIn]
      simp [hsource]
    | reversed hsource hsummary hsummaries =>
      have hrow := hsummaries account
      rw [if_pos haccount.symm] at hrow
      rw [haccount] at hsummary
      exact husage.reverse hday hfinalized hsource hsummary hrow haccount
  · refine husage.of_same_row hfinalized ?_ ?_
    · cases hfinalized.moves with
      | completed _ hsummaries => rw [hsummaries, if_neg (Ne.symm haccount)]
      | released _ hsummaries => rw [hsummaries]
      | reversed _ _ hsummaries => rw [hsummaries, if_neg (Ne.symm haccount)]
    · rw [hfinalized.counterIn, if_neg haccount, add_zero]

/-- One call of the day. -/
theorem step {event : Event} (husage : DayUsage account day before) (hday : event.now.day = day)
    (hstep : before.step event = some after) : DayUsage account day after := by
  cases Db.step_effect hstep with
  | quiet => exact husage
  | reserved _ _ hreserved => exact husage.reserve hday hreserved
  | finalized _ hfinalized => exact husage.finalize hday hfinalized

end DayUsage

/-! ## Limits within one day -/

/-- The active configuration of an account. -/
def Db.limitsOf (db : Db) (account : Account) : Option Limits :=
  (db.walletCode account.1).bind fun walletCode => db.limits walletCode account.2

/-- What is admitted for an account without a summary row would be admitted with a
row of zeros as well. -/
def Event.Counted (event : Event) (account : Account) (db : Db) : Prop :=
  ∀ call admission, event.call = .reserve call → db.admission event.now call = .ok admission →
    admission.account = account → db.summaries.find? account = none →
      ∀ limits ∈ db.limitsOf account,
        limits.exceeded? (some (db.pendingUsage account event.now + fun _ =>
          (admission.amount, 1))) = none

theorem Admitted.limitsOf {db : Db} {now : Stamp} {admission : Admission}
    (hadmitted : Admitted db now admission) :
    ∃ limits, db.limitsOf admission.account = some limits ∧
      limits.exceeded? (db.usedWith admission.account now admission.amount) = none := by
  obtain ⟨limits, hlimits, hwithin⟩ := hadmitted.limits
  exact ⟨limits, Option.bind_eq_some_iff.mpr ⟨_, hadmitted.walletCode, hlimits⟩, hwithin⟩

/-- A wallet that may pay 100.00 a day. -/
def openingDb : Db where
  reservations := .empty
  summaries := .empty
  walletCode := fun wallet => if wallet = 17 then some 1 else none
  limits := fun walletCode keyword =>
    if walletCode = 1 ∧ keyword = "PAY" then some
      { maxTxnAmount := 60, dailyMaxAmount := 100, dailyTransactionCount := 5
        monthlyMaxAmount := 1000, monthlyTransactionCount := 50
        positive := by norm_num
        amounts_ordered := by norm_num
        counts_ordered := by norm_num }
    else none

/-- The wallet reserves an amount, on one day. -/
def payment (transactionId : ℤ) (amount : ℚ) (time : ℤ) : Event where
  now := Stamp.of 2026 1 5 time
  call := .reserve
    { transactionId := some transactionId, walletMsisdn := some 17, keyword := some "PAY"
      amount := some (amount : Numeric) }

/-- A payment is reserved and completed. -/
theorem reservations_move_on_payment :
    ∃ db later : Db, later.reservations.rows.map (·.status) = [.completed] ∧
      ∀ reservation ∈ db.reservations.rows, later.Continues reservation := by
  have hany : (openingDb.step (payment 1 60 9)).any fun db =>
      (db.step ⟨Stamp.of 2026 1 5 10, .finalize (some 1) .completed⟩).any fun later =>
        later.reservations.rows.map (·.status) = [.completed] := by
    decide +kernel
  obtain ⟨db, _, hdb⟩ := (Option.any_eq_true _ _).mp hany
  obtain ⟨later, hstep, hcompleted⟩ := (Option.any_eq_true _ _).mp hdb
  exact ⟨db, later, of_decide_eq_true hcompleted, reservations_move_on (.tail .refl _ hstep)⟩

end Finify.Aml
