/-
# What the summary rows show

Over days and months, with a clock that does not run back.  A summary row shows,
for the day and the month of its last update, what was completed then and has not
been reversed since.  Completions keep this.  A reversal keeps it under a
condition on dates: it takes back by the time of the reservation where the row
was filled by the time of completion, and it moves the row to a new period
without starting its counters over.
-/

import Finify.Aml.DayLimits

namespace Finify.Aml

open Finify.Foundations Finify.Posting

/-- The tables and the time of the last call. -/
structure Timed where
  db : Db
  clock : Stamp

/-- A call at a time that is not before the last. -/
def Timed.step (state : Timed) (event : Event) : Option Timed :=
  if state.clock ≤ event.now then
    (state.db.step event).map fun after => { db := after, clock := event.now }
  else none

theorem Timed.step_eq_some {before after : Timed} {event : Event}
    (hstep : before.step event = some after) :
    before.clock ≤ event.now ∧ after.clock = event.now ∧
      before.db.step event = some after.db := by
  unfold Timed.step at hstep
  split at hstep
  case isFalse => cases hstep
  case isTrue hclock =>
    obtain ⟨db, hdb, rfl⟩ := Option.map_eq_some_iff.mp hstep
    exact ⟨hclock, rfl, hdb⟩

/-! ## What a row shows -/

/-- The columns of a period have these values. -/
def Summary.Shows (summary : Summary) (counter : Counter) : Period → Prop
  | .daily => summary.dailyAmount = some counter.1 ∧ summary.dailyTransaction = some counter.2
  | .monthly =>
    summary.monthlyAmount = some counter.1 ∧ summary.monthlyTransaction = some counter.2

/-- A row that a call has written has no null column. -/
inductive Summary.Written (reservation : Reservation) (now : Stamp) : Summary → Prop
  | first : Written reservation now (reservation.firstSummary now)
  | completed (summary : Summary) : Written reservation now (summary.complete reservation now)
  | reversed (summary : Summary) : Written reservation now (summary.reverse reservation now)

theorem Summary.Written.shows_iff {reservation : Reservation} {now : Stamp} {summary : Summary}
    (hwritten : Written reservation now summary) (counter : Counter) (period : Period) :
    summary.Shows counter period ↔ summary.counter period = counter := by
  cases hwritten <;> cases period <;>
    simp [Summary.Shows, Summary.counter, Reservation.firstSummary, Summary.complete,
      Summary.reverse, Prod.ext_iff]

theorem Summary.Written.lastUpdateDate {reservation : Reservation} {now : Stamp}
    {summary : Summary} (hwritten : Written reservation now summary) :
    summary.lastUpdateDate = some now := by
  cases hwritten <;> rfl

theorem Summary.Shows.counter {summary : Summary} {counter : Counter} {period : Period}
    (hshows : summary.Shows counter period) : summary.counter period = counter := by
  cases period <;>
    exact Prod.ext (by simp [Summary.counter, hshows.1]) (by simp [Summary.counter, hshows.2])

def Reservation.CompletedIn (reservation : Reservation) (account : Account) (period : Period)
    (time : Stamp) : Prop :=
  reservation.account = account ∧ reservation.status = .completed ∧
    ∃ completedAt ∈ reservation.finalizedAt, period.Same completedAt time

instance (reservation : Reservation) (account : Account) (period : Period) (time : Stamp) :
    Decidable (reservation.CompletedIn account period time) :=
  decidable_of_iff
    (reservation.account = account ∧ reservation.status = .completed ∧
      reservation.finalizedAt.any fun completedAt => period.Same completedAt time) (by
    cases h : reservation.finalizedAt <;> simp [Reservation.CompletedIn, h])

def Db.completedIn (db : Db) (account : Account) (period : Period) (time : Stamp) : Counter :=
  db.counterOf fun reservation => reservation.CompletedIn account period time

/-- The summary row of an account shows what was completed in the periods of its
last update. -/
def Db.ExactFor (db : Db) (account : Account) : Prop :=
  ∀ summary ∈ db.summaries.find? account, ∀ updated ∈ summary.lastUpdateDate,
    ∀ period, summary.Shows (db.completedIn account period updated) period

/-- Every summary row does. -/
def Db.Exact (db : Db) : Prop :=
  ∀ account, db.ExactFor account

/-- Totals are zero when nothing counts. -/
theorem Db.counterOf_eq_zero {db : Db} {select : Reservation → Bool} :
    db.counterOf select = 0 ↔ ∀ reservation ∈ db.reservations.rows, select reservation = false := by
  have hcount : (db.counterOf select).2 =
      ((db.reservations.rows.filter select).length : ℤ) := by
    unfold Db.counterOf
    induction db.reservations.rows.filter select with
    | nil => rfl
    | cons reservation rows ih =>
      rw [List.map_cons, List.sum_cons, Prod.snd_add, ih, List.length_cons, Nat.cast_succ,
        add_comm]
      rfl
  constructor
  · intro hzero
    rw [hzero, Prod.snd_zero] at hcount
    have hnil := List.eq_nil_of_length_eq_zero (Int.natCast_eq_zero.mp hcount.symm)
    simpa [List.filter_eq_nil_iff] using hnil
  · intro hnone
    unfold Db.counterOf
    rw [List.filter_eq_nil_iff.mpr fun reservation hmem => by simp [hnone reservation hmem]]
    rfl

/-- The dates on reservations and summary rows are in order: reserved, completed,
last update of the row, now. -/
structure Timed.Dated (state : Timed) : Prop where
  reserved : ∀ reservation ∈ state.db.reservations.rows, reservation.reservedAt ≤ state.clock
  completed : ∀ reservation ∈ state.db.reservations.rows, reservation.status = .completed →
    ∃ completedAt ∈ reservation.finalizedAt, reservation.reservedAt ≤ completedAt ∧
      ∃ summary ∈ state.db.summaries.find? reservation.account,
        ∃ updated ∈ summary.lastUpdateDate, completedAt ≤ updated
  updated : ∀ account, ∀ summary ∈ state.db.summaries.find? account,
    ∃ updated ∈ summary.lastUpdateDate, updated ≤ state.clock

/-- Moving a reservation on writes the row of its account or leaves it alone, and
leaves the others alone. -/
theorem Finalized.row {before after : Db} {now : Stamp} {outcome : Outcome}
    {reservation : Reservation} {status : ReservationStatus}
    (hfinalized : Finalized before now outcome reservation status after) (account : Account) :
    after.summaries.find? account = before.summaries.find? account ∨
      account = reservation.account ∧ ∃ summary, Summary.Written reservation now summary ∧
        after.summaries.find? account = some summary := by
  by_cases haccount : account = reservation.account
  case neg =>
    left
    cases hfinalized.moves with
    | completed _ hsummaries => rw [hsummaries, if_neg haccount]
    | released _ hsummaries => rw [hsummaries]
    | reversed _ _ hsummaries => rw [hsummaries, if_neg haccount]
  cases hfinalized.moves with
  | completed _ hsummaries =>
    right
    refine ⟨haccount, _, ?_, (hsummaries account).trans (if_pos haccount)⟩
    cases before.summaries.find? account with
    | none => exact .first
    | some summary => exact .completed summary
  | released _ hsummaries =>
    left
    rw [hsummaries]
  | reversed _ _ hsummaries =>
    exact .inr ⟨haccount, _, .reversed _, (hsummaries account).trans (if_pos haccount)⟩

namespace Timed.Dated

variable {before after : Timed} {event : Event}

theorem row_date {outcome : Outcome} {reservation : Reservation} {status : ReservationStatus}
    (hdated : before.Dated) (hclock : before.clock ≤ event.now)
    (hfinalized : Finalized before.db event.now outcome reservation status after.db)
    {account : Account} {summary : Summary}
    (hrow : before.db.summaries.find? account = some summary) :
    ∃ later, after.db.summaries.find? account = some later ∧
      ∀ time, (∃ updated ∈ summary.lastUpdateDate, time ≤ updated) →
        ∃ updated ∈ later.lastUpdateDate, time ≤ updated := by
  rcases hfinalized.row account with hsame | ⟨_, later, hwritten, hlater⟩
  · exact ⟨summary, hsame.trans hrow, fun _ => id⟩
  · refine ⟨later, hlater, fun time ⟨updated, hupdated, htime⟩ => ?_⟩
    obtain ⟨latest, hlatest, hle⟩ := hdated.updated account summary hrow
    obtain rfl := Option.some.inj (hupdated.symm.trans hlatest)
    exact ⟨event.now, hwritten.lastUpdateDate, htime.trans (hle.trans hclock)⟩

theorem reserve {admission : Admission} (hdated : before.Dated)
    (hclock : before.clock ≤ event.now) (hafter : after.clock = event.now)
    (hreserved : Reserved before.db event.now admission after.db) : after.Dated := by
  refine ⟨?_, ?_, ?_⟩
  · intro reservation hmem
    rw [hreserved.rows] at hmem
    rw [hafter]
    rcases List.mem_append.mp hmem with hold | hnew
    · exact (hdated.reserved reservation hold).trans hclock
    · rw [List.mem_singleton.mp hnew]
      exact le_rfl
  · intro reservation hmem hstatus
    rw [hreserved.rows] at hmem
    rw [hreserved.summaries]
    rcases List.mem_append.mp hmem with hold | hnew
    · exact hdated.completed reservation hold hstatus
    · rw [List.mem_singleton.mp hnew] at hstatus
      cases hstatus
  · intro account summary hrow
    rw [hreserved.summaries] at hrow
    obtain ⟨updated, hupdated, hle⟩ := hdated.updated account summary hrow
    exact ⟨updated, hupdated, hafter ▸ hle.trans hclock⟩

theorem completed_row {outcome : Outcome} {reservation : Reservation}
    {status : ReservationStatus} (hstatus : status = .completed)
    (hfinalized : Finalized before.db event.now outcome reservation status after.db) :
    ∃ summary ∈ after.db.summaries.find? reservation.account,
      summary.lastUpdateDate = some event.now := by
  cases hfinalized.moves with
  | completed _ hsummaries =>
    refine ⟨_, (hsummaries reservation.account).trans (if_pos rfl), ?_⟩
    cases before.db.summaries.find? reservation.account <;> rfl
  | released => cases hstatus
  | reversed => cases hstatus

theorem finalize {outcome : Outcome} {reservation : Reservation} {status : ReservationStatus}
    (hdated : before.Dated) (hclock : before.clock ≤ event.now) (hafter : after.clock = event.now)
    (hfinalized : Finalized before.db event.now outcome reservation status after.db) :
    after.Dated := by
  have hmem := (Table.find?_eq_some.mp hfinalized.found).1
  refine ⟨?_, ?_, ?_⟩
  · intro other hother
    rw [hafter]
    rcases hfinalized.mem hother with rfl | hold
    · exact (hdated.reserved reservation hmem).trans hclock
    · exact (hdated.reserved other hold).trans hclock
  · intro other hother hstatus
    rcases hfinalized.mem hother with rfl | hold
    · obtain ⟨summary, hrow, hupdated⟩ := completed_row hstatus hfinalized
      exact ⟨event.now, rfl, (hdated.reserved reservation hmem).trans hclock, summary, hrow,
        event.now, hupdated, le_rfl⟩
    · obtain ⟨completedAt, hcompletedAt, hle, summary, hrow, hupdated⟩ :=
        hdated.completed other hold hstatus
      obtain ⟨later, hlater, hdate⟩ := hdated.row_date hclock hfinalized hrow
      exact ⟨completedAt, hcompletedAt, hle, later, hlater, hdate completedAt hupdated⟩
  · intro account summary hrow
    rw [hafter]
    rcases hfinalized.row account with hsame | ⟨_, later, hwritten, hlater⟩
    · obtain ⟨updated, hupdated, hle⟩ := hdated.updated account summary (hsame ▸ hrow)
      exact ⟨updated, hupdated, hle.trans hclock⟩
    · obtain rfl := Option.some.inj (hlater.symm.trans hrow)
      exact ⟨event.now, hwritten.lastUpdateDate, le_rfl⟩

/-- Time passes. -/
theorem later {db : Db} {clock now : Stamp} (hdated : Dated ⟨db, clock⟩) (hclock : clock ≤ now) :
    Dated ⟨db, now⟩ := by
  refine ⟨?_, hdated.completed, ?_⟩
  · exact fun reservation hmem => (hdated.reserved reservation hmem).trans hclock
  · intro account summary hrow
    obtain ⟨updated, hupdated, hle⟩ := hdated.updated account summary hrow
    exact ⟨updated, hupdated, hle.trans hclock⟩

/-- One call. -/
theorem step (hdated : before.Dated) (hstep : before.step event = some after) : after.Dated := by
  obtain ⟨hclock, hafter, heffect⟩ := Timed.step_eq_some hstep
  obtain ⟨db, clock⟩ := after
  cases Db.step_effect heffect with
  | quiet =>
    cases hafter
    exact hdated.later hclock
  | reserved _ _ hreserved => exact hdated.reserve hclock hafter hreserved
  | finalized _ hfinalized => exact hdated.finalize hclock hafter hfinalized

end Timed.Dated

/-! ## Exactness of one step -/

theorem Reserved.completedIn {before after : Db} {now : Stamp} {admission : Admission}
    (hreserved : Reserved before now admission after) (account : Account) (period : Period)
    (time : Stamp) :
    after.completedIn account period time = before.completedIn account period time := by
  unfold Db.completedIn
  rw [hreserved.counterOf, if_neg, add_zero]
  rw [decide_eq_true_eq]
  rintro ⟨_, hstatus, _⟩
  cases hstatus

/-- What was completed changes by the reservation that is moved on. -/
theorem Finalized.completedIn {before after : Db} {now : Stamp} {outcome : Outcome}
    {reservation : Reservation} {status : ReservationStatus}
    (hfinalized : Finalized before now outcome reservation status after) (account : Account)
    (period : Period) (time : Stamp) :
    after.completedIn account period time = before.completedIn account period time +
      ((if (reservation.withStatus status now).CompletedIn account period time
          then reservation.counter else 0) -
        if reservation.CompletedIn account period time then reservation.counter else 0) := by
  unfold Db.completedIn
  rw [hfinalized.counterOf]
  simp only [decide_eq_true_eq]

namespace Db.ExactFor

variable {before after : Db} {account : Account}

/-- Nothing changes for an account whose row and completions stay. -/
theorem of_same (hexact : before.ExactFor account)
    (hrow : after.summaries.find? account = before.summaries.find? account)
    (hcompleted : ∀ period time,
      after.completedIn account period time = before.completedIn account period time) :
    after.ExactFor account := by
  intro summary hsummary updated hupdated period
  rw [hcompleted]
  exact hexact summary (hrow ▸ hsummary) updated hupdated period

/-- A row just written is exact when its counters are. -/
theorem of_written {reservation : Reservation} {now : Stamp} {summary : Summary}
    (hwritten : Summary.Written reservation now summary)
    (hrow : after.summaries.find? account = some summary) :
    after.ExactFor account ↔
      ∀ period, summary.counter period = after.completedIn account period now := by
  constructor
  · intro hexact period
    exact (hexact summary hrow now hwritten.lastUpdateDate period).counter
  · intro hcounter later hlater updated hupdated period
    obtain rfl := Option.some.inj (hrow.symm.trans hlater)
    obtain rfl := Option.some.inj (hwritten.lastUpdateDate.symm.trans hupdated)
    exact (hwritten.shows_iff _ _).mpr (hcounter period)

end Db.ExactFor

end Finify.Aml
