/-
# Reservations and finalisations in between

`sw_proc_aml_reserve` as the statements it is made of.  It holds the advisory lock of its
account, so that two of its calls for one account exclude each other, and reads the summary row
and the pending reservations in two statements, each of which sees what is committed by then.
`sw_proc_aml_finalize` takes no advisory lock.  It locks its reservation and the summary row
before it writes them, so that what it does takes effect when it commits; its time is that of
its start, so that times need not be in the order of the commits.
-/

import Finify.Aml.SummaryExactness

namespace Finify.Aml

open Finify.Foundations Finify.Posting

/-! ## The statements -/

/-- What a reservation knows before it reads any usage. -/
structure Check where
  transactionId : ℤ
  walletMsisdn : ℤ
  walletCode : ℤ
  keyword : String
  amount : ℤ
  limits : Limits

def Check.account (check : Check) : Account := (check.walletMsisdn, check.keyword)

def refusal (transactionId : Option ℤ) (code : ReserveCode) (message : String)
    (walletCode : Option ℤ) (used : Option Usage) : ReserveResult :=
  { success := false, statusCode := code, statusMessage := message,
    transactionId := transactionId, walletCode := walletCode, used := used }

/-- The statements up to the summary row. -/
def Db.prepare (db : Db) (call : ReserveCall) : Except ReserveResult Check :=
  match call.transactionId, call.walletMsisdn, call.keyword with
  | some transactionId, some wallet, some keyword =>
    match call.amount with
    | none =>
      .error (refusal (some transactionId) .invalidAmount
        "Transaction amount must be greater than zero" none (some 0))
    | some amount =>
      if amount ≤ 0 then
        .error (refusal (some transactionId) .invalidAmount
          "Transaction amount must be greater than zero" none (some 0))
      else
        match db.reservations.find? transactionId with
        | some existing => .error (existingResult existing wallet keyword amount)
        | none =>
          match db.walletCode wallet with
          | none =>
            .error (refusal (some transactionId) .sourceWalletNotFound
              "Source wallet was not found" none (some 0))
          | some walletCode =>
            match db.limits walletCode keyword with
            | none =>
              .error (refusal (some transactionId) .amlConfigurationNotFound
                "No active AML configuration exists for the source wallet and keyword"
                (some walletCode) (some 0))
            | some limits =>
              match limits.single? amount with
              | none =>
                .error (refusal (some transactionId) .amlMaxTransactionExceeded
                  "Maximum transaction amount exceeded" (some walletCode) (some 0))
              | some amount =>
                .ok
                  { transactionId := transactionId
                    walletMsisdn := wallet
                    walletCode := walletCode
                    keyword := keyword
                    amount := roundHalfAway (amount * 100)
                    limits := limits }
  | _, _, _ =>
    .error (refusal call.transactionId .invalidRequest
      "Transaction, source wallet, and keyword are required" none (some 0))

/-- The sums of the summary row as it was read, what is pending now, and the new amount. -/
def Check.used (check : Check) (db : Db) (now : Stamp) (summary : Option Usage) : Option Usage :=
  summary.map fun summary =>
    summary + db.pendingUsage check.account now + fun _ => (check.amount, 1)

/-- The comparison of the sums with the limits. -/
def Check.decide (check : Check) (used : Option Usage) : Except ReserveResult Admission :=
  match check.limits.exceeded? used with
  | some (code, message) =>
    .error (refusal (some check.transactionId) code message (some check.walletCode) used)
  | none =>
    .ok
      { transactionId := check.transactionId
        walletMsisdn := check.walletMsisdn
        walletCode := check.walletCode
        keyword := check.keyword
        amount := check.amount
        used := used }

/-! ## Interleavings -/

/-- How far a reservation has come: before or after it has read the summary row. -/
inductive Reading
  | prepared
  | summary (usage : Option Usage)

/-- The summary row was read. -/
def Reading.done : Reading → Bool
  | prepared => false
  | summary _ => true

def Reading.missing : Reading → Bool
  | summary none => true
  | _ => false

/-- A reservation under way, with the time of its start. -/
structure Reserving where
  check : Check
  now : Stamp
  reading : Reading := .prepared

/-- The sums that a reservation has compared, and what then was live of those reserved in the
periods of its time. -/
structure Comparison where
  account : Account
  amount : ℤ
  used : Option Usage
  live : Usage

/-- The tables, by account the reservation that holds its lock, and the comparisons made. -/
structure Shared where
  db : Db
  reserving : Account → Option Reserving := fun _ => none
  comparisons : List Comparison := []

/-- What is live of an account among the reservations of the periods of a time. -/
def Db.liveIn (db : Db) (account : Account) (now : Stamp) : Usage := fun period =>
  db.counterOf fun reservation =>
    reservation.account = account ∧ reservation.status.live ∧ period.Same reservation.reservedAt now

/-- The statements of reservations, the end of one, and finalisations that commit. -/
inductive Statement
  | begin (now : Stamp) (call : ReserveCall)
  | readSummary (account : Account)
  | compare (account : Account)
  | rollback (account : Account)
  | finalize (now : Stamp) (transactionId : Option ℤ) (outcome : Outcome)

namespace Shared

variable (state : Shared)

/-- Let the reservation of an account go on, or end. -/
def setReserving (account : Account) (reserving : Option Reserving) : Shared :=
  { state with reserving := Function.update state.reserving account reserving }

/-- The statements before usage is read; a call that is refused ends. -/
def begin (now : Stamp) (call : ReserveCall) : Option Shared :=
  match state.db.prepare call with
  | .error _ => some state
  | .ok check =>
    if (state.reserving check.account).isSome then none
    else some (state.setReserving check.account (some { check := check, now := now }))

def readSummary (account : Account) : Option Shared :=
  match state.reserving account with
  | some { check := check, now := now, reading := .prepared } =>
    some (state.setReserving account (some
      { check := check, now := now,
        reading := .summary (state.db.summaryUsage check.account now) }))
  | _ => none

/-- The statement that reads what is pending, the comparison, and the insert. -/
def compare (account : Account) : Option Shared :=
  match state.reserving account with
  | some { check := check, now := now, reading := .summary summary } =>
    let used := check.used state.db now summary
    let compared : Shared :=
      { state.setReserving account none with
        comparisons := state.comparisons ++
          [{ account := check.account
             amount := check.amount
             used := used
             live := state.db.liveIn check.account now }] }
    match check.decide used with
    | .error _ => some compared
    | .ok admission =>
      some ((state.db.insertReservation now admission).elim compared fun db =>
        { compared with db := db })
  | _ => none

theorem setReserving_reserving (account : Account) (reserving : Option Reserving)
    (other : Account) : (state.setReserving account reserving).reserving other =
      if other = account then reserving else state.reserving other := by
  simp [setReserving, Function.update_apply]

end Shared

def Shared.step (state : Shared) : Statement → Option Shared
  | .begin now call => state.begin now call
  | .readSummary account => state.readSummary account
  | .compare account => state.compare account
  | .rollback account => some (state.setReserving account none)
  | .finalize now transactionId outcome =>
    some { state with db := (state.db.amlFinalize now transactionId outcome).2 }

/-! ## The guard and the law -/

/-- A finalisation with this outcome rewrites the summary row. -/
def Reservation.rewrites (reservation : Reservation) : Outcome → Bool
  | .completed => reservation.status = .pending
  | .reversed => reservation.status = .completed
  | _ => false

/-- The days of finalisations that rewrite a summary row do not run back, and none completes a
reservation of the month between the two readings of a reservation; a reservation reads no
summary row of a later day, and compares without one only if nothing of the month is live. -/
def Shared.Guarded (state : Shared) : Statement → Prop
  | .finalize now transactionId outcome =>
    ∀ reservation ∈ transactionId.bind state.db.reservations.find?,
      reservation.rewrites outcome →
        (reservation.reservedAt.day ≤ now.day ∧
          ∀ summary ∈ state.db.summaries.find? reservation.account,
            ∀ updated ∈ summary.lastUpdateDate, updated.day ≤ now.day) ∧
        (outcome = .completed → ∀ reserving ∈ state.reserving reservation.account,
          reserving.reading.done → ¬ Period.monthly.Same reservation.reservedAt reserving.now)
  | .readSummary account =>
    ∀ reserving ∈ state.reserving account, ∀ summary ∈ state.db.summaries.find? account,
      ∀ updated ∈ summary.lastUpdateDate, updated.day ≤ reserving.now.day
  | .compare account =>
    ∀ reserving ∈ state.reserving account, reserving.reading.missing →
      state.db.liveIn account reserving.now .monthly = 0
  | _ => True

instance (state : Shared) : (statement : Statement) → Decidable (state.Guarded statement)
  | .finalize _ _ _ =>
    inferInstanceAs (Decidable (∀ reservation ∈ (_ : Option Reservation), _))
  | .readSummary _ => inferInstanceAs (Decidable (∀ reserving ∈ (_ : Option Reserving), _))
  | .compare _ => inferInstanceAs (Decidable (∀ reserving ∈ (_ : Option Reserving), _))
  | .begin _ _ => .isTrue trivial
  | .rollback _ => .isTrue trivial

/-- All that is live at a comparison, of the reservations of the day or the month, is within the
sums that are compared.  What is pending or completed throughout the call is live then. -/
def Shared.Counted (state : Shared) : Prop :=
  ∀ comparison ∈ state.comparisons, ∀ period, comparison.live period ≠ 0 →
    ∃ used ∈ comparison.used, comparison.live period + (comparison.amount, 1) ≤ used period

/-- Tables without reservations, and no reservation under way. -/
structure Shared.Opening (state : Shared) : Prop where
  unreserved : state.db.reservations.rows = []
  counters : ∀ account, ∀ summary ∈ state.db.summaries.find? account, ∀ period,
    0 ≤ summary.counter period
  reserving : ∀ account, state.reserving account = none
  comparisons : state.comparisons = []

/-! ## What summary rows cover -/

/-- What is completed of an account among the reservations of the periods of a time. -/
def Db.completedFrom (db : Db) (account : Account) (now : Stamp) : Usage := fun period =>
  db.counterOf fun reservation =>
    reservation.account = account ∧ reservation.status = .completed ∧
      period.Same reservation.reservedAt now

/-- A summary row covers the completed reservations that were made in the period of its last
update, and is not older than any completed reservation. -/
structure Covers (db : Db) : Prop where
  counters : ∀ account, ∀ summary ∈ db.summaries.find? account, ∀ period,
    0 ≤ summary.counter period
  rows : ∀ reservation ∈ db.reservations.rows, reservation.status = .completed →
    ∃ summary ∈ db.summaries.find? reservation.account,
      ∃ updated ∈ summary.lastUpdateDate, reservation.reservedAt.day ≤ updated.day
  covered : ∀ account, ∀ summary ∈ db.summaries.find? account,
    ∀ updated ∈ summary.lastUpdateDate, ∀ period,
      db.completedFrom account updated period ≤ summary.counter period

section

variable {before after db : Db} {account : Account} {now : Stamp}

theorem Db.completedFrom_eq_zero {period : Period}
    (hnone : ∀ reservation ∈ db.reservations.rows, reservation.account = account →
      reservation.status = .completed → ¬ period.Same reservation.reservedAt now) :
    db.completedFrom account now period = 0 := by
  apply Db.counterOf_eq_zero.mpr
  intro reservation hmem
  apply decide_eq_false
  intro ⟨haccount, hstatus, hsame⟩
  exact hnone reservation hmem haccount hstatus hsame

theorem Db.completedFrom_same {period : Period} {first second : Stamp}
    (hsame : period.Same first second) :
    db.completedFrom account first period = db.completedFrom account second period := by
  apply Db.counterOf_congr
  intro reservation _
  apply decide_eq_decide.mpr
  constructor
  · intro ⟨haccount, hstatus, hfirst⟩
    exact ⟨haccount, hstatus, hfirst.trans hsame⟩
  · intro ⟨haccount, hstatus, hsecond⟩
    exact ⟨haccount, hstatus, hsecond.trans hsame.symm⟩

/-- What a row of no later day shows covers the completed reservations of the period. -/
theorem Covers.le_rowUsage (hcovers : Covers db)
    (hdays : ∀ summary ∈ db.summaries.find? account, ∀ updated ∈ summary.lastUpdateDate,
      updated.day ≤ now.day) (period : Period) :
    db.completedFrom account now period ≤ db.rowUsage account now period := by
  cases hfind : db.summaries.find? account with
  | none =>
    rw [Db.rowUsage_of_none hfind]
    apply le_of_eq
    apply Db.completedFrom_eq_zero
    intro reservation hmem haccount hstatus _
    obtain ⟨summary, hsummary, _⟩ := hcovers.rows reservation hmem hstatus
    rw [haccount, hfind] at hsummary
    cases hsummary
  | some summary =>
    rw [Db.rowUsage_of_some hfind, Summary.usage]
    by_cases hcurrent : summary.current period now
    · rw [if_pos hcurrent]
      obtain ⟨updated, hupdated, hsame⟩ := hcurrent
      rw [← Db.completedFrom_same hsame]
      exact hcovers.covered account summary hfind updated hupdated period
    · rw [if_neg hcurrent]
      apply le_of_eq
      apply Db.completedFrom_eq_zero
      intro reservation hmem haccount hstatus hsame
      obtain ⟨row, hrow, updated, hupdated, hday⟩ := hcovers.rows reservation hmem hstatus
      rw [haccount, hfind] at hrow
      cases hrow
      have hbefore := hdays summary hfind updated hupdated
      exact hcurrent ⟨updated, hupdated, hsame.of_days_between hday hbefore⟩

theorem Db.insertReservation_rows {admission : Admission}
    (hinsert : before.insertReservation now admission = some after) :
    ∃ reservation, reservation.status = .pending ∧
      after.reservations.rows = before.reservations.rows ++ [reservation] ∧
        after.summaries = before.summaries := by
  unfold Db.insertReservation at hinsert
  split at hinsert
  case isFalse => cases hinsert
  case isTrue hpos =>
    obtain ⟨reservations, hrows, rfl⟩ := Option.map_eq_some_iff.mp hinsert
    exact ⟨_, rfl, (Table.insert?_eq_some hrows).2, rfl⟩

/-- A pending reservation is not among the completed ones. -/
theorem completedFrom_of_rows {reservation : Reservation} (hpending : reservation.status = .pending)
    (hrows : after.reservations.rows = before.reservations.rows ++ [reservation])
    (account : Account) (time : Stamp) :
    after.completedFrom account time = before.completedFrom account time := by
  funext period
  unfold Db.completedFrom Db.counterOf
  rw [hrows, List.filter_append, List.filter_cons_of_neg (by simp [hpending]), List.filter_nil,
    List.append_nil]

/-- What finalising a reservation changes of what is completed. -/
theorem Finalized.completedFrom {outcome : Outcome} {reservation : Reservation}
    {status : ReservationStatus} (hfinalized : Finalized before now outcome reservation status after)
    (account : Account) (time : Stamp) (period : Period) :
    after.completedFrom account time period = before.completedFrom account time period +
      if reservation.account = account ∧ period.Same reservation.reservedAt time then
        (if status = .completed then reservation.counter else 0) -
          if reservation.status = .completed then reservation.counter else 0
      else 0 := by
  apply (hfinalized.counterOf _).trans
  congr 1
  by_cases hcounts : reservation.account = account ∧ period.Same reservation.reservedAt time
  · have hmoved : (reservation.withStatus status now).account = account ∧
        period.Same (reservation.withStatus status now).reservedAt time := hcounts
    simp only [decide_eq_true_eq, hcounts, hmoved, and_true, true_and, if_true]
    rfl
  · rw [if_neg hcounts, if_neg, if_neg, sub_zero]
    · intro hselect
      obtain ⟨haccount, _, hsame⟩ := of_decide_eq_true hselect
      exact hcounts ⟨haccount, hsame⟩
    · intro hselect
      obtain ⟨haccount, _, hsame⟩ := of_decide_eq_true hselect
      exact hcounts ⟨haccount, hsame⟩

theorem Covers.insert {admission : Admission} (hcovers : Covers before)
    (hinsert : before.insertReservation now admission = some after) : Covers after := by
  obtain ⟨new, hpending, hrows, hsummaries⟩ := Db.insertReservation_rows hinsert
  constructor
  · rw [hsummaries]
    exact hcovers.counters
  · intro reservation hmem hstatus
    rw [hrows] at hmem
    rw [hsummaries]
    rcases List.mem_append.mp hmem with hold | hnew
    · exact hcovers.rows reservation hold hstatus
    · rw [List.mem_singleton.mp hnew, hpending] at hstatus
      cases hstatus
  · intro other summary hsummary updated hupdated period
    rw [completedFrom_of_rows hpending hrows]
    rw [hsummaries] at hsummary
    exact hcovers.covered other summary hsummary updated hupdated period

/-- A row written at a time covers the completed reservations, if none was made on a later day. -/
theorem Covers.of_row {outcome : Outcome} {reservation : Reservation}
    {status : ReservationStatus} (summary : Summary) (hcovers : Covers before)
    (hfinalized : Finalized before now outcome reservation status after)
    (hsummaries : ∀ account, after.summaries.find? account =
      if account = reservation.account then some summary else before.summaries.find? account)
    (hupdated : summary.lastUpdateDate = some now) (hday : reservation.reservedAt.day ≤ now.day)
    (hdays : ∀ row ∈ before.summaries.find? reservation.account,
      ∀ updated ∈ row.lastUpdateDate, updated.day ≤ now.day)
    (hcounter : ∀ period, 0 ≤ summary.counter period ∧
      after.completedFrom reservation.account now period ≤ summary.counter period) :
    Covers after := by
  have hother : ∀ account, account ≠ reservation.account → ∀ time,
      after.completedFrom account time = before.completedFrom account time := by
    intro account hne time
    funext period
    rw [hfinalized.completedFrom, if_neg fun h => hne h.1.symm, add_zero]
  constructor
  · intro account row hrow period
    rw [hsummaries] at hrow
    split at hrow
    · cases hrow
      exact (hcounter period).1
    · exact hcovers.counters account row hrow period
  · intro other hmem hstatus
    rw [hsummaries]
    by_cases haccount : other.account = reservation.account
    · rw [if_pos haccount]
      refine ⟨summary, rfl, now, hupdated, ?_⟩
      rcases hfinalized.mem hmem with rfl | hold
      · exact hday
      · obtain ⟨row, hrow, updated, hlast, hbefore⟩ := hcovers.rows other hold hstatus
        exact hbefore.trans (hdays row (haccount ▸ hrow) updated hlast)
    · rw [if_neg haccount]
      rcases hfinalized.mem hmem with rfl | hold
      · exact absurd rfl haccount
      · exact hcovers.rows other hold hstatus
  · intro account row hrow updated hlast period
    rw [hsummaries] at hrow
    split at hrow
    case isTrue haccount =>
      cases hrow
      cases hupdated.symm.trans hlast
      rw [haccount]
      exact (hcounter period).2
    case isFalse hne =>
      rw [hother account hne]
      exact hcovers.covered account row hrow updated hlast period

/-- A finalisation of no earlier day keeps what the rows cover. -/
theorem Covers.finalize {outcome : Outcome} {reservation : Reservation}
    {status : ReservationStatus} (hcovers : Covers before)
    (hfinalized : Finalized before now outcome reservation status after)
    (hdays : reservation.rewrites outcome → reservation.reservedAt.day ≤ now.day ∧
      ∀ row ∈ before.summaries.find? reservation.account,
        ∀ updated ∈ row.lastUpdateDate, updated.day ≤ now.day) : Covers after := by
  have hchange := hfinalized.completedFrom reservation.account now
  cases hfinalized.moves with
  | released hsource hsummaries =>
    have hsame : ∀ account time, after.completedFrom account time =
        before.completedFrom account time := by
      intro account time
      funext period
      rw [hfinalized.completedFrom]
      simp [hsource]
    constructor
    · rw [hsummaries]
      exact hcovers.counters
    · intro other hmem hstatus
      rw [hsummaries]
      rcases hfinalized.mem hmem with rfl | hold
      · cases hstatus
      · exact hcovers.rows other hold hstatus
    · intro account summary hsummary updated hupdated period
      rw [hsame]
      rw [hsummaries] at hsummary
      exact hcovers.covered account summary hsummary updated hupdated period
  | completed hsource hsummaries =>
    obtain ⟨hday, hrows⟩ := hdays (decide_eq_true hsource)
    have hbound : ∀ period, after.completedFrom reservation.account now period ≤
        before.rowUsage reservation.account now period + reservation.counter := by
      intro period
      rw [hchange]
      apply add_le_add (hcovers.le_rowUsage hrows period)
      split
      · simp [hsource]
      · exact reservation.counter_nonneg
    cases hfind : before.summaries.find? reservation.account with
    | none =>
      refine hcovers.of_row (reservation.firstSummary now) hfinalized ?_ rfl hday hrows ?_
      · intro account
        rw [hsummaries]
        split
        case isTrue haccount => rw [haccount, hfind, Option.elim_none]
        case isFalse => rfl
      · intro period
        have hsum := hbound period
        rw [Db.rowUsage_of_none hfind] at hsum
        rw [reservation.firstSummary_counter]
        exact ⟨reservation.counter_nonneg, by simpa using hsum⟩
    | some summary =>
      refine hcovers.of_row (summary.complete reservation now) hfinalized ?_ rfl hday hrows ?_
      · intro account
        rw [hsummaries]
        split
        case isTrue haccount => rw [haccount, hfind, Option.elim_some]
        case isFalse => rfl
      · intro period
        have hsum := hbound period
        rw [Db.rowUsage_of_some hfind] at hsum
        rw [summary.complete_counter]
        refine ⟨add_nonneg ?_ reservation.counter_nonneg, hsum⟩
        unfold Summary.usage
        split
        · exact hcovers.counters _ summary hfind period
        · exact le_rfl
  | @reversed summary hsource hsummary hsummaries =>
    obtain ⟨hday, hrows⟩ := hdays (decide_eq_true hsource)
    refine hcovers.of_row _ hfinalized hsummaries rfl hday hrows ?_
    intro period
    have hnonneg := hcovers.counters _ summary hsummary period
    have hbound := hcovers.le_rowUsage hrows period
    rw [Db.rowUsage_of_some hsummary, Summary.usage] at hbound
    have hafter := hchange period
    simp only [hsource, if_true, reduceCtorEq, if_false, zero_sub] at hafter
    rw [summary.reverse_counter]
    by_cases hcurrent : summary.current period now
    · rw [if_pos hcurrent] at hbound
      split
      case isTrue hreserved =>
        have hsame : period.Same reservation.reservedAt now := by
          obtain ⟨updated, hupdated, hmade⟩ := hreserved
          obtain ⟨last, hlast, hnow⟩ := hcurrent
          cases Option.mem_unique hupdated hlast
          exact hmade.symm.trans hnow
        rw [if_pos ⟨trivial, hsame⟩, ← sub_eq_add_neg] at hafter
        rw [hafter]
        exact ⟨le_sup_right, (sub_le_sub_right hbound _).trans le_sup_left⟩
      case isFalse =>
        refine ⟨hnonneg, (le_of_eq hafter).trans ?_⟩
        refine le_trans ?_ hbound
        split
        · exact add_le_of_nonpos_right (neg_nonpos.mpr reservation.counter_nonneg)
        · exact le_of_eq (add_zero _)
    · rw [if_neg hcurrent] at hbound
      have hnone : after.completedFrom reservation.account now period ≤ 0 := by
        rw [hafter]
        refine le_trans ?_ hbound
        split
        · exact add_le_of_nonpos_right (neg_nonpos.mpr reservation.counter_nonneg)
        · exact le_of_eq (add_zero _)
      split
      · exact ⟨le_sup_right, hnone.trans le_sup_right⟩
      · exact ⟨hnonneg, hnone.trans hnonneg⟩

end

/-! ## The invariant -/

/-- The rows cover what is completed, and so does what a reservation has read. -/
structure Shared.Covering (state : Shared) : Prop where
  covers : Covers state.db
  accounts : ∀ account, ∀ reserving ∈ state.reserving account, reserving.check.account = account
  read : ∀ account, ∀ reserving ∈ state.reserving account, ∀ usage,
    reserving.reading = .summary (some usage) → ∀ period,
      state.db.completedFrom account reserving.now period ≤ usage period
  counted : state.Counted

namespace Shared.Covering

variable {state after : Shared} {account : Account}

/-- What is live is what is pending and what is completed. -/
theorem liveIn_eq (db : Db) (account : Account) (now : Stamp) (period : Period) :
    db.liveIn account now period =
      db.completedFrom account now period + db.pendingUsage account now period := by
  apply Db.counterOf_add
  · intro reservation
    rw [← Bool.decide_or, decide_eq_decide]
    cases reservation.status <;> simp [ReservationStatus.live]
  · intro reservation
    simp only [decide_eq_true_eq]
    intro hboth
    obtain ⟨⟨_, hcompleted, _⟩, _, hpending, _⟩ := hboth
    rw [hcompleted] at hpending
    cases hpending

/-- If nothing of the month is live, nothing of the day is. -/
theorem liveIn_of_month {db : Db} {now : Stamp} (hmonth : db.liveIn account now .monthly = 0)
    (period : Period) : db.liveIn account now period = 0 := by
  apply Db.counterOf_eq_zero.mpr
  intro reservation hmem
  have hnot := of_decide_eq_false (Db.counterOf_eq_zero.mp hmonth reservation hmem)
  apply decide_eq_false
  intro ⟨haccount, hlive, hsame⟩
  exact hnot ⟨haccount, hlive, hsame.monthly⟩

/-- Letting the reservation of an account go on keeps the invariant, if what it has read covers
what is completed. -/
theorem setReserving (hcovering : state.Covering) {reserving : Option Reserving}
    (haccount : ∀ next ∈ reserving, next.check.account = account)
    (hread : ∀ next ∈ reserving, ∀ usage, next.reading = .summary (some usage) → ∀ period,
      state.db.completedFrom account next.now period ≤ usage period) :
    (state.setReserving account reserving).Covering := by
  constructor
  · exact hcovering.covers
  · intro other next hnext
    rw [state.setReserving_reserving] at hnext
    split at hnext
    case isTrue hsame =>
      rw [hsame]
      exact haccount next hnext
    case isFalse => exact hcovering.accounts other next hnext
  · intro other next hnext
    rw [state.setReserving_reserving] at hnext
    split at hnext
    case isTrue hsame =>
      rw [hsame]
      exact hread next hnext
    case isFalse => exact hcovering.read other next hnext
  · exact hcovering.counted

theorem begin {now : Stamp} {call : ReserveCall} (hcovering : state.Covering)
    (hbegin : state.begin now call = some after) : after.Covering := by
  unfold Shared.begin at hbegin
  split at hbegin
  · cases hbegin
    exact hcovering
  · obtain ⟨_, hbegin⟩ := Option.ite_none_left_eq_some.mp hbegin
    cases hbegin
    apply hcovering.setReserving
    · intro next hnext
      cases hnext
      rfl
    · intro next hnext usage hread
      cases hnext
      cases hread

/-- A summary row of no later day covers what is completed when it is read. -/
theorem readSummary (hcovering : state.Covering) (hguard : state.Guarded (.readSummary account))
    (hstep : state.readSummary account = some after) : after.Covering := by
  unfold Shared.readSummary at hstep
  split at hstep
  case h_1 check now hreserving =>
    cases hstep
    have haccount := hcovering.accounts account _ hreserving
    apply hcovering.setReserving
    · intro next hnext
      cases hnext
      exact haccount
    · intro next hnext usage hread period
      cases hnext
      have hrow : state.db.summaryUsage check.account now = some usage := Reading.summary.inj hread
      rw [show check.account = account from haccount] at hrow
      have hcovered := hcovering.covers.le_rowUsage (hguard _ hreserving) period
      rwa [Db.rowUsage, hrow] at hcovered
  case h_2 => cases hstep

/-- The comparison counts all that is live. -/
theorem compare (hcovering : state.Covering) (hguard : state.Guarded (.compare account))
    (hstep : state.compare account = some after) : after.Covering := by
  unfold Shared.compare at hstep
  split at hstep
  case h_2 => cases hstep
  case h_1 check now summary hreserving =>
    have haccount : check.account = account := hcovering.accounts account _ hreserving
    have hended : (state.setReserving account none).Covering :=
      hcovering.setReserving (fun _ hnext => by cases hnext) (fun _ hnext => by cases hnext)
    have hcounted : ∀ period, state.db.liveIn check.account now period ≠ 0 →
        ∃ used ∈ check.used state.db now summary,
          state.db.liveIn check.account now period + (check.amount, 1) ≤ used period := by
      intro period hlive
      cases summary with
      | none =>
        have hnone := hguard _ hreserving rfl
        rw [haccount] at hlive
        exact absurd (liveIn_of_month hnone period) hlive
      | some usage =>
        have hread := hcovering.read account _ hreserving usage rfl period
        refine ⟨_, rfl, ?_⟩
        rw [liveIn_eq, haccount]
        exact add_le_add_left (add_le_add_left hread _) _
    have hcompared : Covering { state.setReserving account none with
        comparisons := state.comparisons ++
          [{ account := check.account
             amount := check.amount
             used := check.used state.db now summary
             live := state.db.liveIn check.account now }] } := by
      constructor
      · exact hended.covers
      · exact hended.accounts
      · exact hended.read
      · intro comparison hcomparison
        rcases List.mem_append.mp hcomparison with hold | hnew
        · exact hcovering.counted comparison hold
        · rw [List.mem_singleton.mp hnew]
          exact hcounted
    dsimp only at hstep
    split at hstep
    · cases hstep
      exact hcompared
    · cases hstep
      cases hinsert : state.db.insertReservation now _ with
      | none => exact hcompared
      | some db =>
        obtain ⟨new, hpending, hrows, _⟩ := Db.insertReservation_rows hinsert
        constructor
        · exact hcovering.covers.insert hinsert
        · exact hcompared.accounts
        · intro other next hnext usage hread period
          show db.completedFrom other next.now period ≤ usage period
          rw [completedFrom_of_rows hpending hrows]
          exact hcompared.read other next hnext usage hread period
        · exact hcompared.counted

/-- A finalisation hides nothing from what a reservation has read. -/
theorem finalize {now : Stamp} {transactionId : Option ℤ} {outcome : Outcome}
    (hcovering : state.Covering) (hguard : state.Guarded (.finalize now transactionId outcome)) :
    Covering { state with db := (state.db.amlFinalize now transactionId outcome).2 } := by
  rcases state.db.amlFinalize_effect now transactionId outcome with
    hquiet | ⟨reservation, status, rfl, hfinalized⟩
  · rw [hquiet]
    exact hcovering
  · have hallowed := hguard reservation hfinalized.found
    constructor
    · exact hcovering.covers.finalize hfinalized fun hrewrites => (hallowed hrewrites).1
    · exact hcovering.accounts
    · intro other next hnext usage hread period
      have hcovered := hcovering.read other next hnext usage hread period
      show (state.db.amlFinalize now _ outcome).2.completedFrom other next.now period ≤ _
      rw [hfinalized.completedFrom]
      refine le_trans (add_le_of_nonpos_right ?_) hcovered
      split
      case isFalse => exact le_rfl
      case isTrue hcounts =>
        cases hfinalized.moves with
        | completed hsource _ =>
          -- such a completion would come between the two readings
          have hdone : next.reading.done := by rw [hread]; rfl
          exact absurd hcounts.2.monthly ((hallowed (decide_eq_true hsource)).2 rfl next
            (hcounts.1 ▸ hnext) hdone)
        | released hsource _ => simp [hsource]
        | reversed hsource _ _ =>
          rw [if_neg (by decide), if_pos hsource, zero_sub]
          exact neg_nonpos.mpr reservation.counter_nonneg
    · exact hcovering.counted

/-- Every guarded statement keeps the invariant. -/
theorem step {statement : Statement} (hcovering : state.Covering)
    (hguard : state.Guarded statement) (hstep : state.step statement = some after) :
    after.Covering := by
  cases statement with
  | begin now call => exact hcovering.begin hstep
  | readSummary account => exact hcovering.readSummary hguard hstep
  | compare account => exact hcovering.compare hguard hstep
  | rollback account =>
    cases hstep
    exact hcovering.setReserving (fun _ hnext => by cases hnext) fun _ hnext => by cases hnext
  | finalize now transactionId outcome =>
    cases hstep
    exact hcovering.finalize hguard

end Shared.Covering

theorem Shared.Opening.covering {state : Shared} (hopening : state.Opening) : state.Covering := by
  constructor
  · constructor
    · exact hopening.counters
    · intro reservation hmem
      rw [hopening.unreserved] at hmem
      cases hmem
    · intro account summary hsummary updated _ period
      rw [Db.completedFrom_eq_zero]
      · exact hopening.counters account summary hsummary period
      · intro reservation hmem
        rw [hopening.unreserved] at hmem
        cases hmem
  · intro account next hnext
    rw [hopening.reserving] at hnext
    cases hnext
  · intro account next hnext
    rw [hopening.reserving] at hnext
    cases hnext
  · intro comparison hcomparison
    rw [hopening.comparisons] at hcomparison
    cases hcomparison

/-- In runs in which no completion comes between the two readings, days do not run back and no
summary row is missed, every comparison counts all that is live in its day and month. -/
theorem finalisation_hides_nothing {start state : Shared} (hopening : start.Opening)
    (hrun : ReachesUnder Shared.step Shared.Guarded start state) : state.Counted := by
  apply Shared.Covering.counted
  apply ReachesUnder.preserves Shared.Covering _ hrun hopening.covering
  intro before statement after hcovering hguard hstep
  exact hcovering.step hguard hstep

/-! ## A completion between the two readings -/

/-- No reservation is under way. -/
def idleShared : Shared where
  db := openingDb

theorem idleShared_opening : idleShared.Opening where
  unreserved := rfl
  counters := fun _ _ hsummary => by cases hsummary
  reserving := fun _ => rfl
  comparisons := rfl

/-- The first statement of a reservation of the wallet. -/
def beginPayment (transactionId : ℤ) (amount : ℚ) : Statement :=
  .begin (Stamp.of 2026 1 5 9)
    { transactionId := some transactionId, walletMsisdn := some 17, keyword := some "PAY"
      amount := some (amount : Numeric) }

/-- The completion of a reservation on the same day. -/
def completePayment (transactionId : ℤ) : Statement :=
  .finalize (Stamp.of 2026 1 5 10) (some transactionId) .completed

/-- A completed reservation of 10.00 and a pending one of 60.00. -/
def twoPayments : List Statement :=
  [beginPayment 1 10, .readSummary (17, "PAY"), .compare (17, "PAY"), completePayment 1,
    beginPayment 2 60, .readSummary (17, "PAY"), .compare (17, "PAY"), beginPayment 3 60]

/-- A completion before the summary row is read is counted. -/
theorem finalisation_hides_nothing_before : ∃ state,
    ReachesUnder Shared.step Shared.Guarded idleShared state ∧ state.comparisons.length = 3 ∧
      state.Counted := by
  have hany : (runInputs (guardedStep Shared.step Shared.Guarded) idleShared
      (twoPayments ++ [completePayment 2, .readSummary (17, "PAY"), .compare (17, "PAY")])).any
        (fun state => state.comparisons.length = 3) := by
    decide +kernel
  obtain ⟨state, hrun, hlength⟩ := (Option.any_eq_true _ _).mp hany
  have hreach := (Reaches.of_runInputs hrun).under
  exact ⟨state, hreach, of_decide_eq_true hlength,
    finalisation_hides_nothing idleShared_opening hreach⟩

/-- In every interleaving every comparison counts all that is live. -/
def AlwaysCounted : Prop :=
  ∀ start state : Shared, start.Opening → Reaches Shared.step start state → state.Counted

/-- A reservation of 60.00 that is completed between the two readings of the next one is in
neither of them, and the next one is admitted beyond the limit of 100.00. -/
theorem completion_hidden : ¬ AlwaysCounted := by
  intro halways
  have hany : (runInputs Shared.step idleShared
      (twoPayments ++ [.readSummary (17, "PAY"), completePayment 2, .compare (17, "PAY")])).any
        (fun state => (state.db.liveIn (17, "PAY") (Stamp.of 2026 1 5 11) .daily).1 = 13000 ∧
          ∃ comparison ∈ state.comparisons, comparison.live .daily ≠ 0 ∧
            comparison.used.all fun used =>
              ¬ comparison.live .daily + (comparison.amount, 1) ≤ used .daily) := by
    decide +kernel
  obtain ⟨state, hrun, hfacts⟩ := (Option.any_eq_true _ _).mp hany
  obtain ⟨_, comparison, hmem, hlive, hused⟩ := of_decide_eq_true hfacts
  obtain ⟨used, hsome, hle⟩ := halways idleShared state idleShared_opening
    (Reaches.of_runInputs hrun) comparison hmem .daily hlive
  have hnot := (Option.all_eq_true _ _).mp hused used hsome
  exact of_decide_eq_true hnot hle

end Finify.Aml
