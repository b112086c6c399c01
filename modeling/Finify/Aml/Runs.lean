/-
# Runs of the AML procedures

An input is a call of one of the two procedures at a time; a step is a committed
call.  What a step can do is said once: nothing, insert one pending reservation
that exceeds no limit, or move one reservation on and update its summary row.
-/

import Finify.Aml.Procedures
import Finify.Foundations.Transition
import Mathlib.Algebra.Order.BigOperators.Group.List
import Mathlib.Algebra.Order.Monoid.Prod

namespace Finify.Aml

open Finify.Foundations Finify.Posting

/-- A call of one of the two procedures. -/
inductive Call
  | reserve (call : ReserveCall)
  | finalize (transactionId : Option ℤ) (outcome : Outcome)
  deriving DecidableEq

/-- A call and the time it is made. -/
structure Event where
  now : Stamp
  call : Call

/-- The database after a committed call. -/
def Db.step (db : Db) (event : Event) : Option Db :=
  match event.call with
  | .reserve call => (db.amlReserve event.now call).map Prod.snd
  | .finalize transactionId outcome => some (db.amlFinalize event.now transactionId outcome).2

def Admission.account (admission : Admission) : Account :=
  (admission.walletMsisdn, admission.keyword)

def Admission.reservation (admission : Admission) (now : Stamp) (hpos : 0 < admission.amount) :
    Reservation where
  transactionId := admission.transactionId
  walletMsisdn := admission.walletMsisdn
  walletCode := admission.walletCode
  keyword := admission.keyword
  amount := admission.amount
  reservedAt := now
  amount_pos := hpos

/-- What the deciding half of a reservation guarantees. -/
structure Admitted (db : Db) (now : Stamp) (admission : Admission) : Prop where
  fresh : db.reservations.find? admission.transactionId = none
  walletCode : db.walletCode admission.walletMsisdn = some admission.walletCode
  limits : ∃ limits, db.limits admission.walletCode admission.keyword = some limits ∧
    limits.exceeded? (db.usedWith admission.account now admission.amount) = none

theorem Db.admission_eq_ok {db : Db} {now : Stamp} {call : ReserveCall} {admission : Admission}
    (hadmission : db.admission now call = .ok admission) : Admitted db now admission := by
  unfold Db.admission at hadmission
  simp only at hadmission
  split at hadmission
  case h_2 => cases hadmission
  case h_1 transactionId wallet keyword _ _ _ =>
    split at hadmission
    · cases hadmission
    split at hadmission
    · cases hadmission
    split at hadmission
    · cases hadmission
    rename_i hfresh
    unfold Db.checkLimits at hadmission
    simp only at hadmission
    split at hadmission
    · cases hadmission
    rename_i walletCode hcode
    split at hadmission
    · cases hadmission
    rename_i limits hlimits
    split at hadmission
    · cases hadmission
    split at hadmission
    · cases hadmission
    rename_i hwithin
    cases hadmission
    exact ⟨hfresh, hcode, limits, hlimits, hwithin⟩

/-- The database after a reservation has been inserted. -/
structure Reserved (before : Db) (now : Stamp) (admission : Admission) (after : Db) : Prop where
  admitted : Admitted before now admission
  amount_pos : 0 < admission.amount
  rows : after.reservations.rows =
    before.reservations.rows ++ [admission.reservation now amount_pos]
  summaries : after.summaries = before.summaries
  walletCode : after.walletCode = before.walletCode
  limits : after.limits = before.limits

/-- What an outcome needs of a reservation, and what it does to the summary rows:
the first completion of an account inserts its row, later ones and reversals
rewrite it, and a release leaves it alone. -/
inductive Moves (before : Db) (now : Stamp) (reservation : Reservation) (after : Db) :
    Outcome → ReservationStatus → Prop
  | completed (hsource : reservation.status = .pending)
      (hsummaries : ∀ account, after.summaries.find? account =
        if account = reservation.account then
          some ((before.summaries.find? account).elim (reservation.firstSummary now)
            fun summary => summary.complete reservation now)
        else before.summaries.find? account) :
      Moves before now reservation after .completed .completed
  | released (hsource : reservation.status = .pending)
      (hsummaries : after.summaries = before.summaries) :
      Moves before now reservation after .released .released
  | reversed {summary : Summary} (hsource : reservation.status = .completed)
      (hsummary : before.summaries.find? reservation.account = some summary)
      (hsummaries : ∀ account, after.summaries.find? account =
        if account = reservation.account then some (summary.reverse reservation now)
        else before.summaries.find? account) :
      Moves before now reservation after .reversed .reversed

/-- The reservation after its status has been written. -/
def Reservation.withStatus (reservation : Reservation) (status : ReservationStatus)
    (now : Stamp) : Reservation :=
  { reservation with status := status, finalizedAt := some now }

@[simp] theorem Reservation.transactionId_withStatus (status : ReservationStatus) (now : Stamp)
    (reservation : Reservation) :
    (reservation.withStatus status now).transactionId = reservation.transactionId := rfl

/-- A reservation moved on by an outcome. -/
structure Finalized (before : Db) (now : Stamp) (outcome : Outcome) (reservation : Reservation)
    (status : ReservationStatus) (after : Db) : Prop where
  found : before.reservations.find? reservation.transactionId = some reservation
  moves : Moves before now reservation after outcome status
  reservations : after.reservations = before.reservations.modify reservation.transactionId
    (fun row => row.withStatus status now) (Reservation.transactionId_withStatus status now)
  walletCode : after.walletCode = before.walletCode
  limits : after.limits = before.limits

/-- What a committed call does. -/
inductive Effect (before : Db) (event : Event) : Db → Prop
  | quiet : Effect before event before
  | reserved {call : ReserveCall} {admission : Admission} {after : Db}
      (hcall : event.call = .reserve call)
      (hadmission : before.admission event.now call = .ok admission)
      (hreserved : Reserved before event.now admission after) : Effect before event after
  | finalized {outcome : Outcome} {reservation : Reservation} {status : ReservationStatus}
      {after : Db} (hcall : event.call = .finalize (some reservation.transactionId) outcome)
      (hfinalized : Finalized before event.now outcome reservation status after) :
      Effect before event after

theorem Db.insertReservation_reserved {before after : Db} {now : Stamp} {admission : Admission}
    (hadmitted : Admitted before now admission)
    (hinsert : before.insertReservation now admission = some after) :
    Reserved before now admission after := by
  unfold Db.insertReservation at hinsert
  split at hinsert
  case isFalse => cases hinsert
  case isTrue hpos =>
    obtain ⟨reservations, hrows, rfl⟩ := Option.map_eq_some_iff.mp hinsert
    exact ⟨hadmitted, hpos.1, (Table.insert?_eq_some hrows).2, rfl, rfl, rfl⟩

theorem Db.amlReserve_effect {before after : Db} {now : Stamp} {call : ReserveCall}
    {result : ReserveResult} (hcall : before.amlReserve now call = some (result, after)) :
    after = before ∨
      ∃ admission, before.admission now call = .ok admission ∧
        Reserved before now admission after := by
  unfold Db.amlReserve at hcall
  split at hcall
  · cases hcall
    exact .inl rfl
  · rename_i admission hadmission
    obtain ⟨inserted, hinsert, hsame⟩ := Option.map_eq_some_iff.mp hcall
    cases hsame
    exact .inr ⟨admission, hadmission,
      Db.insertReservation_reserved (Db.admission_eq_ok hadmission) hinsert⟩

/-- Writing the status of a reservation whose summary row has been updated. -/
theorem Db.updateSummary_finalized {before updated : Db} {now : Stamp} {outcome : Outcome}
    {reservation : Reservation} {transition : Transition}
    (hfound : before.reservations.find? reservation.transactionId = some reservation)
    (htransition : outcome.transition? = some transition)
    (hsource : reservation.status = transition.source)
    (hupdated : before.updateSummary reservation outcome now = some updated) :
    Finalized before now outcome reservation transition.target
      (updated.setStatus reservation.transactionId transition.target now) := by
  cases outcome with
  | completed =>
    cases htransition
    cases hupdated
    exact ⟨hfound, .completed hsource fun account => Table.find?_upsert _ _ _ _ account,
      rfl, rfl, rfl⟩
  | released =>
    cases htransition
    cases hupdated
    exact ⟨hfound, .released hsource rfl, rfl, rfl, rfl⟩
  | reversed =>
    cases htransition
    cases hsummary : before.summaries.find? reservation.account with
    | none => simp [Db.updateSummary, hsummary] at hupdated
    | some summary =>
      simp only [Db.updateSummary, hsummary, Option.some.injEq] at hupdated
      subst hupdated
      refine ⟨hfound, .reversed hsource hsummary ?_, rfl, rfl, rfl⟩
      intro account
      apply (Table.find?_modify before.summaries reservation.account
        (fun summary => summary.reverse reservation now) (fun _ => rfl) account).trans
      split
      case isTrue haccount => rw [haccount, hsummary, Option.map_some]
      case isFalse => rfl
  | other => cases htransition

theorem Db.amlFinalize_effect (before : Db) (now : Stamp) (transactionId : Option ℤ)
    (outcome : Outcome) :
    (before.amlFinalize now transactionId outcome).2 = before ∨
      ∃ reservation status, transactionId = some reservation.transactionId ∧
        Finalized before now outcome reservation status
          (before.amlFinalize now transactionId outcome).2 := by
  unfold Db.amlFinalize
  split
  · exact .inl rfl
  rename_i reservation hfind
  obtain ⟨named, rfl, hfound⟩ := Option.bind_eq_some_iff.mp hfind
  obtain rfl := (Table.find?_eq_some.mp hfound).2
  simp only
  split
  · exact .inl rfl
  rename_i transition htransition
  split
  · exact .inl rfl
  split
  · exact .inl rfl
  rename_i hsource
  split
  · exact .inl rfl
  rename_i updated hupdated
  exact .inr ⟨reservation, transition.target, rfl,
    Db.updateSummary_finalized hfound htransition (not_not.mp hsource) hupdated⟩

theorem Db.step_effect {before after : Db} {event : Event}
    (hstep : before.step event = some after) : Effect before event after := by
  unfold Db.step at hstep
  split at hstep
  · rename_i call hcall
    obtain ⟨⟨result, after'⟩, hreserve, rfl⟩ := Option.map_eq_some_iff.mp hstep
    rcases Db.amlReserve_effect hreserve with hquiet | ⟨admission, hadmission, hreserved⟩
    · cases hquiet
      exact .quiet
    · exact .reserved hcall hadmission hreserved
  · rename_i transactionId outcome hcall
    cases hstep
    rcases before.amlFinalize_effect event.now transactionId outcome with
      hquiet | ⟨reservation, status, rfl, hfinalized⟩
    · rw [hquiet]
      exact .quiet
    · exact .finalized hcall hfinalized

/-! ## The life of a reservation -/

inductive ReservationStatus.Leads : ReservationStatus → ReservationStatus → Prop
  | completed : Leads .pending .completed
  | released : Leads .pending .released
  | reversed : Leads .completed .reversed

/-- The reservation is still there, and its status has come from transitions only. -/
def Db.Continues (db : Db) (reservation : Reservation) : Prop :=
  ∃ status finalizedAt,
    { reservation with status := status, finalizedAt := finalizedAt } ∈ db.reservations.rows ∧
      Relation.ReflTransGen ReservationStatus.Leads reservation.status status

theorem Moves.leads {before after : Db} {now : Stamp} {reservation : Reservation}
    {outcome : Outcome} {status : ReservationStatus}
    (hmoves : Moves before now reservation after outcome status) :
    reservation.status.Leads status := by
  cases hmoves with
  | completed hsource => exact hsource ▸ .completed
  | released hsource => exact hsource ▸ .released
  | reversed hsource => exact hsource ▸ .reversed

/-- In every run a reservation stays with what it reserves, and its status takes one transition
after the other. -/
theorem reservations_move_on {db later : Db} (hrun : Reaches Db.step db later) :
    ∀ reservation ∈ db.reservations.rows, later.Continues reservation := by
  intro reservation hmem
  apply hrun.preserves (Db.Continues · reservation)
  · rintro before event after ⟨status, finalizedAt, hrow, hleads⟩ hstep
    cases Db.step_effect hstep with
    | quiet => exact ⟨status, finalizedAt, hrow, hleads⟩
    | reserved _ _ hreserved =>
      exact ⟨status, finalizedAt, hreserved.rows ▸ List.mem_append_left _ hrow, hleads⟩
    | @finalized _ moved target _ _ hfinalized =>
      rw [Db.Continues, hfinalized.reservations]
      by_cases hkey : reservation.transactionId = moved.transactionId
      · have hmoved := before.reservations.eq_of_key_eq hrow
          (Table.find?_eq_some.mp hfinalized.found).1 hkey
        subst hmoved
        exact ⟨target, some event.now, List.mem_map.mpr ⟨_, hrow, if_pos rfl⟩,
          hleads.tail hfinalized.moves.leads⟩
      · exact ⟨status, finalizedAt, List.mem_map.mpr ⟨_, hrow, if_neg hkey⟩, hleads⟩
  · exact ⟨_, _, hmem, .refl⟩

/-! ## Totals over the reservations -/

/-- A total over some rows, as a total over all rows. -/
theorem sum_filter {ρ α : Type} [AddCommMonoid α] (select : ρ → Bool) (column : ρ → α)
    (rows : List ρ) :
    ((rows.filter select).map column).sum =
      (rows.map fun row => if select row then column row else 0).sum := by
  induction rows with
  | nil => rfl
  | cons row rows ih =>
    rw [List.filter_cons, List.map_cons, List.sum_cons]
    split
    · rw [List.map_cons, List.sum_cons, ih]
    · rw [ih, zero_add]

/-- The total of some reservations. -/
def Db.counterOf (db : Db) (select : Reservation → Bool) : Counter :=
  ((db.reservations.rows.filter select).map Reservation.counter).sum

theorem Reservation.counter_nonneg (reservation : Reservation) : 0 ≤ reservation.counter :=
  Prod.mk_le_mk.mpr ⟨reservation.amount_pos.le, zero_le_one⟩

theorem Db.counterOf_congr {db : Db} {first second : Reservation → Bool}
    (hsame : ∀ reservation ∈ db.reservations.rows, first reservation = second reservation) :
    db.counterOf first = db.counterOf second := by
  unfold Db.counterOf
  rw [List.filter_congr hsame]

/-- A new reservation counts where it is selected. -/
theorem Reserved.counterOf {before after : Db} {now : Stamp} {admission : Admission}
    (hreserved : Reserved before now admission after) (select : Reservation → Bool) :
    after.counterOf select = before.counterOf select +
      if select (admission.reservation now hreserved.amount_pos) then (admission.amount, 1)
      else 0 := by
  unfold Db.counterOf
  rw [hreserved.rows, List.filter_append, List.map_append, List.sum_append]
  congr 1
  split
  case isTrue hselect =>
    rw [List.filter_cons_of_pos hselect]
    exact add_zero _
  case isFalse hselect =>
    rw [List.filter_cons_of_neg hselect]
    rfl

/-- Moving one reservation on changes a total by what it counts for. -/
theorem Finalized.counterOf {before after : Db} {now : Stamp} {outcome : Outcome}
    {reservation : Reservation} {status : ReservationStatus}
    (hfinalized : Finalized before now outcome reservation status after)
    (select : Reservation → Bool) :
    after.counterOf select = before.counterOf select +
      ((if select (reservation.withStatus status now) then reservation.counter else 0) -
        if select reservation then reservation.counter else 0) := by
  unfold Db.counterOf
  rw [sum_filter, sum_filter, hfinalized.reservations]
  exact Table.sum_modify (fun row : Reservation => if select row then row.counter else 0)
    hfinalized.found (fun row => row.withStatus status now)
    (Reservation.transactionId_withStatus status now)

/-- The reservations after one has been moved on. -/
theorem Finalized.mem {before after : Db} {now : Stamp} {outcome : Outcome}
    {reservation other : Reservation} {status : ReservationStatus}
    (hfinalized : Finalized before now outcome reservation status after)
    (hmem : other ∈ after.reservations.rows) :
    other = reservation.withStatus status now ∨ other ∈ before.reservations.rows := by
  rw [hfinalized.reservations] at hmem
  obtain ⟨row, hrow, rfl⟩ := List.mem_map.mp hmem
  split
  case isTrue hkey =>
    rw [before.reservations.eq_of_key_eq hrow (Table.find?_eq_some.mp hfinalized.found).1 hkey]
    exact .inl rfl
  case isFalse => exact .inr hrow

/-! ## Counters of summary rows -/

/-- A completion adds to the usage of its time. -/
theorem Summary.complete_counter (summary : Summary) (reservation : Reservation) (now : Stamp)
    (period : Period) :
    (summary.complete reservation now).counter period =
      summary.usage now period + reservation.counter := by
  cases period with
  | daily =>
    by_cases hcurrent : summary.current .daily now <;>
      simp [Summary.complete, Summary.counter, Summary.usage, Reservation.counter, hcurrent]
  | monthly =>
    by_cases hcurrent : summary.current .monthly now <;>
      simp [Summary.complete, Summary.counter, Summary.usage, Reservation.counter, hcurrent]

/-- A reversal subtracts where the row was last updated in the period of the
reservation, and never below zero. -/
theorem Summary.reverse_counter (summary : Summary) (reservation : Reservation) (now : Stamp)
    (period : Period) :
    (summary.reverse reservation now).counter period =
      if summary.current period reservation.reservedAt then
        (summary.counter period - reservation.counter) ⊔ 0
      else summary.counter period := by
  cases period with
  | daily =>
    by_cases hcurrent : summary.current .daily reservation.reservedAt <;>
      simp [Summary.reverse, Summary.counter, Reservation.counter, hcurrent, Prod.ext_iff]
  | monthly =>
    by_cases hcurrent : summary.current .monthly reservation.reservedAt <;>
      simp [Summary.reverse, Summary.counter, Reservation.counter, hcurrent, Prod.ext_iff]

theorem Reservation.firstSummary_counter (reservation : Reservation) (now : Stamp)
    (period : Period) : (reservation.firstSummary now).counter period = reservation.counter := by
  cases period <;> rfl

end Finify.Aml
