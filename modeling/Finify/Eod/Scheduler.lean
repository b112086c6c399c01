/-
# The close schedule

`EodSchedulerService`: a tick works out the overdue dates of a currency and closes them one
after another until one fails.  Several instances may be at it, each can be cut short between
two dates, and operators close and rehearse dates by hand.  The module proves when no date is
skipped in all this.
-/

import Finify.Eod.Orchestration
import Finify.Eod.ClosedDays
import Mathlib.Data.Int.SuccPred

namespace Finify.Eod.Scheduler

open Finify.Foundations

/-! ## The overdue dates -/

/-- `latestDueDate`, from the local date and minute of the day. -/
def latestDueDate (localDate : Date) (minutes closureMinutes : ℕ) : Date :=
  localDate + if closureMinutes ≤ minutes then -1 else -2

/-- `maxDays`, from `ACCOUNTING_CATCH_UP_MAX_DAYS_PER_TICK` where that is a number. -/
def maxDays (setting : Option ℤ) : ℕ :=
  (max 1 (if setting.getD 0 = 0 then 31 else setting.getD 0)).toNat

/-- The loop of `overdueDates`. -/
def datesFrom (start last : ℤ) : ℕ → List ℤ
  | 0 => []
  | n + 1 => if start ≤ last then start :: datesFrom (start + 1) last n else []

theorem mem_datesFrom {start last date : ℤ} {n : ℕ} :
    date ∈ datesFrom start last n ↔ start ≤ date ∧ date ≤ last ∧ date < start + (n : ℤ) := by
  induction n generalizing start with
  | zero =>
    simp only [datesFrom, List.not_mem_nil, false_iff]
    omega
  | succ n ih =>
    unfold datesFrom
    split
    · rw [List.mem_cons, ih]
      omega
    · simp only [List.not_mem_nil, false_iff]
      omega

def periodsUpTo (books : Books) (currency : String) (due : Date) : List Period :=
  books.periods.rows.filter fun period => period.currency = currency ∧ period.businessDate ≤ due

/-- `lastClosed`. -/
def lastClosed (books : Books) (currency : String) (due : Date) : Option Date :=
  (latest Period.businessDate ((periodsUpTo books currency due).filter fun period =>
    period.status = .closed)).map Period.businessDate

/-- `earliestOpen`. -/
def earliestOpen (books : Books) (currency : String) (due : Date) : Option Date :=
  (earliest Period.businessDate ((periodsUpTo books currency due).filter fun period =>
    period.status ≠ .closed)).map Period.businessDate

/-- `start`. -/
def overdueStart (books : Books) (currency : String) (due : Date) : Date :=
  match lastClosed books currency due with
  | some date => date + 1
  | none => (earliestOpen books currency due).getD due

/-- `overdueDates`. -/
def overdueDates (books : Books) (currency : String) (due : Date) (setting : Option ℤ) :
    List Date :=
  datesFrom (overdueStart books currency due) due (maxDays setting)

/-! ## Runs of the schedule -/

/-- What is left of a tick for one currency: the date it is at and those after it. -/
structure CatchUp where
  instanceId : String
  currency : String
  next : Date
  rest : List Date
  deriving DecidableEq

def CatchUp.key (catchUp : CatchUp) : String := catchUp.currency.toUpper

/-- The books, the catch-ups under way and all dates that were offered so far. -/
structure State where
  books : Books
  catchUps : Table CatchUp.instanceId := .empty
  offered : List (Date × String) := []

/-- What can happen. -/
inductive Event
  | tick (instanceId currency : String) (localDate : Date) (minutes closureMinutes : ℕ)
      (setting : Option ℤ)
  | attempt (instanceId : String) (correlationId : Option String) (now : ℤ) (work : PendingWork)
      (fault : Option Fault)
  | restart (instanceId : String)
  | manual (input : CloseInput) (work : PendingWork) (fault : Option Fault)
  | other (books : Books)

def CatchUp.input (catchUp : CatchUp) (correlationId : Option String) (now : ℤ) : CloseInput :=
  { businessDate := catchUp.next
    currency := catchUp.currency
    requestedBy := "EOD_CATCH_UP_SCHEDULER"
    correlationId := correlationId
    now := now }

namespace State

variable (state : State)

/-- `overdueDates` at a tick, and the catch-up that begins with them. -/
def tick (instanceId currency : String) (due : Date) (setting : Option ℤ) : Option State :=
  match overdueDates state.books currency.toUpper due setting with
  | [] => some state
  | date :: rest =>
    (state.catchUps.insert?
      { instanceId := instanceId, currency := currency, next := date, rest := rest }).map
        fun catchUps =>
          { state with
            catchUps := catchUps
            offered := ((date :: rest).map fun date => (date, currency.toUpper)) ++
              state.offered }

def withoutCatchUp (instanceId : String) : Table CatchUp.instanceId :=
  state.catchUps.replace (fun other => other = instanceId) [] List.nodup_nil
    fun _ hrow => absurd hrow List.not_mem_nil

/-- The catch-ups after an attempt: only a closed date lets the next one be tried. -/
def advance (catchUp : CatchUp) (outcome : Outcome) : Table CatchUp.instanceId :=
  match outcome, catchUp.rest with
  | .closed, date :: rest =>
    state.catchUps.modify catchUp.instanceId
      (fun catchUp => { catchUp with next := date, rest := rest }) fun _ => rfl
  | _, _ => state.withoutCatchUp catchUp.instanceId

/-- The next date of a catch-up is tried. -/
def attempt (catchUp : CatchUp) (correlationId : Option String) (now : ℤ) (work : PendingWork)
    (fault : Option Fault) : State :=
  let result := runOne state.books (catchUp.input correlationId now) work fault
  { state with books := result.1, catchUps := state.advance catchUp result.2 }

end State

/-- One event.  An instance that is at a catch-up begins no other; `other` is any transaction
that leaves periods and runs alone. -/
def step (state : State) : Event → Option State
  | .tick instanceId currency localDate minutes closureMinutes setting =>
    state.tick instanceId currency (latestDueDate localDate minutes closureMinutes) setting
  | .attempt instanceId correlationId now work fault =>
    (state.catchUps.find? instanceId).map fun catchUp =>
      state.attempt catchUp correlationId now work fault
  | .restart instanceId => some { state with catchUps := state.withoutCatchUp instanceId }
  | .manual input work fault =>
    some { state with books := (runOne state.books input work fault).1 }
  | .other books =>
    some { state with
      books := { books with periods := state.books.periods, runs := state.books.runs } }

/-- Nothing was closed, offered or begun. -/
structure Fresh (state : State) : Prop where
  periods : state.books.periods.rows = []
  runs : state.books.runs.rows = []
  catchUps : state.catchUps.rows = []
  offered : state.offered = []

/-! ## The claim about the schedule -/

def Begun (books : Books) (date : Date) (currency : String) : Prop :=
  ∃ period ∈ books.periods.rows, period.currency = currency ∧ period.businessDate ≤ date

def NoneClosedAfter (books : Books) (date : Date) (currency : String) : Prop :=
  ∀ period ∈ books.periods.rows, period.currency = currency → period.status = .closed →
    period.businessDate ≤ date

instance (books : Books) (date : Date) (currency : String) :
    Decidable (Begun books date currency) :=
  inferInstanceAs (Decidable (∃ period ∈ books.periods.rows, _))

instance (books : Books) (date : Date) (currency : String) :
    Decidable (NoneClosedAfter books date currency) :=
  inferInstanceAs (Decidable (∀ period ∈ books.periods.rows, _))

/-- A date that should be closed and is not: the currency has begun by it, or it was offered
before. -/
def State.Missing (state : State) (date : Date) (currency : String) : Prop :=
  state.books.periodStatus date currency ≠ some .closed ∧
    (Begun state.books date currency ∨ (date, currency) ∈ state.offered)

/-- Every catch-up of the currency under way is past its first period. -/
def State.Anchored (state : State) (currency : String) : Prop :=
  ∀ catchUp ∈ state.catchUps.rows, catchUp.key = currency →
    Begun state.books catchUp.next currency

instance (state : State) (currency : String) : Decidable (state.Anchored currency) :=
  inferInstanceAs (Decidable (∀ catchUp ∈ state.catchUps.rows, _))

/-- Before a closed date all dates from the first period on are closed, and the dates that are
due and missing are offered at the next tick, as far as it may go back. -/
structure NoneSkipped (state : State) : Prop where
  closed : ∀ currency first date last, state.books.period first currency ≠ none →
    first ≤ date → date < last → state.books.periodStatus last currency = some .closed →
      state.books.periodStatus date currency = some .closed
  offered : ∀ currency due setting, state.Anchored currency → ∀ date ≤ due,
    state.Missing date currency →
      (∀ earlier ≤ date, state.Missing earlier currency → date < earlier + maxDays setting) →
        date ∈ overdueDates state.books currency due setting

/-- A date may be closed by hand when it is closed already, or when no later date is closed and
the date before it is closed or precedes the first period. -/
def InTurn (books : Books) (date : Date) (currency : String) : Prop :=
  books.periodStatus date currency = some .closed ∨
    NoneClosedAfter books date currency ∧
      (books.periodStatus (date - 1) currency = some .closed ∨
        ¬ Begun books (date - 1) currency)

instance (books : Books) (date : Date) (currency : String) :
    Decidable (InTurn books date currency) :=
  inferInstanceAs (Decidable (_ ∨ _))

/-- A call by hand: a close takes its turn, a rehearsal of a date before the first period finds
no later date closed, and neither comes between a catch-up and the first period. -/
def MayCall (state : State) (date : Date) (currency : String) : Bool → Prop
  | true =>
    Begun state.books date currency ∨ NoneClosedAfter state.books date currency ∧
      ∀ catchUp ∈ state.catchUps.rows, catchUp.key = currency → catchUp.next ≤ date
  | false =>
    InTurn state.books date currency ∧
      ∀ catchUp ∈ state.catchUps.rows, catchUp.key = currency →
        catchUp.next = date ∨ Begun state.books (min catchUp.next date) currency

instance (state : State) (date : Date) (currency : String) :
    (dryRun : Bool) → Decidable (MayCall state date currency dryRun)
  | true => inferInstanceAs (Decidable (_ ∨ _))
  | false => inferInstanceAs (Decidable (_ ∧ _))

/-- The attempt gets as far as the procedure, and that knows the currency. -/
def Arrives (state : State) (catchUp : CatchUp) (correlationId : Option String) (now : ℤ)
    (work : PendingWork) (fault : Option Fault) : Prop :=
  fault ≠ some .beforeClose ∧
    isReady (state.books.readiness catchUp.next catchUp.key work) = true ∧
      (state.books.target (catchUp.input correlationId now).request).isSome = true

instance (state : State) (catchUp : CatchUp) (correlationId : Option String) (now : ℤ)
    (work : PendingWork) (fault : Option Fault) :
    Decidable (Arrives state catchUp correlationId now work fault) :=
  inferInstanceAs (Decidable (_ ∧ _))

/-- What keeps the dates in order.  Where a currency has no period by the due date, none of its
dates is closed and one catch-up at a time works on it, and that gets as far as the procedure.
Calls by hand are as `MayCall` says. -/
def Guarded (state : State) : Event → Prop
  | .tick _ currency localDate minutes closureMinutes _ =>
    Begun state.books (latestDueDate localDate minutes closureMinutes) currency.toUpper ∧
        state.Anchored currency.toUpper ∨
      (∀ period ∈ state.books.periods.rows, period.currency = currency.toUpper →
        period.status ≠ .closed) ∧
      ∀ catchUp ∈ state.catchUps.rows, catchUp.key ≠ currency.toUpper
  | .attempt instanceId correlationId now work fault =>
    ∀ catchUp ∈ state.catchUps.rows, catchUp.instanceId = instanceId →
      Begun state.books catchUp.next catchUp.key ∨
        Arrives state catchUp correlationId now work fault
  | .restart instanceId =>
    ∀ catchUp ∈ state.catchUps.rows, catchUp.instanceId = instanceId →
      Begun state.books catchUp.next catchUp.key
  | .manual input _ _ => MayCall state input.businessDate input.currency.toUpper input.dryRun
  | .other _ => True

instance (state : State) : (event : Event) → Decidable (Guarded state event)
  | .tick _ _ _ _ _ _ => inferInstanceAs (Decidable (_ ∨ _))
  | .attempt _ _ _ _ _ => inferInstanceAs (Decidable (∀ catchUp ∈ state.catchUps.rows, _))
  | .restart _ => inferInstanceAs (Decidable (∀ catchUp ∈ state.catchUps.rows, _))
  | .manual _ _ _ => inferInstanceAs (Decidable (MayCall _ _ _ _))
  | .other _ => .isTrue trivial

/-! ## Reading the register -/

section

variable {books : Books} {date due : Date} {currency : String}

theorem mem_rows_iff : date ∈ (books.register currency).rows ↔
    ∃ period ∈ books.periods.rows, period.currency = currency ∧ period.businessDate = date := by
  rw [Books.mem_rows_register, Books.periodStatus, ne_eq, Option.map_eq_none_iff, Books.period,
    Table.find?_eq_none]
  simp [Period.key, and_comm]

theorem mem_closed_iff : date ∈ (books.register currency).closed ↔
    ∃ period ∈ books.periods.rows, period.currency = currency ∧ period.businessDate = date ∧
      period.status = .closed := by
  rw [Books.mem_closed_register, Books.periodStatus, Option.map_eq_some_iff]
  constructor
  · intro hclosed
    obtain ⟨period, hfind, hstatus⟩ := hclosed
    obtain ⟨hmem, hkey⟩ := Table.find?_eq_some.mp hfind
    exact ⟨period, hmem, congrArg Prod.snd hkey, congrArg Prod.fst hkey, hstatus⟩
  · intro hclosed
    obtain ⟨period, hmem, rfl, rfl, hstatus⟩ := hclosed
    exact ⟨period, Table.find?_key hmem, hstatus⟩

theorem begun_iff : Begun books date currency ↔ (books.register currency).Started date := by
  constructor
  · intro hbegun
    obtain ⟨period, hmem, hcurrency, hle⟩ := hbegun
    exact ⟨period.businessDate, mem_rows_iff.mpr ⟨period, hmem, hcurrency, rfl⟩, hle⟩
  · intro hstarted
    obtain ⟨first, hrow, hle⟩ := hstarted
    obtain ⟨period, hmem, hcurrency, rfl⟩ := mem_rows_iff.mp hrow
    exact ⟨period, hmem, hcurrency, hle⟩

theorem noneClosedAfter_iff : NoneClosedAfter books date currency ↔
    ∀ last ∈ (books.register currency).closed, last ≤ date := by
  constructor
  · intro hnone last hlast
    obtain ⟨period, hmem, hcurrency, rfl, hstatus⟩ := mem_closed_iff.mp hlast
    exact hnone period hmem hcurrency hstatus
  · intro hnone period hmem hcurrency hstatus
    exact hnone _ (mem_closed_iff.mpr ⟨period, hmem, hcurrency, rfl, hstatus⟩)

theorem lastClosed_eq_some (hlast : lastClosed books currency due = some date) :
    date ∈ (books.register currency).closed ∧
      ∀ other ∈ (books.register currency).closed, other ≤ due → other ≤ date := by
  obtain ⟨period, hlatest, rfl⟩ := Option.map_eq_some_iff.mp hlast
  have hmem := List.mem_filter.mp (latest_mem hlatest)
  have hperiod := List.mem_filter.mp hmem.1
  constructor
  · exact mem_closed_iff.mpr ⟨period, hperiod.1, (of_decide_eq_true hperiod.2).1, rfl,
      of_decide_eq_true hmem.2⟩
  · intro other hother hdue
    obtain ⟨closed, hclosed, hcurrency, rfl, hstatus⟩ := mem_closed_iff.mp hother
    apply le_latest hlatest
    exact List.mem_filter.mpr ⟨List.mem_filter.mpr ⟨hclosed, decide_eq_true ⟨hcurrency, hdue⟩⟩,
      decide_eq_true hstatus⟩

theorem lastClosed_eq_none (hlast : lastClosed books currency due = none) :
    ∀ other ∈ (books.register currency).closed, ¬ other ≤ due := by
  intro other hother hdue
  obtain ⟨period, hmem, hcurrency, rfl, hstatus⟩ := mem_closed_iff.mp hother
  have hnone := List.filter_eq_nil_iff.mp (latest_eq_none.mp (Option.map_eq_none_iff.mp hlast))
  exact hnone period (List.mem_filter.mpr ⟨hmem, decide_eq_true ⟨hcurrency, hdue⟩⟩)
    (decide_eq_true hstatus)

theorem earliestOpen_eq_some (hopen : earliestOpen books currency due = some date) :
    (date ∈ (books.register currency).rows ∧ date ≤ due) ∧
      ∀ other ∈ (books.register currency).rows, other ∉ (books.register currency).closed →
        other ≤ due → date ≤ other := by
  obtain ⟨period, hearliest, rfl⟩ := Option.map_eq_some_iff.mp hopen
  have hmem := List.mem_filter.mp (earliest_mem hearliest)
  have hperiod := List.mem_filter.mp hmem.1
  have hfacts := of_decide_eq_true hperiod.2
  refine ⟨⟨mem_rows_iff.mpr ⟨period, hperiod.1, hfacts.1, rfl⟩, hfacts.2⟩, ?_⟩
  intro other hother hnotClosed hdue
  obtain ⟨row, hrow, hcurrency, rfl⟩ := mem_rows_iff.mp hother
  apply earliest_le hearliest
  refine List.mem_filter.mpr ⟨List.mem_filter.mpr ⟨hrow, decide_eq_true ⟨hcurrency, hdue⟩⟩, ?_⟩
  apply decide_eq_true
  exact fun hstatus => hnotClosed (mem_closed_iff.mpr ⟨row, hrow, hcurrency, rfl, hstatus⟩)

theorem earliestOpen_eq_none (hopen : earliestOpen books currency due = none) :
    ∀ other ∈ (books.register currency).rows, other ≤ due →
      other ∈ (books.register currency).closed := by
  intro other hother hdue
  obtain ⟨period, hmem, hcurrency, rfl⟩ := mem_rows_iff.mp hother
  have hnone := List.filter_eq_nil_iff.mp (earliest_eq_none.mp (Option.map_eq_none_iff.mp hopen))
  have hstatus := hnone period (List.mem_filter.mpr ⟨hmem, decide_eq_true ⟨hcurrency, hdue⟩⟩)
  rw [decide_eq_true_eq, not_not] at hstatus
  exact mem_closed_iff.mpr ⟨period, hmem, hcurrency, rfl, hstatus⟩

/-- Where a register without gaps has begun by the due date, the start is its first date that is
not closed. -/
theorem overdueStart_of_begun (hgapless : (books.register currency).Gapless)
    (hbegun : (books.register currency).Started due) :
    (books.register currency).InLine (overdueStart books currency due) ∧
      (books.register currency).Started (overdueStart books currency due) ∧
      (overdueStart books currency due ≤ due →
        overdueStart books currency due ∉ (books.register currency).closed) ∧
      ∀ other ≤ due, (books.register currency).Started other →
        other ∉ (books.register currency).closed → overdueStart books currency due ≤ other := by
  unfold overdueStart
  cases hlast : lastClosed books currency due with
  | some last =>
    obtain ⟨hclosed, hgreatest⟩ := lastClosed_eq_some hlast
    refine ⟨hgapless.inLine_succ hclosed, ?_, ?_, ?_⟩
    · exact (Register.Started.of_mem (Register.subset _ hclosed)).mono (lt_add_one last).le
    · intro hdue hnext
      exact absurd (hgreatest _ hnext hdue) (not_le.mpr (lt_add_one last))
    · intro other _ hstarted hopen
      by_contra hless
      rcases (Int.lt_add_one_iff.mp (not_le.mp hless)).eq_or_lt with rfl | hlt
      · exact hopen hclosed
      · exact hopen (hgapless last hclosed other hlt hstarted)
  | none =>
    have hnone := lastClosed_eq_none hlast
    cases hopen : earliestOpen books currency due with
    | none =>
      obtain ⟨first, hrow, hle⟩ := hbegun
      exact absurd hle (hnone first (earliestOpen_eq_none hopen first hrow hle))
    | some open_ =>
      obtain ⟨⟨hrow, hdue⟩, hleast⟩ := earliestOpen_eq_some hopen
      have hfirst : ∀ other ≤ due, (books.register currency).Started other → open_ ≤ other := by
        intro other hother hstarted
        obtain ⟨first, hfirst, hle⟩ := hstarted
        exact (hleast first hfirst (fun hclosed => hnone first hclosed (hle.trans hother))
          (hle.trans hother)).trans hle
      refine ⟨hgapless.inLine_first hrow (fun hclosed => hnone _ hclosed hdue) ?_,
        .of_mem hrow, fun _ hclosed => hnone _ hclosed hdue, fun other hother hstarted _ =>
          hfirst other hother hstarted⟩
      intro earlier hless hstarted
      exact absurd (hfirst earlier (hless.le.trans hdue) hstarted) (not_le.mpr hless)

/-- Otherwise it is the due date. -/
theorem overdueStart_of_not_begun (hbegun : ¬ (books.register currency).Started due) :
    overdueStart books currency due = due := by
  unfold overdueStart
  cases hlast : lastClosed books currency due with
  | some last =>
    obtain ⟨period, hlatest, rfl⟩ := Option.map_eq_some_iff.mp hlast
    have hmem := List.mem_filter.mp (List.mem_filter.mp (latest_mem hlatest)).1
    exact absurd (begun_iff.mp ⟨period, hmem.1, of_decide_eq_true hmem.2⟩) hbegun
  | none =>
    cases hopen : earliestOpen books currency due with
    | none => rfl
    | some first =>
      obtain ⟨⟨hrow, hdue⟩, _⟩ := earliestOpen_eq_some hopen
      exact absurd ⟨first, hrow, hdue⟩ hbegun

end

/-! ## What keeps the dates in order -/

/-- No currency has a gap, and each catch-up under way is at a date that is in line, alone or
past the first period of its currency. -/
structure InOrder (state : State) : Prop where
  agrees : state.books.Agrees
  gapless : ∀ currency, (state.books.register currency).Gapless
  consecutive : ∀ catchUp ∈ state.catchUps.rows,
    ∃ due n, catchUp.rest = datesFrom (catchUp.next + 1) due n
  line : ∀ catchUp ∈ state.catchUps.rows,
    (state.books.register catchUp.key).InLine catchUp.next
  apart : ∀ first ∈ state.catchUps.rows, ∀ second ∈ state.catchUps.rows,
    first.key = second.key → first.instanceId ≠ second.instanceId →
      (state.books.register first.key).Started first.next
  offered : ∀ date currency, (date, currency) ∈ state.offered →
    (state.books.register currency).Started date ∨
      ∃ catchUp ∈ state.catchUps.rows, catchUp.key = currency ∧ catchUp.next ≤ date

/-- A call about the date disturbs no currency and no catch-up. -/
structure Fits (state : State) (date : Date) (currency : String) (dryRun : Bool) : Prop where
  begun : (state.books.register currency).Started date ∨
    (∀ last ∈ (state.books.register currency).closed, last ≤ date) ∧
      ∀ catchUp ∈ state.catchUps.rows, catchUp.key = currency → catchUp.next ≤ date
  line : dryRun = false → (state.books.register currency).InLine date ∧
    ∀ catchUp ∈ state.catchUps.rows, catchUp.key = currency → catchUp.next = date ∨
      (state.books.register currency).Started (min catchUp.next date)

section

variable {state : State} {date : Date} {currency : String}

/-- A close in line enters nothing before its time. -/
theorem Fits.of_line (hline : (state.books.register currency).InLine date)
    (hothers : ∀ catchUp ∈ state.catchUps.rows, catchUp.key = currency → catchUp.next = date ∨
      (state.books.register currency).Started (min catchUp.next date)) :
    Fits state date currency false := by
  refine ⟨?_, fun _ => ⟨hline, hothers⟩⟩
  by_cases hstarted : (state.books.register currency).Started date
  · exact .inl hstarted
  · refine .inr ⟨hline.after fun hclosed => hstarted (.of_mem (Register.subset _ hclosed)), ?_⟩
    intro catchUp hmem hkey
    cases hothers catchUp hmem hkey with
    | inl hsame => exact hsame.le
    | inr hbegun => exact absurd (hbegun.mono (min_le_right _ _)) hstarted

theorem MayCall.fits {dryRun : Bool} (horder : InOrder state)
    (hmay : MayCall state date currency dryRun) : Fits state date currency dryRun := by
  cases dryRun with
  | true =>
    refine ⟨?_, fun hreal => by cases hreal⟩
    exact hmay.imp begun_iff.mp fun h => ⟨noneClosedAfter_iff.mp h.1, h.2⟩
  | false =>
    obtain ⟨hturn, hothers⟩ := hmay
    have hline : (state.books.register currency).InLine date := by
      rcases hturn with hclosed | ⟨hnone, hbefore⟩
      · exact ⟨horder.gapless currency date hclosed, fun hopen => absurd hclosed hopen⟩
      · refine ⟨fun earlier hearlier hstarted => ?_, fun _ => noneClosedAfter_iff.mp hnone⟩
        have hle : earlier ≤ date - 1 := Int.le_sub_one_of_lt hearlier
        rcases hbefore with hprevious | hfirst
        · rcases hle.eq_or_lt with rfl | hlt
          · exact hprevious
          · exact horder.gapless currency _ hprevious earlier hlt hstarted
        · exact absurd (begun_iff.mpr (hstarted.mono hle)) hfirst
    exact .of_line hline fun catchUp hmem hkey =>
      (hothers catchUp hmem hkey).imp id begun_iff.mp

theorem InOrder.call {after : Books} {dryRun : Bool} (horder : InOrder state)
    (hclosing : Closing state.books after date currency dryRun)
    (hfits : Fits state date currency dryRun) : InOrder { state with books := after } := by
  have hkept : ∀ other, (after.register other).Gapless ∧
      (∀ day, (state.books.register other).Started day → (after.register other).Started day) ∧
      ∀ catchUp ∈ state.catchUps.rows, catchUp.key = other →
        (after.register other).InLine catchUp.next := by
    intro other
    have hline : ∀ catchUp ∈ state.catchUps.rows, catchUp.key = other →
        (state.books.register other).InLine catchUp.next := by
      intro catchUp hmem hkey
      rw [← hkey]
      exact horder.line catchUp hmem
    have hsame : after.register other = state.books.register other →
        (after.register other).Gapless ∧
        (∀ day, (state.books.register other).Started day → (after.register other).Started day) ∧
        ∀ catchUp ∈ state.catchUps.rows, catchUp.key = other →
          (after.register other).InLine catchUp.next := by
      intro hregister
      rw [hregister]
      exact ⟨horder.gapless other, fun _ => id, hline⟩
    rcases hclosing.registers with hall | ⟨hothers, hchanged⟩
    · exact hsame (hall other)
    · by_cases hother : other = currency
      · rw [hother] at hline ⊢
        rcases hchanged with hentered | ⟨hreal, hclosed⟩
        · rw [hentered]
          refine ⟨(horder.gapless currency).enter (hfits.begun.imp id And.left),
            fun day hday => hday.enter date, fun catchUp hmem hkey => ?_⟩
          exact (hline catchUp hmem hkey).enter
            (hfits.begun.imp id fun h => h.2 catchUp hmem hkey)
        · obtain ⟨hdate, hcatchUps⟩ := hfits.line hreal
          rw [hclosed]
          exact ⟨(horder.gapless currency).close hdate, fun day hday => hday.close date,
            fun catchUp hmem hkey => (hline catchUp hmem hkey).close hdate
              (hcatchUps catchUp hmem hkey)⟩
      · exact hsame (hothers other hother)
  constructor
  · exact hclosing.agrees
  · exact fun other => (hkept other).1
  · exact horder.consecutive
  · exact fun catchUp hmem => (hkept catchUp.key).2.2 catchUp hmem rfl
  · intro first hfirst second hsecond hkey hne
    exact (hkept first.key).2.1 _ (horder.apart first hfirst second hsecond hkey hne)
  · intro day other hoffered
    exact (horder.offered day other hoffered).imp_left ((hkept other).2.1 day)

theorem mem_withoutCatchUp {instanceId : String} {catchUp : CatchUp} :
    catchUp ∈ (state.withoutCatchUp instanceId).rows ↔
      catchUp ∈ state.catchUps.rows ∧ catchUp.instanceId ≠ instanceId := by
  rw [State.withoutCatchUp, Table.rows_replace, List.append_nil, List.mem_filter]
  simp

/-- A catch-up may end once its currency has begun by its date. -/
theorem InOrder.without (horder : InOrder state) {instanceId : String}
    (hbegun : ∀ catchUp ∈ state.catchUps.rows, catchUp.instanceId = instanceId →
      (state.books.register catchUp.key).Started catchUp.next) :
    InOrder { state with catchUps := state.withoutCatchUp instanceId } := by
  have hmem : ∀ catchUp ∈ (state.withoutCatchUp instanceId).rows,
      catchUp ∈ state.catchUps.rows := fun catchUp h => (mem_withoutCatchUp.mp h).1
  constructor
  · exact horder.agrees
  · exact horder.gapless
  · exact fun catchUp h => horder.consecutive catchUp (hmem catchUp h)
  · exact fun catchUp h => horder.line catchUp (hmem catchUp h)
  · exact fun first hfirst second hsecond =>
      horder.apart first (hmem first hfirst) second (hmem second hsecond)
  · intro day other hoffered
    rcases horder.offered day other hoffered with hstarted | ⟨catchUp, hcatchUp, rfl, hle⟩
    · exact .inl hstarted
    · by_cases hgone : catchUp.instanceId = instanceId
      · exact .inl ((hbegun catchUp hcatchUp hgone).mono hle)
      · exact .inr ⟨catchUp, mem_withoutCatchUp.mpr ⟨hcatchUp, hgone⟩, rfl, hle⟩

/-- A catch-up moves on from a date that is closed. -/
theorem InOrder.advance (horder : InOrder state) {catchUp : CatchUp} {outcome : Outcome}
    (hmem : catchUp ∈ state.catchUps.rows)
    (hbegun : (state.books.register catchUp.key).Started catchUp.next)
    (hclosed : outcome = .closed → catchUp.next ∈ (state.books.register catchUp.key).closed) :
    InOrder { state with catchUps := state.advance catchUp outcome } := by
  have hsame : ∀ other ∈ state.catchUps.rows, other.instanceId = catchUp.instanceId →
      other = catchUp := fun other hother hid => state.catchUps.eq_of_key_eq hother hmem hid
  have hended : InOrder { state with catchUps := state.withoutCatchUp catchUp.instanceId } := by
    apply horder.without
    intro other hother hid
    rw [hsame other hother hid]
    exact hbegun
  unfold State.advance
  split
  case h_2 => exact hended
  case h_1 date rest hrest =>
    obtain ⟨due, n, hdates⟩ := horder.consecutive catchUp hmem
    -- the next date of the list is the day after
    obtain ⟨rfl, hrest'⟩ : date = catchUp.next + 1 ∧
        ∃ m, rest = datesFrom (catchUp.next + 1 + 1) due m := by
      rw [hrest] at hdates
      cases n with
      | zero => cases hdates
      | succ m =>
        unfold datesFrom at hdates
        split at hdates
        · cases hdates
          exact ⟨rfl, m, rfl⟩
        · cases hdates
    have hrows : ∀ row ∈ (state.catchUps.modify catchUp.instanceId
        (fun catchUp' => { catchUp' with next := catchUp.next + 1, rest := rest })
          fun _ => rfl).rows,
        row = { catchUp with next := catchUp.next + 1, rest := rest } ∨
          row ∈ state.catchUps.rows ∧ row.instanceId ≠ catchUp.instanceId := by
      intro row hrow
      obtain ⟨old, hold, rfl⟩ := List.mem_map.mp hrow
      by_cases hid : old.instanceId = catchUp.instanceId
      · left
        rw [if_pos hid, hsame old hold hid]
      · right
        rw [if_neg hid]
        exact ⟨hold, hid⟩
    have hnew : (state.books.register catchUp.key).Started (catchUp.next + 1) :=
      hbegun.mono (lt_add_one catchUp.next).le
    constructor
    · exact horder.agrees
    · exact horder.gapless
    · intro row hrow
      rcases hrows row hrow with rfl | ⟨hold, _⟩
      · obtain ⟨m, hm⟩ := hrest'
        exact ⟨due, m, hm⟩
      · exact horder.consecutive row hold
    · intro row hrow
      rcases hrows row hrow with rfl | ⟨hold, _⟩
      · exact (horder.gapless catchUp.key).inLine_succ (hclosed rfl)
      · exact horder.line row hold
    · intro first hfirst second hsecond hkey hne
      rcases hrows first hfirst with rfl | ⟨hfirstOld, hfirstId⟩
      · exact hnew
      · rcases hrows second hsecond with rfl | ⟨hsecondOld, _⟩
        · exact horder.apart first hfirstOld catchUp hmem hkey hfirstId
        · exact horder.apart first hfirstOld second hsecondOld hkey hne
    · intro day other hoffered
      rcases hended.offered day other hoffered with hstarted | ⟨row, hrow, hkey, hle⟩
      · exact .inl hstarted
      · obtain ⟨hold, hid⟩ := mem_withoutCatchUp.mp hrow
        refine .inr ⟨row, List.mem_map.mpr ⟨row, hold, if_neg hid⟩, hkey, hle⟩

/-- An attempt fits, and ends with its currency begun. -/
theorem InOrder.attempt (horder : InOrder state) {catchUp : CatchUp}
    (hmem : catchUp ∈ state.catchUps.rows) (correlationId : Option String) (now : ℤ)
    (work : PendingWork) (fault : Option Fault)
    (hguard : Begun state.books catchUp.next catchUp.key ∨
      Arrives state catchUp correlationId now work fault) :
    InOrder (state.attempt catchUp correlationId now work fault) := by
  obtain ⟨hclosing, harrives, hcloses⟩ := runOne_closing horder.agrees
    (catchUp.input correlationId now) work fault
  have hfits : Fits state catchUp.next catchUp.key false := by
    apply Fits.of_line (horder.line catchUp hmem)
    intro other hother hkey
    by_cases hid : other.instanceId = catchUp.instanceId
    · exact .inl (congrArg CatchUp.next (state.catchUps.eq_of_key_eq hother hmem hid))
    · right
      have hfirst := horder.apart other hother catchUp hmem hkey hid
      have hsecond := horder.apart catchUp hmem other hother hkey.symm (Ne.symm hid)
      rw [hkey] at hfirst
      rcases min_choice other.next catchUp.next with hmin | hmin
      · rw [hmin]
        exact hfirst
      · rw [hmin]
        exact hsecond
  have hcalled := horder.call hclosing hfits
  have hbegun : ((runOne state.books (catchUp.input correlationId now) work fault).1.register
      catchUp.key).Started catchUp.next := by
    rcases hguard with hbegun | ⟨hfault, hready, htarget⟩
    · obtain ⟨first, hrow, hle⟩ := begun_iff.mp hbegun
      rcases hclosing.registers with hall | ⟨_, hchanged⟩
      · rw [hall]
        exact ⟨first, hrow, hle⟩
      · rcases hchanged with hentered | ⟨_, hclosed⟩
        · exact ⟨first, hentered ▸ .inr hrow, hle⟩
        · exact ⟨first, hclosed ▸ .inr hrow, hle⟩
    · exact .of_mem (harrives hfault hready (Option.isSome_iff_ne_none.mp htarget))
  exact hcalled.advance hmem hbegun hcloses

/-- A tick begins with the first date that is not closed. -/
theorem InOrder.tick {after : State} (horder : InOrder state) {instanceId currency : String}
    {due : Date} {setting : Option ℤ}
    (hguard : Begun state.books due currency.toUpper ∧ state.Anchored currency.toUpper ∨
      (∀ period ∈ state.books.periods.rows, period.currency = currency.toUpper →
        period.status ≠ .closed) ∧
      ∀ catchUp ∈ state.catchUps.rows, catchUp.key ≠ currency.toUpper)
    (htick : state.tick instanceId currency due setting = some after) : InOrder after := by
  unfold State.tick at htick
  cases hdates : overdueDates state.books currency.toUpper due setting with
  | nil =>
    rw [hdates] at htick
    cases htick
    exact horder
  | cons date rest =>
    rw [hdates] at htick
    obtain ⟨catchUps, hinsert, rfl⟩ := Option.map_eq_some_iff.mp htick
    obtain ⟨_, hrows⟩ := Table.insert?_eq_some hinsert
    -- the loop begins at the start
    obtain ⟨hstart, n, hrest⟩ : date = overdueStart state.books currency.toUpper due ∧
        ∃ n, rest = datesFrom (date + 1) due n := by
      unfold overdueDates at hdates
      cases hmax : maxDays setting with
      | zero =>
        rw [hmax] at hdates
        cases hdates
      | succ m =>
        rw [hmax, datesFrom] at hdates
        split at hdates
        · cases hdates
          exact ⟨rfl, m, rfl⟩
        · cases hdates
    have hline : (state.books.register currency.toUpper).InLine date := by
      rw [hstart]
      by_cases hbegun : (state.books.register currency.toUpper).Started due
      · exact (overdueStart_of_begun (horder.gapless _) hbegun).1
      · rw [overdueStart_of_not_begun hbegun]
        apply Register.inLine_of_not_started hbegun
        intro last hlast
        rcases hguard with ⟨hstarted, _⟩ | ⟨hnone, _⟩
        · exact absurd (begun_iff.mp hstarted) hbegun
        · obtain ⟨period, hmem, hcurrency, _, hstatus⟩ := mem_closed_iff.mp hlast
          exact absurd hstatus (hnone period hmem hcurrency)
    have hothers : ∀ other ∈ state.catchUps.rows, other.key = currency.toUpper →
        (state.books.register other.key).Started other.next ∧
          (state.books.register currency.toUpper).Started date := by
      intro other hother hkey
      rcases hguard with ⟨hbegun, hanchored⟩ | ⟨_, hnone⟩
      · rw [hkey, hstart]
        exact ⟨begun_iff.mp (hanchored other hother hkey),
          (overdueStart_of_begun (horder.gapless _) (begun_iff.mp hbegun)).2.1⟩
      · exact absurd hkey (hnone other hother)
    have hmem : ∀ row ∈ catchUps.rows, row ∈ state.catchUps.rows ∨
        row = { instanceId := instanceId, currency := currency, next := date, rest := rest } := by
      intro row hrow
      rw [hrows] at hrow
      exact (List.mem_append.mp hrow).imp_right List.mem_singleton.mp
    have hkept : ∀ row ∈ state.catchUps.rows, row ∈ catchUps.rows := by
      intro row hrow
      rw [hrows]
      exact List.mem_append_left _ hrow
    constructor
    · exact horder.agrees
    · exact horder.gapless
    · intro row hrow
      rcases hmem row hrow with hold | rfl
      · exact horder.consecutive row hold
      · exact ⟨due, n, hrest⟩
    · intro row hrow
      rcases hmem row hrow with hold | rfl
      · exact horder.line row hold
      · exact hline
    · intro first hfirst second hsecond hkey hne
      rcases hmem first hfirst with hfirstOld | rfl
      · rcases hmem second hsecond with hsecondOld | rfl
        · exact horder.apart first hfirstOld second hsecondOld hkey hne
        · exact (hothers first hfirstOld hkey).1
      · rcases hmem second hsecond with hsecondOld | rfl
        · exact (hothers second hsecondOld hkey.symm).2
        · exact absurd rfl hne
    · intro day other hoffered
      rcases List.mem_append.mp hoffered with hnew | hold
      · right
        refine ⟨_, by rw [hrows]; exact List.mem_append_right _ (List.mem_singleton_self _), ?_⟩
        obtain ⟨offered, hday, hpair⟩ := List.mem_map.mp hnew
        cases hpair
        rw [← hdates, overdueDates, mem_datesFrom, ← hstart] at hday
        exact ⟨rfl, hday.1⟩
      · refine (horder.offered day other hold).imp_right fun hrow => ?_
        obtain ⟨row, hrow, hkey, hle⟩ := hrow
        exact ⟨row, hkept row hrow, hkey, hle⟩

/-- Every admitted event keeps the dates in order. -/
theorem InOrder.step {after : State} {event : Event} (horder : InOrder state)
    (hguard : Guarded state event) (hstep : step state event = some after) : InOrder after := by
  cases event with
  | tick instanceId currency localDate minutes closureMinutes setting =>
    exact horder.tick hguard hstep
  | attempt instanceId correlationId now work fault =>
    obtain ⟨catchUp, hfind, rfl⟩ := Option.map_eq_some_iff.mp hstep
    obtain ⟨hmem, hid⟩ := Table.find?_eq_some.mp hfind
    exact horder.attempt hmem correlationId now work fault (hguard catchUp hmem hid)
  | restart instanceId =>
    cases hstep
    exact horder.without fun catchUp hmem hid => begun_iff.mp (hguard catchUp hmem hid)
  | manual input work fault =>
    cases hstep
    exact horder.call (runOne_closing horder.agrees input work fault).1 (hguard.fits horder)
  | other books =>
    cases hstep
    have hregister : ∀ currency, ({ books with
        periods := state.books.periods, runs := state.books.runs } : Books).register currency =
          state.books.register currency := Books.register_congr rfl
    constructor
    · intro date currency
      exact horder.agrees date currency
    all_goals simp only [hregister]
    · exact horder.gapless
    · exact horder.consecutive
    · exact horder.line
    · exact horder.apart
    · exact horder.offered

theorem Fresh.inOrder (hfresh : Fresh state) : InOrder state := by
  have hrows : ∀ currency date, date ∉ (state.books.register currency).rows := by
    intro currency date hrow
    obtain ⟨period, hmem, _⟩ := mem_rows_iff.mp hrow
    rw [hfresh.periods] at hmem
    cases hmem
  constructor
  · intro date currency
    rw [← Books.mem_closed_register, ne_eq, Books.completedRun_eq_none, hfresh.runs]
    simp only [List.not_mem_nil, false_implies, implies_true, not_true_eq_false, iff_false]
    exact fun hclosed => hrows currency date (Register.subset _ hclosed)
  · exact fun currency last hlast => absurd (Register.subset _ hlast) (hrows currency last)
  all_goals simp [hfresh.catchUps, hfresh.offered]

theorem InOrder.noneSkipped (horder : InOrder state) : NoneSkipped state := by
  constructor
  · intro currency first date last hfirst hle hlt hlast
    refine horder.gapless currency last hlast date hlt ⟨first, ?_, hle⟩
    exact fun hnone => hfirst (Option.map_eq_none_iff.mp hnone)
  · intro currency due setting hanchored date hdue hmissing hwithin
    -- with every catch-up past the first period, so is every date that was offered
    have hstarted : (state.books.register currency).Started date := by
      rcases hmissing.2 with hbegun | hoffered
      · exact begun_iff.mp hbegun
      · rcases horder.offered date currency hoffered with hstarted | ⟨catchUp, hmem, hkey, hle⟩
        · exact hstarted
        · exact (begun_iff.mp (hanchored catchUp hmem hkey)).mono hle
    obtain ⟨_, hbegun, hopen, hfirst⟩ :=
      overdueStart_of_begun (horder.gapless currency) (hstarted.mono hdue)
    have hle := hfirst date hdue hstarted hmissing.1
    rw [overdueDates, mem_datesFrom]
    exact ⟨hle, hdue, hwithin _ hle ⟨hopen (hle.trans hdue), .inl (begun_iff.mpr hbegun)⟩⟩

end

/-! ## Runs -/

/-- In every run that keeps to the conditions no date is skipped. -/
theorem no_date_skipped {start state : State} (hfresh : Fresh start)
    (hrun : ReachesUnder step Guarded start state) : NoneSkipped state := by
  apply InOrder.noneSkipped
  apply ReachesUnder.preserves InOrder _ hrun hfresh.inOrder
  intro before event after horder hguard hstep
  exact horder.step hguard hstep

/-- The schedule over a safeguarding wallet and its funding source. -/
def opening : State := { books := founding.books }

theorem opening_fresh : Fresh opening := ⟨rfl, rfl, rfl, rfl⟩

/-- A batch over a currency with a configuration and one without. -/
theorem runAll_answers_opening :
    let batch := runAll opening.books { businessDate := 5, currency := "" }
      [("GBP", true), ("USD", false)] fun _ => ({}, none)
    Answers opening.books batch.1 { businessDate := 5, currency := "" }
      [("GBP", true), ("USD", false)] batch.2 :=
  runAll_answers opening_fresh.inOrder.agrees _ _ _

/-- The tick of day 7 closes day 5, and a further date is closed by hand. -/
def closeByHand (date : Date) : List Event :=
  [.tick "scheduler" "GBP" 7 0 300 none, .attempt "scheduler" none 0 {} none,
    .manual { businessDate := date, currency := "GBP" } {} none]

/-- Day 6 can be closed by hand after day 5; the tick of day 9 then offers day 7. -/
theorem no_date_skipped_in_turn :
    ∃ state, ReachesUnder step Guarded opening state ∧
      state.books.periodStatus 6 "GBP" = some .closed ∧
      overdueDates state.books "GBP" (latestDueDate 9 0 300) none = [7] ∧ NoneSkipped state := by
  have hany : (runInputs (guardedStep step Guarded) opening (closeByHand 6)).any (fun state =>
      state.books.periodStatus 6 "GBP" = some .closed ∧
        overdueDates state.books "GBP" (latestDueDate 9 0 300) none = [7]) := by
    decide +kernel
  obtain ⟨state, hrun, hfacts⟩ := (Option.any_eq_true _ _).mp hany
  obtain ⟨hclosed, hdates⟩ := of_decide_eq_true hfacts
  have hreach := (Reaches.of_runInputs hrun).under
  exact ⟨state, hreach, hclosed, hdates, no_date_skipped opening_fresh hreach⟩

/-- Day 7 can be closed by hand although day 6 is open; no later tick offers day 6. -/
theorem day_skipped :
    Fresh opening ∧ ∃ state, Reaches step opening state ∧
      state.books.periodStatus 5 "GBP" = some .closed ∧
      state.books.periodStatus 7 "GBP" = some .closed ∧
      state.books.periodStatus 6 "GBP" ≠ some .closed ∧
      overdueDates state.books "GBP" (latestDueDate 9 0 300) none = [] ∧ ¬ NoneSkipped state := by
  refine ⟨opening_fresh, ?_⟩
  have hany : (runInputs step opening (closeByHand 7)).any (fun state =>
      state.books.periodStatus 5 "GBP" = some .closed ∧
      state.books.periodStatus 7 "GBP" = some .closed ∧
      state.books.periodStatus 6 "GBP" ≠ some .closed ∧
      overdueDates state.books "GBP" (latestDueDate 9 0 300) none = []) := by
    decide +kernel
  obtain ⟨state, hrun, hfacts⟩ := (Option.any_eq_true _ _).mp hany
  obtain ⟨hfifth, hseventh, hsixth, hdates⟩ := of_decide_eq_true hfacts
  refine ⟨state, Reaches.of_runInputs hrun, hfifth, hseventh, hsixth, hdates, fun hnone => ?_⟩
  apply hsixth
  apply hnone.closed "GBP" 5 6 7 _ (by decide) (by decide) hseventh
  intro hperiod
  rw [Books.periodStatus, hperiod] at hfifth
  cases hfifth

end Finify.Eod.Scheduler
