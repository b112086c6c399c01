/-
# Completed batches

Where every call of the procedure that passes comes last of the configured currencies, and
every dry run finds the batch as it is going to leave it, a completed batch stands for a date
that is closed in every configured currency.
-/

import Finify.Eod.Batches

namespace Finify.Eod.Batches

open Finify.Foundations

/-! ## What is kept -/

/-- What a call under way has recorded is so in the database: the currencies it counts as
closed are closed, a real call has passed its readiness, and the run of a dry call is one. -/
structure JobKept (books : Books) (job : Job) : Prop where
  items : job.input.dryRun = false → ∀ item ∈ job.items, item.status = .closed →
    books.periodStatus job.input.businessDate item.currency.toUpper = some .closed
  ready : job.input.dryRun = false → ∀ currency checks, job.progress = .checked currency checks →
    isReady checks = true
  real : job.input.dryRun = false → ∀ currency checks result,
    job.progress = .closed currency checks result → isReady checks = true ∧
      (result.statusCode.success →
        books.periodStatus job.input.businessDate currency.toUpper = some .closed)
  dry : job.input.dryRun = true → ∀ currency checks result,
    job.progress = .closed currency checks result → ∀ version ∈ result.runVersion,
      ∃ run ∈ books.runs.rows,
        run.key = (job.input.businessDate, currency.toUpper, version) ∧ run.dryRun = true

/-- The invariant of the runs. -/
structure Kept (state : State) : Prop where
  agrees : state.books.Agrees
  jobs : ∀ job ∈ state.jobs, JobKept state.books job
  completed : ∀ date, batchOf state.books date = some .completed → OthersClosed state date none

section

variable {before after books : Books} {job : Job}

theorem JobKept.mono (hkept : JobKept before job) (hgrows : Grows before after) :
    JobKept after job := by
  constructor
  · intro hreal item hitem hclosed
    exact hgrows.closed _ _ (hkept.items hreal item hitem hclosed)
  · exact hkept.ready
  · intro hreal currency checks result hprogress
    obtain ⟨hready, hcloses⟩ := hkept.real hreal currency checks result hprogress
    exact ⟨hready, fun hsuccess => hgrows.closed _ _ (hcloses hsuccess)⟩
  · intro hdry currency checks result hprogress version hversion
    obtain ⟨run, hrun, hkey, hdryRun⟩ :=
      hkept.dry hdry currency checks result hprogress version hversion
    obtain ⟨kept, hmem, hsame, hsameDry⟩ := hgrows.runs run hrun
    exact ⟨kept, hmem, hsame.trans hkey, hsameDry.trans hdryRun⟩

/-- A call that goes on keeps what it had recorded, with an item that is right. -/
theorem JobKept.next (hkept : JobKept books job) {item : Item} {further : Job}
    (hitem : job.input.dryRun = false → item.status = .closed →
      books.periodStatus job.input.businessDate item.currency.toUpper = some .closed)
    (hnext : job.next item = some further) : JobKept books further := by
  unfold Job.next at hnext
  split at hnext
  · cases hnext
    constructor
    · intro hreal other hother hclosed
      cases List.mem_append.mp hother with
      | inl hold => exact hkept.items hreal other hold hclosed
      | inr hnew =>
        rw [List.mem_singleton.mp hnew] at hclosed ⊢
        exact hitem hreal hclosed
    · intro _ _ _ hprogress
      cases hprogress
    · intro _ _ _ _ hprogress
      cases hprogress
    · intro _ _ _ _ hprogress
      cases hprogress
  · cases hnext

/-- A call that begins has recorded nothing. -/
theorem JobKept.begin (input : CloseInput) (whole : Bool) (rest : List (String × Bool)) :
    JobKept books { input := input, whole := whole, rest := rest } := by
  constructor
  · intro _ _ hitem
    cases hitem
  · intro _ _ _ hprogress
    cases hprogress
  · intro _ _ _ _ hprogress
    cases hprogress
  · intro _ _ _ _ hprogress
    cases hprogress

/-- Dropping currencies that are left does not matter. -/
theorem JobKept.of_rest (hkept : JobKept books job) (rest : List (String × Bool)) :
    JobKept books { job with rest := rest } :=
  ⟨hkept.items, hkept.ready, hkept.real, hkept.dry⟩

/-- `persistReadiness` leaves periods and configurations, and runs the dry or real runs they
are. -/
theorem grows_persistReadiness (books : Books) (date : Date) (currency : String)
    (version : Option ℕ) (checks : List Check) :
    Grows books (books.persistReadiness date currency version checks) := by
  cases version with
  | none => exact .refl books
  | some version =>
    constructor
    · exact fun _ _ hclosed => hclosed
    · intro run hrun
      refine ⟨_, List.mem_map_of_mem hrun, ?_⟩
      split
      · exact ⟨rfl, rfl⟩
      · exact ⟨rfl, rfl⟩
    · rfl

theorem batchOf_persistReadiness (books : Books) (date : Date) (currency : String)
    (version : Option ℕ) (checks : List Check) (day : Date) :
    batchOf (books.persistReadiness date currency version checks) day =
      if version ≠ none ∧ isReady checks = false ∧ day = date then
        (batchOf books day).map fun _ => .failed
      else batchOf books day := by
  cases version with
  | none => simp [Books.persistReadiness]
  | some version =>
    cases hready : isReady checks with
    | true => simp [Books.persistReadiness, hready, batchOf]
    | false =>
      rw [batchOf, Books.persistReadiness]
      simp only [hready, Bool.false_eq_true, if_false, Table.find?_modify]
      by_cases hday : day = date
      · simp [hday, batchOf, Option.map_map, Function.comp_def]
      · simp [hday, batchOf]

/-- `persistReadiness` of a call under way keeps periods and completed runs together. -/
theorem agrees_persistReadiness (hagrees : books.Agrees) (hkept : JobKept books job)
    {currency : String} {checks : List Check} {result : CloseResult}
    (hprogress : job.progress = .closed currency checks result) :
    (books.persistReadiness job.input.businessDate currency.toUpper result.runVersion
      checks).Agrees := by
  have hblocked : ∀ run, result.runVersion.bind (fun version =>
      books.runs.find? (job.input.businessDate, currency.toUpper, version)) = some run →
        isReady checks ∨ run.dryRun := by
    intro run hrun
    obtain ⟨version, hversion, hfind⟩ := Option.bind_eq_some_iff.mp hrun
    cases hdry : job.input.dryRun with
    | false => exact .inl (hkept.real hdry currency checks result hprogress).1
    | true =>
      obtain ⟨other, hother, hkey, hotherDry⟩ :=
        hkept.dry hdry currency checks result hprogress version hversion
      rw [Table.eq_of_key_eq _ (Table.find?_eq_some.mp hfind).1 hother
        ((Table.find?_eq_some.mp hfind).2.trans hkey.symm)]
      exact .inr hotherDry
  intro day other
  rw [Ne, Books.completedRun_persistReadiness hblocked, ← Ne, ← hagrees day other,
    ← Books.mem_closed_register, Books.register_persistReadiness, Books.mem_closed_register]

end

/-! ## A call of the procedure -/

section

variable {state after : State} {books : Books} {request : CloseRequest} {result : CloseResult}

theorem OthersClosed.grow {date : Date} {exempt : Option String}
    (hclosed : OthersClosed state date exempt) (hgrows : Grows state.books books) :
    OthersClosed { state with books := books } date exempt := by
  intro currency hcurrency hother
  rw [show configuredOn books state.today = _ from hgrows.configuredOn state.today] at hcurrency
  exact hgrows.closed _ _ (hclosed currency hcurrency hother)

/-- A call that may be made completes the batch of a date only when all is closed. -/
theorem completed_of_call (hkept : Kept state) (hmay : MayCall state request)
    (heffect : CallEffect state.books request books result) (date : Date)
    (hbatch : batchOf books date = some .completed) :
    OthersClosed { state with books := books } date none := by
  rcases heffect.batches with hsame | ⟨about, habout, hopen, hothers, hpasses, hfails⟩
  · rw [hsame] at hbatch
    exact (hkept.completed date hbatch).grow heffect.grows
  · by_cases hdate : date = about.1
    · subst hdate
      by_cases hclears : Clears state.books about.1 about.2.1 about.2.2 request.dryRun
      · have hcall := hmay about habout
        cases hdry : request.dryRun with
        | true =>
          rw [if_pos hdry] at hcall
          rw [hdry] at hclears
          cases hbefore : batchOf state.books about.1 with
          | none =>
            rw [hbefore] at hcall
            exact (hcall hclears).grow heffect.grows
          | some status =>
            rw [hbefore] at hcall
            rcases hcall with ⟨hcompleted, _⟩ | ⟨_, hblocked⟩
            · rw [hcompleted] at hbefore
              exact (hkept.completed about.1 hbefore).grow heffect.grows
            · exact absurd hclears hblocked
        | false =>
          rw [if_neg (by simp [hdry])] at hcall
          have hnone : state.books.completedRun about.1 about.2.1 = none := by
            cases hopen with
            | inl hrehearsal =>
              rw [hdry] at hrehearsal
              cases hrehearsal
            | inr hnone => exact hnone
          have hown := (hpasses hclears).2 hdry
          rw [hdry] at hclears
          have hlast := (hcall hnone hclears).grow heffect.grows
          intro currency hcurrency _
          by_cases hsame : currency = about.2.1
          · rw [hsame]
            exact hown
          · exact hlast currency hcurrency fun heq => hsame (Option.some.inj heq)
      · rw [hfails hclears] at hbatch
        cases hbatch
    · rw [hothers date hdate] at hbatch
      exact (hkept.completed date hbatch).grow heffect.grows

/-- A dry run that may be made leaves the status of every batch. -/
theorem keepsBatches_of_call (hmay : MayCall state request) (hdry : request.dryRun = true)
    (heffect : CallEffect state.books request books result) : KeepsBatches state.books books := by
  intro date status hbatch
  rcases heffect.batches with hsame | ⟨about, habout, _, hothers, hpasses, hfails⟩
  · rw [hsame]
    exact hbatch
  · by_cases hdate : date = about.1
    · subst hdate
      have hcall := hmay about habout
      rw [if_pos hdry, hbatch] at hcall
      rw [hdry] at hpasses hfails
      rcases hcall with ⟨hcompleted, hclears⟩ | ⟨hfailed, hblocked⟩
      · rw [hcompleted]
        exact (hpasses hclears).1
      · rw [hfailed]
        exact hfails hblocked
    · rw [hothers date hdate]
      exact hbatch

/-- A call of the procedure that may be made keeps the invariant. -/
theorem Kept.call (hkept : Kept state) (hmay : MayCall state request)
    (heffect : CallEffect state.books request books result) :
    Kept { state with books := books } := by
  constructor
  · exact heffect.agrees
  · intro job hjob
    exact (hkept.jobs job hjob).mono heffect.grows
  · exact completed_of_call hkept hmay heffect

/-! ## Steps -/

/-- A call under way that goes on with what it has recorded keeps the invariant. -/
theorem Kept.put (hkept : Kept state) (job : Job) {next : Option Job}
    (hnext : ∀ further ∈ next, JobKept state.books further) : Kept (state.put job next) := by
  constructor
  · exact hkept.agrees
  · intro other hother
    cases List.mem_append.mp hother with
    | inl hnew => exact hnext other (Option.mem_toList.mp hnew)
    | inr hold => exact hkept.jobs other (List.mem_of_mem_erase hold)
  · exact hkept.completed

theorem Kept.begin (hkept : Kept state) (input : CloseInput) (whole : Bool)
    (rest : List (String × Bool)) :
    Kept { state with
      jobs := { input := input, whole := whole, rest := rest } :: state.jobs } := by
  constructor
  · exact hkept.agrees
  · intro job hjob
    cases List.mem_cons.mp hjob with
    | inl hnew =>
      rw [hnew]
      exact .begin input whole rest
    | inr hold => exact hkept.jobs job hold
  · exact hkept.completed

/-- Midnight keeps the invariant when what is configured from then on is closed. -/
theorem Kept.midnight (hkept : Kept state) (hcareful : Careful state .midnight) :
    Kept { state with today := state.today + 1 } := by
  constructor
  · exact hkept.agrees
  · exact hkept.jobs
  · intro date hbatch currency hcurrency _
    obtain ⟨batch, hfind, hstatus⟩ := Option.map_eq_some_iff.mp hbatch
    obtain ⟨hrow, hdate⟩ := Table.find?_eq_some.mp hfind
    rw [← hdate]
    exact hcareful batch hrow hstatus currency hcurrency

/-- Reading the readiness of a currency keeps the invariant. -/
theorem Kept.check (hkept : Kept state) {job : Job} {work : PendingWork} (hjob : job ∈ state.jobs)
    (hstep : state.check job work = some after) : Kept after := by
  have hjobKept := hkept.jobs job hjob
  unfold State.check at hstep
  split at hstep
  case h_1 currency rest hprogress hrest =>
    cases hstep
    apply hkept.put job
    intro further hfurther
    cases hfurther
    constructor
    · intro hreal item hitem hclosed
      cases List.mem_append.mp hitem with
      | inl hold => exact hjobKept.items hreal item hold hclosed
      | inr hnew =>
        rw [List.mem_singleton.mp hnew] at hclosed
        cases hclosed
    · exact hjobKept.ready
    · exact hjobKept.real
    · exact hjobKept.dry
  case h_2 currency rest hprogress hrest =>
    dsimp only at hstep
    split at hstep
    · cases hstep
      apply hkept.put job
      intro further hfurther
      exact (hjobKept.of_rest rest).next (fun _ hclosed => by cases hclosed) hfurther
    case isFalse hpassed =>
      cases hstep
      apply hkept.put job
      intro further hfurther
      cases hfurther
      constructor
      · exact hjobKept.items
      · intro hreal _ _ hchecked
        cases hchecked
        by_contra hfailed
        exact hpassed ⟨hreal, (Bool.not_eq_true _).mp hfailed⟩
      · intro _ _ _ _ hclosed
        cases hclosed
      · intro _ _ _ _ hclosed
        cases hclosed
  case h_3 => cases hstep

/-- The procedure is called for the date, the currency and the kind of the call. -/
theorem request_inputFor (job : Job) (currency : String) :
    (job.inputFor currency).request.businessDate = some job.input.businessDate ∧
      (job.inputFor currency).request.currency = some currency.toUpper ∧
      (job.inputFor currency).request.dryRun = job.input.dryRun := by
  unfold Job.inputFor
  split
  · exact ⟨rfl, rfl, rfl⟩
  · exact ⟨rfl, rfl, rfl⟩

/-- A call of the procedure within `runOne` keeps the invariant. -/
theorem Kept.close (hkept : Kept state) {job : Job} (hjob : job ∈ state.jobs)
    (hcareful : Careful state (.close job)) (hstep : state.close job = some after) :
    Kept after := by
  have hjobKept := hkept.jobs job hjob
  cases hprogress : job.progress with
  | idle => simp [State.close, hprogress] at hstep
  | closed currency checks result => simp [State.close, hprogress] at hstep
  | checked currency checks =>
    simp only [State.close, hprogress, Option.some.injEq] at hstep
    simp only [Careful, hprogress] at hcareful
    obtain ⟨hdate, hcurrency, hdryRun⟩ := request_inputFor job currency
    have heffect := closeEod_effect hkept.agrees (job.inputFor currency).request
    subst hstep
    apply (hkept.call hcareful heffect).put job
    intro further hfurther
    cases hfurther
    constructor
    · exact (hjobKept.mono heffect.grows).items
    · intro _ _ _ hchecked
      cases hchecked
    · intro hreal _ _ _ hclosed
      cases hclosed
      exact ⟨hjobKept.ready hreal currency checks hprogress, fun hsuccess =>
        heffect.succeeds (hdryRun.trans hreal) hsuccess _ _ hdate hcurrency⟩
    · intro hdry _ _ _ hclosed version hversion
      cases hclosed
      exact heffect.recorded (hdryRun.trans hdry) version hversion _ _ hdate hcurrency

/-- The end of `runOne` keeps the invariant. -/
theorem Kept.persist (hkept : Kept state) {job : Job} (hjob : job ∈ state.jobs)
    (hstep : state.persist job = some after) : Kept after := by
  have hjobKept := hkept.jobs job hjob
  cases hprogress : job.progress with
  | idle => simp [State.persist, hprogress] at hstep
  | checked currency checks => simp [State.persist, hprogress] at hstep
  | closed currency checks result =>
    simp only [State.persist, hprogress, Option.some.injEq] at hstep
    have hgrows := grows_persistReadiness state.books job.input.businessDate currency.toUpper
      result.runVersion checks
    have hpersisted : Kept { state with
        books := state.books.persistReadiness job.input.businessDate currency.toUpper
          result.runVersion checks } := by
      constructor
      · exact agrees_persistReadiness hkept.agrees hjobKept hprogress
      · intro other hother
        exact (hkept.jobs other hother).mono hgrows
      · intro date hbatch
        apply OthersClosed.grow (hkept.completed date _) hgrows
        rw [batchOf_persistReadiness] at hbatch
        split at hbatch
        · obtain ⟨_, _, hfailed⟩ := Option.map_eq_some_iff.mp hbatch
          cases hfailed
        · exact hbatch
    subst hstep
    apply hpersisted.put job
    intro further hfurther
    apply (hjobKept.mono hgrows).next _ hfurther
    intro hreal hclosed
    obtain ⟨hready, hcloses⟩ := hjobKept.real hreal currency checks result hprogress
    apply hgrows.closed
    apply hcloses
    -- the item counts as closed only when the procedure has succeeded
    by_contra hfailed
    simp [hready, hfailed] at hclosed

/-- An exception keeps the invariant. -/
theorem Kept.fail (hkept : Kept state) {job : Job} (hjob : job ∈ state.jobs)
    (hstep : state.fail job = some after) : Kept after := by
  have hjobKept := hkept.jobs job hjob
  have hput : ∀ currency, Kept (state.put job (job.next ⟨currency, true, .failed⟩)) := by
    intro currency
    apply hkept.put job
    intro further hfurther
    exact hjobKept.next (fun _ hclosed => by cases hclosed) hfurther
  cases hprogress : job.progress with
  | idle => simp [State.fail, hprogress] at hstep
  | checked currency checks | closed currency checks result =>
    simp only [State.fail, hprogress, Option.some.injEq] at hstep
    exact hstep ▸ hput currency

/-- A batch is summed up as completed only when every currency counts. -/
theorem all_of_batchStatus {dryRun : Bool} {statuses : List ItemStatus}
    (hcompleted : batchStatus dryRun statuses = .completed) :
    ∀ status ∈ statuses, status = if dryRun then .ready else .closed := by
  generalize hcounted : (if dryRun then ItemStatus.ready else .closed) = counted
  rw [batchStatus, hcounted] at hcompleted
  split at hcompleted
  case isTrue hall =>
    intro status hstatus
    exact (List.count_eq_length.mp hall.1 status hstatus).symm
  case isFalse => split at hcompleted <;> cases hcompleted

/-- The status of the batch of a date after the summary of `runAll`. -/
theorem batchOf_finish {books : Books} (date : Date) (status : BatchStatus) (now : ℤ) (day : Date) :
    batchOf { books with
      batches := books.batches.modify date
        (fun batch => { batch with status := status, completedAt := some now }) fun _ => rfl } day =
      if day = date then (batchOf books day).map fun _ => status else batchOf books day := by
  show ((books.batches.modify date (fun batch =>
    { batch with status := status, completedAt := some now }) fun _ => rfl).find? day).map
      Batch.status = _
  rw [Table.find?_modify]
  split
  · rw [batchOf, Option.map_map, Option.map_map]
    rfl
  · rfl

/-- The summary of `runAll` keeps the invariant. -/
theorem Kept.finish (hkept : Kept state) {job : Job} {now : ℤ} (hjob : job ∈ state.jobs)
    (hcareful : Careful state (.finish job now)) (hstep : state.finish job now = some after) :
    Kept after := by
  have hjobKept := hkept.jobs job hjob
  simp only [State.finish, Option.ite_none_right_eq_some, Option.some.injEq] at hstep
  obtain ⟨_, rfl⟩ := hstep
  have hsummed : Kept { state with
      books := { state.books with
        batches := state.books.batches.modify job.input.businessDate
          (fun batch => { batch with
            status := batchStatus job.input.dryRun (job.items.map Item.status)
            completedAt := some now }) fun _ => rfl } } := by
    constructor
    · exact hkept.agrees
    · intro other hother
      exact (hkept.jobs other hother).mono ⟨fun _ _ hclosed => hclosed,
        fun run hrun => ⟨run, hrun, rfl, rfl⟩, rfl⟩
    · intro date hbatch
      rw [batchOf_finish] at hbatch
      split at hbatch
      case isFalse => exact hkept.completed date hbatch
      case isTrue hdate =>
        subst hdate
        obtain ⟨status, hbefore, hcompleted⟩ := Option.map_eq_some_iff.mp hbatch
        cases hdry : job.input.dryRun with
        | true =>
          simp only [Careful, hdry, if_true] at hcareful
          rw [hdry] at hcompleted
          rw [hcareful status hbefore, hcompleted] at hbefore
          exact hkept.completed _ hbefore
        | false =>
          simp only [Careful, hdry, Bool.false_eq_true, if_false] at hcareful
          rw [hdry] at hcompleted
          have hall := all_of_batchStatus hcompleted
          intro currency hcurrency _
          by_cases hlisted : currency ∈ job.items.map Item.currency
          · obtain ⟨item, hitem, rfl⟩ := List.mem_map.mp hlisted
            have hclosed := hjobKept.items hdry item hitem
              (hall item.status (List.mem_map_of_mem hitem))
            rw [toUpper_of_isCurrency (isCurrency_of_configuredOn hcurrency)] at hclosed
            exact hclosed
          · exact hcareful hcompleted currency hcurrency hlisted
  exact hsummed.put job fun _ hnone => by cases hnone

/-- Every careful event keeps the invariant. -/
theorem Kept.step {event : Event} (hkept : Kept state) (hcareful : Careful state event)
    (hstep : step state event = some after) : Kept after := by
  cases event with
  | work wallets mappings accounts journals entries =>
    cases hstep
    constructor
    · exact hkept.agrees
    · intro job hjob
      exact (hkept.jobs job hjob).mono ⟨fun _ _ hclosed => hclosed,
        fun run hrun => ⟨run, hrun, rfl, rfl⟩, rfl⟩
    · exact hkept.completed
  | midnight =>
    cases hstep
    exact hkept.midnight hcareful
  | direct request =>
    cases hstep
    exact hkept.call hcareful (closeEod_effect hkept.agrees request)
  | runOne input =>
    cases hstep
    exact hkept.begin input false _
  | runAll input elsewhere =>
    cases hstep
    exact hkept.begin input true _
  | check job work =>
    obtain ⟨hjob, hcheck⟩ := Option.ite_none_right_eq_some.mp hstep
    exact hkept.check hjob hcheck
  | close job =>
    obtain ⟨hjob, hclose⟩ := Option.ite_none_right_eq_some.mp hstep
    exact hkept.close hjob hcareful hclose
  | persist job =>
    obtain ⟨hjob, hpersist⟩ := Option.ite_none_right_eq_some.mp hstep
    exact hkept.persist hjob hpersist
  | fail job =>
    obtain ⟨hjob, hfail⟩ := Option.ite_none_right_eq_some.mp hstep
    exact hkept.fail hjob hfail
  | finish job now =>
    obtain ⟨hjob, hfinish⟩ := Option.ite_none_right_eq_some.mp hstep
    exact hkept.finish hjob hcareful hfinish
  | crash job =>
    cases hstep
    have hput : Kept (state.put job none) := hkept.put job fun _ hnone => by cases hnone
    exact hput

/-- Every careful event of a dry run leaves the status of every batch. -/
theorem keepsBatches_step {event : Event} (hkept : Kept state) (hcareful : Careful state event)
    (hdry : event.isDryRun = true) (hstep : Batches.step state event = some after) :
    KeepsBatches state.books after.books := by
  cases event with
  | direct request =>
    cases hstep
    exact keepsBatches_of_call hcareful hdry (closeEod_effect hkept.agrees request)
  | close job =>
    obtain ⟨_, hclose⟩ := Option.ite_none_right_eq_some.mp hstep
    cases hprogress : job.progress with
    | idle => simp [State.close, hprogress] at hclose
    | closed currency checks result => simp [State.close, hprogress] at hclose
    | checked currency checks =>
      simp only [State.close, hprogress, Option.some.injEq] at hclose
      simp only [Careful, hprogress] at hcareful
      subst hclose
      exact keepsBatches_of_call hcareful
        ((request_inputFor job currency).2.2.trans hdry) (closeEod_effect hkept.agrees _)
  | persist job =>
    obtain ⟨_, hpersist⟩ := Option.ite_none_right_eq_some.mp hstep
    cases hprogress : job.progress with
    | idle => simp [State.persist, hprogress] at hpersist
    | checked currency checks => simp [State.persist, hprogress] at hpersist
    | closed currency checks result =>
      simp only [State.persist, hprogress, Option.some.injEq] at hpersist
      simp only [Careful, hprogress] at hcareful
      subst hpersist
      intro date status hbatch
      show batchOf (state.books.persistReadiness _ _ _ _) date = _
      rw [batchOf_persistReadiness]
      split
      case isFalse => exact hbatch
      case isTrue hfails =>
        obtain ⟨hversion, hready, rfl⟩ := hfails
        rcases hcareful with hnone | hpassed | hfailed
        · exact absurd hnone hversion
        · rw [hready] at hpassed
          cases hpassed
        · rw [hbatch, Option.map_some, hfailed status hbatch]
  | finish job now =>
    obtain ⟨_, hfinish⟩ := Option.ite_none_right_eq_some.mp hstep
    simp only [State.finish, Option.ite_none_right_eq_some, Option.some.injEq] at hfinish
    obtain ⟨_, rfl⟩ := hfinish
    intro date status hbatch
    have hdryRun : job.input.dryRun = true := hdry
    simp only [Careful, hdryRun, if_true] at hcareful
    show batchOf { state.books with batches := _ } date = _
    rw [batchOf_finish, hdryRun]
    split
    case isFalse => exact hbatch
    case isTrue hdate =>
      subst hdate
      rw [hbatch, Option.map_some, hcareful status hbatch]
  | _ => cases hdry

theorem Opening.kept (hopening : Opening state) : Kept state := by
  constructor
  · intro date currency
    have hperiods : state.books.periods.find? (date, currency) = none := by
      rw [Table.find?_eq_none, hopening.periods]
      exact fun _ hmem => absurd hmem List.not_mem_nil
    have hnone : state.books.completedRun date currency = none := by
      rw [Books.completedRun_eq_none, hopening.runs]
      exact fun _ hmem => absurd hmem List.not_mem_nil
    rw [Books.periodStatus, Books.period, hperiods, hnone]
    simp
  · intro job hjob
    rw [hopening.jobs] at hjob
    cases hjob
  · intro date hbatch
    have hnone : state.books.batches.find? date = none := by
      rw [Table.find?_eq_none, hopening.batches]
      exact fun _ hmem => absurd hmem List.not_mem_nil
    rw [batchOf, hnone] at hbatch
    cases hbatch

end

/-! ## Runs -/

/-- In every run of careful events a completed batch means that the date is closed in every
configured currency, and a dry run leaves the status of every batch. -/
theorem completed_means_closed {start state : State} (hopening : Opening start)
    (hrun : ReachesUnder step Careful start state) :
    CompletedMeansClosed state ∧
      ∀ event after, Careful state event → event.isDryRun = true →
        step state event = some after → KeepsBatches state.books after.books := by
  have hkept : Kept state := by
    apply ReachesUnder.preserves Kept _ hrun hopening.kept
    intro before event after hkept hcareful hstep
    exact hkept.step hcareful hstep
  constructor
  · intro date hbatch currency elsewhere hconfigured
    exact hkept.completed date hbatch currency (mem_currencyUniverse.mp hconfigured)
      (Option.some_ne_none currency)
  · intro event after hcareful hdry hstep
    exact keepsBatches_step hkept hcareful hdry hstep

/-! ## `runOne` with nothing in between -/

/-- The events of a call of `runOne` that nothing comes in between. -/
def uninterrupted (state : State) (input : CloseInput) (work : PendingWork) : List Event :=
  let checks := state.books.readiness input.businessDate input.currency.toUpper work
  let begun : Job := { input := input, whole := false, rest := [(input.currency, true)] }
  let called : Job :=
    { input := input, whole := false, rest := [], progress := .checked input.currency checks }
  let returned : Job :=
    { called with
      progress := .closed input.currency checks (closeEod state.books input.request).2 }
  [.runOne input, .check begun work, .close called, .persist returned]

/-- They do to the database what `runOne` does. -/
theorem runInputs_uninterrupted (state : State) (input : CloseInput) (work : PendingWork)
    (hready : input.dryRun = true ∨
      isReady (state.books.readiness input.businessDate input.currency.toUpper work) = true) :
    runInputs step state (uninterrupted state input work) =
      some { state with books := (Eod.runOne state.books input work none).1 } := by
  have hpassed : ¬ (input.dryRun = false ∧
      isReady (state.books.readiness input.businessDate input.currency.toUpper work) = false) := by
    rintro ⟨hreal, hfailed⟩
    rcases hready with hdry | hready
    · rw [hreal] at hdry
      cases hdry
    · rw [hfailed] at hready
      cases hready
  have hrunOne : (Eod.runOne state.books input work none).1 =
      (closeEod state.books input.request).1.persistReadiness input.businessDate
        input.currency.toUpper (closeEod state.books input.request).2.runVersion
        (state.books.readiness input.businessDate input.currency.toUpper work) := by
    simp only [Eod.runOne, reduceCtorEq, false_or, if_neg hpassed, if_false]
  rw [hrunOne]
  simp [runInputs, uninterrupted, step, State.check, State.close, State.persist, State.put, hpassed,
    Job.inputFor, Job.next]

/-! ## One currency and two -/

/-- An entity that keeps its safeguarded money in some currencies. -/
def keeping (currencies : List String) : State where
  today := 6
  books :=
    { wallets := ⟨[{ walletMsisdn := 110, walletCode := 110, amount := 0, currency := "GBP" },
        { walletMsisdn := 210, walletCode := 110, amount := 0, currency := "USD" }], by decide⟩
      mappings := ⟨[{ walletCode := 110, glAccountCode := "1000-SAFEGUARDING" }], by decide⟩
      accounts := ⟨[
        { accountCode := "1000-SAFEGUARDING", accountType := .asset, normalBalance := .debit }],
        by decide⟩
      configurations := currencies.map fun currency =>
        { currency := currency
          masterWallet := if currency = "GBP" then 110 else 210
          effectiveFrom := 1 }
      journals := .empty
      entries := .empty
      periods := .empty
      batches := .empty
      runs := .empty
      walletBalances := .empty
      glBalances := .empty }

theorem keeping_opening (currencies : List String) : Opening (keeping currencies) :=
  ⟨rfl, rfl, rfl, rfl⟩

def closePounds : CloseInput := { businessDate := 5, currency := "GBP" }

/-- Where pounds are the only configured currency, their close completes the batch of a date
that is closed. -/
theorem completed_means_closed_pounds :
    ∃ state, ReachesUnder step Careful (keeping ["GBP"]) state ∧
      batchOf state.books 5 = some .completed ∧
      (CompletedMeansClosed state ∧
        ∀ event after, Careful state event → event.isDryRun = true →
          step state event = some after → KeepsBatches state.books after.books) := by
  have hcareful : Careful (keeping ["GBP"]) (.direct closePounds.request) := by
    intro about habout
    rw [if_neg (by simp [closePounds, CloseInput.request])]
    intro _ _ currency hcurrency hother
    have hpounds : currency = "GBP" := by
      have hconfigured : configuredOn (keeping ["GBP"]).books 6 = ["GBP"] := by decide
      rw [show (keeping ["GBP"]).today = 6 from rfl, hconfigured] at hcurrency
      exact List.mem_singleton.mp hcurrency
    have htarget := (Books.target_eq_some.mp (show (keeping ["GBP"]).books.target
      closePounds.request = some (about.1, about.2.1, about.2.2) from habout)).2.1
    have hcode : (some "GBP" : Option String) = some about.2.1 := by
      rw [← htarget]
      decide +kernel
    exact absurd (hpounds ▸ hcode) hother
  have hreach : ReachesUnder step Careful (keeping ["GBP"])
      { keeping ["GBP"] with books := (closeEod (keeping ["GBP"]).books closePounds.request).1 } :=
    Relation.ReflTransGen.single ⟨.direct closePounds.request, hcareful, rfl⟩
  exact ⟨_, hreach, by decide +kernel, completed_means_closed (keeping_opening ["GBP"]) hreach⟩

/-- With two configured currencies `runOne` for pounds completes the batch of a date that is
open in dollars. -/
theorem one_currency_completes_batch :
    Opening (keeping ["GBP", "USD"]) ∧ ∃ state, Reaches step (keeping ["GBP", "USD"]) state ∧
      batchOf state.books 5 = some .completed ∧ state.books.periodStatus 5 "USD" = none ∧
      ¬ CompletedMeansClosed state := by
  have hrun := runInputs_uninterrupted (keeping ["GBP", "USD"]) closePounds {}
    (.inr (by decide))
  have hcompleted : batchOf (Eod.runOne (keeping ["GBP", "USD"]).books closePounds {} none).1 5 =
      some .completed := by
    decide +kernel
  have hopen : (Eod.runOne (keeping ["GBP", "USD"]).books closePounds {} none).1.periodStatus 5
      "USD" = none := by
    decide +kernel
  refine ⟨keeping_opening _, _, Reaches.of_runInputs hrun, hcompleted, hopen, fun hmeans => ?_⟩
  have hconfigured : "USD" ∈ configuredOn (Eod.runOne (keeping ["GBP", "USD"]).books closePounds {}
      none).1 6 := by
    decide +kernel
  have hclosed := hmeans 5 hcompleted "USD" [] (mem_currencyUniverse.mpr hconfigured)
  rw [hopen] at hclosed
  cases hclosed

end Finify.Eod.Batches
