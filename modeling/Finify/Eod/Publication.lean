/-
# Who publishes the balances of a day

Reports and later closes read the daily balances without asking which run left them.  A
close writes them before it compares the safeguarding wallet, and keeps them when the
comparison fails.  The module proves that only completed closes publish balances in every
run in which no ready day is closed with a deficit under strict safeguarding, and that a
day is closed once in every run.
-/

import Finify.Eod.ClosedDays

namespace Finify.Eod

open Finify.Foundations

/-! ## The answer of a close in two steps -/

namespace Books

/-- What the procedure answers when it ends. -/
def finishAnswer (books : Books) (pending : PendingClose) : CloseResult :=
  if 0 < blockingCount pending.exceptions then
    books.answer pending.date pending.currency (.notReady pending.exceptions)
  else
    let taken := books.snapshot pending.date pending.currency
    taken.answer pending.date pending.currency
      (.compared false pending.config.strictSafeguarding pending.activity
        (taken.dayBalances pending.date pending.currency).length
        (taken.balance pending.config.masterWallet)
        (taken.snapshotLiability pending.date pending.currency))

end Books

/-! ## The claim about published balances -/

/-- Every daily balance belongs to a completed run. -/
structure Books.Owned (books : Books) : Prop where
  wallets : ∀ row ∈ books.walletBalances.rows, ∃ run ∈ books.runs.rows,
    run.key = (row.businessDate, row.currency, row.runVersion) ∧ run.status = .completed
  accounts : ∀ row ∈ books.glBalances.rows, ∃ run ∈ books.runs.rows,
    run.key = (row.businessDate, row.currency, row.runVersion) ∧ run.status = .completed

/-- A day that was closed stays closed by the one run that closed it. -/
structure Books.ClosedOnce (books : Books) : Prop where
  single : ∀ run ∈ books.runs.rows, ∀ other ∈ books.runs.rows, run.Closes → other.Closes →
    other.businessDate = run.businessDate → other.currency = run.currency → other = run
  again : ∀ run ∈ books.runs.rows, run.Closes → ∀ request : CloseRequest,
    request.businessDate = some run.businessDate → request.currency = some run.currency →
      request.dryRun = false → closeEod books request = (books, alreadyClosed run)

/-- A step that completes no real run leaves the daily balances as they were. -/
def LeavesBalances (before after : Books) : Prop :=
  (∀ run ∈ after.runs.rows, run.Closes → run ∈ before.runs.rows) →
    after.walletBalances = before.walletBalances ∧ after.glBalances = before.glBalances

/-- Only completed closes publish. -/
structure OnlyCompletedPublish (state : Accounting) : Prop where
  owned : state.books.Owned
  once : state.books.ClosedOnce
  closed : ∀ pending ∈ state.closing, (state.books.finishAnswer pending).statusCode = .closed →
    ∃ run ∈ (state.books.finishClose pending).runs.rows,
      run.Closes ∧ run.businessDate = pending.date ∧ run.currency = pending.currency

/-- The configurations stay, as no call of the procedure changes one. -/
def KeepsConfigurations (state : Accounting) : Event → Prop
  | .maintain _ _ _ configurations => configurations = state.books.configurations
  | _ => True

/-- The safeguarding wallet covers the balances that a close of the day would take. -/
def Books.Covered (books : Books) (date : Date) (currency : String) (config : Configuration) :
    Prop :=
  config.strictSafeguarding →
    books.closingLiability date currency ≤ (books.balance config.masterWallet).getD 0

/-- No close of a ready day meets a deficit under strict safeguarding. -/
def NoDeficit (state : Accounting) : Event → Prop
  | .finishClose date currency =>
    ∀ pending ∈ state.closing, pending.day = (date, currency) →
      blockingCount pending.exceptions = 0 → state.books.Covered date currency pending.config
  | _ => True

/-- Nothing was closed or published yet. -/
structure Unpublished (state : Accounting) : Prop extends Opening state where
  walletBalances : state.books.walletBalances.rows = []
  glBalances : state.books.glBalances.rows = []

/-! ## What a close writes -/

namespace Books

variable {books : Books}

/-- The report that a close in two steps ends with. -/
def finishReport (books : Books) (pending : PendingClose) : Report :=
  if 0 < blockingCount pending.exceptions then .notReady pending.exceptions
  else
    .compared false pending.config.strictSafeguarding pending.activity
      (books.walletSnapshots pending.date pending.currency).length
      (books.balance pending.config.masterWallet)
      (books.closingLiability pending.date pending.currency)

/-- The database that the report is recorded in. -/
def finishBase (books : Books) (pending : PendingClose) : Books :=
  if 0 < blockingCount pending.exceptions then books
  else books.snapshot pending.date pending.currency

/-- A close ends by recording its report and answering with it. -/
theorem finishClose_eq (pending : PendingClose) :
    books.finishClose pending = (books.finishBase pending).record pending.date pending.currency
        pending.request (books.finishReport pending) ∧
      books.finishAnswer pending = (books.finishBase pending).answer pending.date pending.currency
        (books.finishReport pending) := by
  unfold finishClose finishAnswer finishBase finishReport
  split
  · exact ⟨rfl, rfl⟩
  · rw [← dayBalances_snapshot, ← snapshotLiability_snapshot]
    exact ⟨rfl, rfl⟩

theorem finishBase_of_not_ready {pending : PendingClose}
    (hblocked : 0 < blockingCount pending.exceptions) : books.finishBase pending = books :=
  if_pos hblocked

/-- A ready day is completed exactly when its balances are covered. -/
theorem finishReport_status {pending : PendingClose}
    (hready : blockingCount pending.exceptions = 0) :
    (books.finishReport pending).status = .completed ↔
      books.Covered pending.date pending.currency pending.config := by
  rw [finishReport, if_neg (by omega), Report.compared_status]
  by_cases hcovered : books.Covered pending.date pending.currency pending.config
  · rw [if_pos (by exact hcovered)]
    simp [hcovered]
  · rw [if_neg (by exact hcovered)]
    simp [hcovered]

/-- The answer says closed only for a run that is completed. -/
theorem finishReport_closed {pending : PendingClose}
    (hclosed : (books.finishReport pending).statusCode = .closed) :
    (books.finishReport pending).status = .completed := by
  unfold finishReport at hclosed ⊢
  split at hclosed
  · cases hclosed
  · rename_i hready
    rw [if_neg hready]
    simp only [Report.compared, Bool.false_eq_true, if_false] at hclosed ⊢
    split at hclosed
    case isTrue hpassed => rw [if_pos hpassed]
    case isFalse => cases hclosed

theorem runs_finishBase (pending : PendingClose) :
    (books.finishBase pending).runs = books.runs := by
  unfold finishBase
  split <;> rfl

theorem configurations_finishClose (pending : PendingClose) :
    (books.finishClose pending).configurations = books.configurations := by
  unfold finishClose
  split <;> rfl

def finishRun (books : Books) (pending : PendingClose) : Run :=
  (books.finishBase pending).newRun pending.date pending.currency pending.request
    (books.finishReport pending)

theorem runs_finishClose (pending : PendingClose) :
    (books.finishClose pending).runs.rows = books.runs.rows ++ [books.finishRun pending] := by
  rw [(finishClose_eq pending).1, runs_record, runs_finishBase]
  rfl

/-- The rows that a close of a ready day leaves are the earlier ones of other days and those
of its own run. -/
theorem walletBalances_finishClose {pending : PendingClose}
    (hready : blockingCount pending.exceptions = 0) {row : WalletBalance}
    (hrow : row ∈ (books.finishClose pending).walletBalances.rows) :
    row ∈ books.walletBalances.rows ∨
      (books.finishRun pending).key = (row.businessDate, row.currency, row.runVersion) := by
  rw [(finishClose_eq pending).1, finishBase, if_neg (by omega)] at hrow
  rcases List.mem_append.mp hrow with hold | hnew
  · exact .inl (List.mem_of_mem_filter hold)
  · obtain ⟨wallet, _, mapping, _, rfl⟩ := (books.mem_walletSnapshots _ _).mp hnew
    right
    rw [finishRun, finishBase, if_neg (by omega)]
    rfl

theorem glBalances_finishClose {pending : PendingClose}
    (hready : blockingCount pending.exceptions = 0) {row : GlBalance}
    (hrow : row ∈ (books.finishClose pending).glBalances.rows) :
    row ∈ books.glBalances.rows ∨
      (books.finishRun pending).key = (row.businessDate, row.currency, row.runVersion) := by
  rw [(finishClose_eq pending).1, finishBase, if_neg (by omega)] at hrow
  rcases List.mem_append.mp hrow with hold | hnew
  · exact .inl (List.mem_of_mem_filter hold)
  · obtain ⟨account, _, rfl⟩ := List.mem_map.mp hnew
    right
    rw [finishRun, finishBase, if_neg (by omega)]
    rfl

theorem balances_finishClose_of_not_ready {pending : PendingClose}
    (hblocked : 0 < blockingCount pending.exceptions) :
    (books.finishClose pending).walletBalances = books.walletBalances ∧
      (books.finishClose pending).glBalances = books.glBalances := by
  rw [(finishClose_eq pending).1, finishBase_of_not_ready hblocked]
  exact ⟨rfl, rfl⟩

end Books

/-! ## Closes of one day exclude each other -/

/-- Closes under way are of different days that no run has completed, and each day that was
closed was closed by one run under a configuration that is still in force. -/
structure Serial (state : Accounting) : Prop where
  apart : state.closing.Pairwise fun first second => first.day ≠ second.day
  fresh : ∀ pending ∈ state.closing,
    state.books.completedRun pending.date pending.currency = none
  configured : ∀ pending ∈ state.closing, isCurrency pending.currency ∧
    state.books.configuration pending.date pending.currency = some pending.config
  inForce : ∀ run ∈ state.books.runs.rows, run.Closes → isCurrency run.currency ∧
    state.books.configuration run.businessDate run.currency ≠ none
  single : ∀ run ∈ state.books.runs.rows, ∀ other ∈ state.books.runs.rows, run.Closes →
    other.Closes → other.businessDate = run.businessDate → other.currency = run.currency →
      other = run

section

variable {state after : Accounting}

theorem configuration_congr {before after : Books}
    (hsame : after.configurations = before.configurations) (date : Date) (currency : String) :
    after.configuration date currency = before.configuration date currency := by
  rw [Books.configuration, hsame, Books.configuration]

/-- What adds no real run and starts no close keeps the closes serial. -/
theorem Serial.of_runs (hserial : Serial state)
    (hconfigurations : after.books.configurations = state.books.configurations)
    (hruns : ∀ run ∈ after.books.runs.rows, run.Closes → run ∈ state.books.runs.rows)
    (hclosing : after.closing.Sublist state.closing) : Serial after := by
  have hconfiguration : ∀ date currency, after.books.configuration date currency =
      state.books.configuration date currency := configuration_congr hconfigurations
  constructor
  · exact hserial.apart.sublist hclosing
  · intro pending hpending
    apply Books.completedRun_eq_none.mpr
    intro run hrun hcompleted
    have hold := hruns run hrun hcompleted.2.2
    exact Books.completedRun_eq_none.mp (hserial.fresh pending (hclosing.subset hpending)) run hold
      hcompleted
  · intro pending hpending
    rw [hconfiguration]
    exact hserial.configured pending (hclosing.subset hpending)
  · intro run hrun hcloses
    rw [hconfiguration]
    exact hserial.inForce run (hruns run hrun hcloses) hcloses
  · intro run hrun other hother hcloses hotherCloses
    exact hserial.single run (hruns run hrun hcloses) other (hruns other hother hotherCloses)
      hcloses hotherCloses

theorem Serial.beginClose (hserial : Serial state) {request : CloseRequest}
    {pending : PendingClose} (hbegin : state.books.beginClose request = some pending)
    (hfree : ∀ other ∈ state.closing, other.day ≠ pending.day) :
    Serial { state with closing := pending :: state.closing } := by
  obtain ⟨htarget, hnone, _, _, _⟩ := Books.beginClose_eq_some hbegin
  obtain ⟨_, _, hcurrency, hconfig⟩ := Books.target_eq_some.mp htarget
  constructor
  · exact List.pairwise_cons.mpr ⟨fun other hother hday => hfree other hother hday.symm,
      hserial.apart⟩
  · exact List.forall_mem_cons.mpr ⟨hnone, hserial.fresh⟩
  · exact List.forall_mem_cons.mpr ⟨⟨hcurrency, hconfig⟩, hserial.configured⟩
  · exact hserial.inForce
  · exact hserial.single

/-- A close that ends adds one run, of a day that no run has completed. -/
theorem Serial.finishClose (hserial : Serial state) {pending : PendingClose}
    (hpending : pending ∈ state.closing) :
    Serial { state with
      books := state.books.finishClose pending
      closing := state.closing.filter fun other => other.day ≠ pending.day } := by
  have hnone := Books.completedRun_eq_none.mp (hserial.fresh pending hpending)
  obtain ⟨hcurrency, hconfig⟩ := hserial.configured pending hpending
  have hconfiguration : ∀ date currency,
      (state.books.finishClose pending).configuration date currency =
        state.books.configuration date currency :=
    configuration_congr (Books.configurations_finishClose pending)
  have hrows : ∀ run ∈ (state.books.finishClose pending).runs.rows,
      run ∈ state.books.runs.rows ∨ run = state.books.finishRun pending := by
    intro run hrun
    rw [Books.runs_finishClose] at hrun
    exact (List.mem_append.mp hrun).imp id List.mem_singleton.mp
  -- no earlier run has closed the day of the new one
  have hnew : ∀ run ∈ state.books.runs.rows, run.Closes →
      (state.books.finishRun pending).businessDate = run.businessDate →
      (state.books.finishRun pending).currency = run.currency → False := by
    intro run hrun hcloses hdate hcurrency'
    exact hnone run hrun ⟨hdate.symm, hcurrency'.symm, hcloses⟩
  constructor
  · exact hserial.apart.sublist List.filter_sublist
  · intro other hother
    have hne : other.day ≠ pending.day := by
      simpa using (List.mem_filter.mp hother).2
    apply Books.completedRun_eq_none.mpr
    intro run hrun hcompleted
    cases hrows run hrun with
    | inl hold =>
      exact Books.completedRun_eq_none.mp
        (hserial.fresh other (List.mem_of_mem_filter hother)) run hold hcompleted
    | inr hadded =>
      rw [hadded] at hcompleted
      exact hne (Prod.ext hcompleted.1.symm hcompleted.2.1.symm)
  · intro other hother
    show _ ∧ (state.books.finishClose pending).configuration _ _ = _
    rw [hconfiguration]
    exact hserial.configured other (List.mem_of_mem_filter hother)
  · intro run hrun hcloses
    show _ ∧ (state.books.finishClose pending).configuration _ _ ≠ _
    rw [hconfiguration]
    cases hrows run hrun with
    | inl hold => exact hserial.inForce run hold hcloses
    | inr hadded =>
      rw [hadded]
      show _ ∧ state.books.configuration pending.date pending.currency ≠ _
      rw [hconfig]
      exact ⟨hcurrency, Option.some_ne_none _⟩
  · intro run hrun other hother hcloses hotherCloses hdate hcurrency'
    cases hrows run hrun with
    | inl hold =>
      cases hrows other hother with
      | inl hotherOld =>
        exact hserial.single run hold other hotherOld hcloses hotherCloses hdate hcurrency'
      | inr hotherAdded =>
        rw [hotherAdded] at hdate hcurrency'
        exact absurd (hnew run hold hcloses hdate hcurrency') id
    | inr hadded =>
      cases hrows other hother with
      | inl hotherOld =>
        rw [hadded] at hdate hcurrency'
        exact absurd (hnew other hotherOld hotherCloses hdate.symm hcurrency'.symm) id
      | inr hotherAdded => rw [hadded, hotherAdded]

theorem runs_rehearse (books : Books) (request : CloseRequest) :
    (∀ run ∈ (rehearse books request).1.runs.rows, run.Closes → run ∈ books.runs.rows) ∧
      (∀ run ∈ books.runs.rows, run ∈ (rehearse books request).1.runs.rows) ∧
      (rehearse books request).1.configurations = books.configurations ∧
      (rehearse books request).1.walletBalances = books.walletBalances ∧
      (rehearse books request).1.glBalances = books.glBalances := by
  rcases books.rehearse_eq_record request with hsame | ⟨date, currency, report, hrecord⟩
  · rw [hsame]
    exact ⟨fun _ hrun _ => hrun, fun _ hrun => hrun, rfl, rfl, rfl⟩
  · rw [hrecord, Books.runs_record]
    refine ⟨fun run hrun hcloses => ?_, fun run hrun => List.mem_append_left _ hrun, rfl, rfl, rfl⟩
    cases List.mem_append.mp hrun with
    | inl hold => exact hold
    | inr hnew =>
      rw [List.mem_singleton.mp hnew] at hcloses
      cases hcloses.2

/-- What a step does to runs and balances: nothing that closes or publishes, or the end of a
close that was under way. -/
theorem step_cases {event : Event} (hstep : step state event = some after) :
    ((∀ run ∈ after.books.runs.rows, run.Closes → run ∈ state.books.runs.rows) ∧
      (∀ run ∈ state.books.runs.rows, run ∈ after.books.runs.rows) ∧
      after.books.walletBalances = state.books.walletBalances ∧
      after.books.glBalances = state.books.glBalances ∧
      (KeepsConfigurations state event →
        after.books.configurations = state.books.configurations) ∧
      (after.closing.Sublist state.closing ∨
        ∃ request pending, state.books.beginClose request = some pending ∧
          (∀ other ∈ state.closing, other.day ≠ pending.day) ∧
          after = { state with closing := pending :: state.closing })) ∨
    ∃ pending ∈ state.closing, event = .finishClose pending.date pending.currency ∧
      after = { state with
        books := state.books.finishClose pending
        closing := state.closing.filter fun other => other.day ≠ pending.day } := by
  cases event with
  | start writer | rollBack writer | mark journalId status =>
    cases hstep
    exact .inl ⟨fun _ hrun _ => hrun, fun _ hrun => hrun, rfl, rfl, fun _ => rfl, .inl (.refl _)⟩
  | commit writer status lines =>
    simp only [step, Option.ite_none_right_eq_some, Option.some.injEq] at hstep
    obtain ⟨_, rfl⟩ := hstep
    have hsame := state.books.write_sameCloses writer status lines
    exact .inl ⟨fun run hrun _ => by rw [← hsame.runs]; exact hrun,
      fun run hrun => by
        show run ∈ (state.books.write writer status lines).runs.rows
        rw [hsame.runs]
        exact hrun,
      hsame.walletBalances, hsame.glBalances, fun _ => hsame.configurations, .inl (.refl _)⟩
  | maintain wallets mappings accounts configurations =>
    cases hstep
    exact .inl ⟨fun _ hrun _ => hrun, fun _ hrun => hrun, rfl, rfl, fun hkeeps => hkeeps,
      .inl (.refl _)⟩
  | rehearse request =>
    cases hstep
    obtain ⟨hreal, hkept, hconfigurations, hwallets, haccounts⟩ :=
      runs_rehearse state.books request
    exact .inl ⟨hreal, hkept, hwallets, haccounts, fun _ => hconfigurations, .inl (.refl _)⟩
  | beginClose request =>
    obtain ⟨pending, hbegin, hfree, rfl⟩ := step_beginClose hstep
    exact .inl ⟨fun _ hrun _ => hrun, fun _ hrun => hrun, rfl, rfl, fun _ => rfl,
      .inr ⟨request, pending, hbegin, hfree, rfl⟩⟩
  | finishClose date currency =>
    obtain ⟨pending, hpending, rfl, rfl, hafter⟩ := step_finishClose hstep
    exact .inr ⟨pending, hpending, rfl, hafter⟩
  | abandonClose date currency =>
    cases hstep
    exact .inl ⟨fun _ hrun _ => hrun, fun _ hrun => hrun, rfl, rfl, fun _ => rfl,
      .inl List.filter_sublist⟩

/-- Every step that leaves the configurations keeps the closes serial. -/
theorem Serial.step {event : Event} (hserial : Serial state)
    (hkeeps : KeepsConfigurations state event) (hstep : step state event = some after) :
    Serial after := by
  rcases step_cases hstep with ⟨hruns, _, _, _, hconfigurations, hclosing⟩ |
    ⟨pending, hpending, _, rfl⟩
  · rcases hclosing with hsublist | ⟨request, pending, hbegin, hfree, rfl⟩
    · exact hserial.of_runs (hconfigurations hkeeps) hruns hsublist
    · exact hserial.beginClose hbegin hfree
  · exact hserial.finishClose hpending

theorem Opening.serial (hopening : Opening state) : Serial state := by
  constructor
  · simp [hopening.closing]
  · simp [hopening.closing]
  · simp [hopening.closing]
  · simp [hopening.runs]
  · simp [hopening.runs]

theorem Serial.closedOnce (hserial : Serial state) : state.books.ClosedOnce := by
  constructor
  · exact hserial.single
  · intro run hrun hcloses request hdate hcurrency hreal
    obtain ⟨hiso, hconfig⟩ := hserial.inForce run hrun hcloses
    obtain ⟨config, hfound⟩ := Option.ne_none_iff_exists'.mp hconfig
    have hsome : state.books.completedRun run.businessDate run.currency ≠ none := by
      intro hnone
      exact Books.completedRun_eq_none.mp hnone run hrun ⟨rfl, rfl, hcloses⟩
    obtain ⟨existing, hexisting⟩ := Option.ne_none_iff_exists'.mp hsome
    obtain ⟨hmem, hsameDate, hsameCurrency, hcompleted⟩ := Books.of_completedRun hexisting
    rw [closeEod_of_completed (Books.target_eq_some.mpr ⟨hdate, hcurrency, hiso, hfound⟩) hreal
      hexisting, hserial.single run hrun existing hmem hcloses hcompleted hsameDate hsameCurrency]

/-! ## Balances of completed runs -/

/-- A step that completes no real run leaves the balances, where no close of a ready day
meets a deficit. -/
theorem leavesBalances_step {event : Event} (hcovered : NoDeficit state event)
    (hstep : step state event = some after) : LeavesBalances state.books after.books := by
  intro hnone
  rcases step_cases hstep with ⟨_, _, hwallets, haccounts, _⟩ | ⟨pending, hpending, rfl, rfl⟩
  · exact ⟨hwallets, haccounts⟩
  · by_cases hready : blockingCount pending.exceptions = 0
    · -- the run of a covered close is completed, and is a new one
      have hcompleted : (state.books.finishReport pending).status = .completed :=
        (Books.finishReport_status hready).mpr (hcovered pending hpending rfl hready)
      have hmem : state.books.finishRun pending ∈ (state.books.finishClose pending).runs.rows := by
        rw [Books.runs_finishClose]
        exact List.mem_append_right _ (List.mem_singleton_self _)
      have hold : state.books.finishRun pending ∈ state.books.runs.rows :=
        hnone _ hmem ⟨hcompleted, pending.isReal⟩
      rw [← Books.runs_finishBase pending] at hold
      exact absurd rfl (Books.nextVersion_fresh _ pending.date pending.currency _ hold)
    · exact Books.balances_finishClose_of_not_ready (Nat.pos_of_ne_zero hready)

/-- A step in which no close of a ready day meets a deficit keeps every balance with a
completed run. -/
theorem Books.Owned.step {event : Event} (howned : state.books.Owned)
    (hcovered : NoDeficit state event) (hstep : Eod.step state event = some after) :
    after.books.Owned := by
  rcases step_cases hstep with ⟨_, hkept, hwallets, haccounts, _⟩ | ⟨pending, hpending, rfl, rfl⟩
  · constructor
    · intro row hrow
      rw [hwallets] at hrow
      obtain ⟨run, hrun, howns⟩ := howned.wallets row hrow
      exact ⟨run, hkept run hrun, howns⟩
    · intro row hrow
      rw [haccounts] at hrow
      obtain ⟨run, hrun, howns⟩ := howned.accounts row hrow
      exact ⟨run, hkept run hrun, howns⟩
  · have hkept : ∀ run ∈ state.books.runs.rows,
        run ∈ (state.books.finishClose pending).runs.rows := by
      intro run hrun
      rw [runs_finishClose]
      exact List.mem_append_left _ hrun
    have hadded : finishRun state.books pending ∈ (state.books.finishClose pending).runs.rows := by
      rw [runs_finishClose]
      exact List.mem_append_right _ (List.mem_singleton_self _)
    by_cases hready : blockingCount pending.exceptions = 0
    · have hcompleted : (state.books.finishRun pending).status = .completed :=
        (finishReport_status hready).mpr (hcovered pending hpending rfl hready)
      constructor
      · intro row hrow
        rcases walletBalances_finishClose hready hrow with hold | hnew
        · obtain ⟨run, hrun, howns⟩ := howned.wallets row hold
          exact ⟨run, hkept run hrun, howns⟩
        · exact ⟨_, hadded, hnew, hcompleted⟩
      · intro row hrow
        rcases glBalances_finishClose hready hrow with hold | hnew
        · obtain ⟨run, hrun, howns⟩ := howned.accounts row hold
          exact ⟨run, hkept run hrun, howns⟩
        · exact ⟨_, hadded, hnew, hcompleted⟩
    · obtain ⟨hwallets, haccounts⟩ :=
        state.books.balances_finishClose_of_not_ready (Nat.pos_of_ne_zero hready)
      constructor
      · intro row hrow
        rw [hwallets] at hrow
        obtain ⟨run, hrun, howns⟩ := howned.wallets row hrow
        exact ⟨run, hkept run hrun, howns⟩
      · intro row hrow
        rw [haccounts] at hrow
        obtain ⟨run, hrun, howns⟩ := howned.accounts row hrow
        exact ⟨run, hkept run hrun, howns⟩

theorem Unpublished.owned (hunpublished : Unpublished state) : state.books.Owned := by
  constructor
  · simp [hunpublished.walletBalances]
  · simp [hunpublished.glBalances]

/-- A close that answers that it closed its day has recorded the run that did. -/
theorem closes_of_finishAnswer {books : Books} {pending : PendingClose}
    (hclosed : (books.finishAnswer pending).statusCode = .closed) :
    ∃ run ∈ (books.finishClose pending).runs.rows,
      run.Closes ∧ run.businessDate = pending.date ∧ run.currency = pending.currency := by
  rw [(Books.finishClose_eq pending).2] at hclosed
  refine ⟨books.finishRun pending, ?_, ⟨Books.finishReport_closed hclosed, pending.isReal⟩, rfl, rfl⟩
  rw [Books.runs_finishClose]
  exact List.mem_append_right _ (List.mem_singleton_self _)

end

/-! ## Runs -/

/-- In every run of calls a day is closed at most once, and whatever is closed stays so. -/
theorem closed_once {start state : Accounting} (hopening : Opening start)
    (hrun : ReachesUnder step KeepsConfigurations start state) : state.books.ClosedOnce := by
  apply Serial.closedOnce
  apply ReachesUnder.preserves Serial _ hrun hopening.serial
  intro before event after hserial hkeeps hstep
  exact hserial.step hkeeps hstep

/-- In every run in which no close of a ready day meets a deficit under strict safeguarding,
only completed closes publish balances. -/
theorem only_completed_publish {start state : Accounting} (hstart : Unpublished start)
    (hrun : ReachesUnder step (fun state event =>
      KeepsConfigurations state event ∧ NoDeficit state event) start state) :
    OnlyCompletedPublish state ∧
      ∀ event after, NoDeficit state event → step state event = some after →
        LeavesBalances state.books after.books := by
  have hkept : Serial state ∧ state.books.Owned := by
    apply ReachesUnder.preserves (fun state => Serial state ∧ state.books.Owned) _ hrun
      ⟨hstart.toOpening.serial, hstart.owned⟩
    intro before event after hinv hguard hstep
    exact ⟨hinv.1.step hguard.1 hstep, hinv.2.step hguard.2 hstep⟩
  constructor
  · exact ⟨hkept.2, hkept.1.closedOnce, fun _ _ => closes_of_finishAnswer⟩
  · intro event after hcovered hstep
    exact leavesBalances_step hcovered hstep

instance (state : Accounting) : (event : Event) → Decidable (KeepsConfigurations state event)
  | .start _ => .isTrue trivial
  | .commit _ _ _ => .isTrue trivial
  | .rollBack _ => .isTrue trivial
  | .mark _ _ => .isTrue trivial
  | .maintain _ _ _ configurations =>
    inferInstanceAs (Decidable (configurations = state.books.configurations))
  | .rehearse _ => .isTrue trivial
  | .beginClose _ => .isTrue trivial
  | .finishClose _ _ => .isTrue trivial
  | .abandonClose _ _ => .isTrue trivial

instance (books : Books) (date : Date) (currency : String) (config : Configuration) :
    Decidable (books.Covered date currency config) :=
  inferInstanceAs (Decidable (config.strictSafeguarding →
    books.closingLiability date currency ≤ (books.balance config.masterWallet).getD 0))

instance (state : Accounting) : (event : Event) → Decidable (NoDeficit state event)
  | .start _ => .isTrue trivial
  | .commit _ _ _ => .isTrue trivial
  | .rollBack _ => .isTrue trivial
  | .mark _ _ => .isTrue trivial
  | .maintain _ _ _ _ => .isTrue trivial
  | .rehearse _ => .isTrue trivial
  | .beginClose _ => .isTrue trivial
  | .finishClose date currency => inferInstanceAs (Decidable (∀ pending ∈ state.closing,
      pending.day = (date, currency) → blockingCount pending.exceptions = 0 →
        state.books.Covered date currency pending.config))
  | .abandonClose _ _ => .isTrue trivial

theorem nodup_walletCodes : [(110 : ℤ), 1].Nodup := by decide

theorem nodup_accountCodes : ["1000-SAFEGUARDING", "2000-CUSTOMER-WALLET"].Nodup := by decide

/-- A customer who holds 50 against what the safeguarding wallet holds. -/
def safeguarding (master : ℤ) : Accounting where
  books :=
    { wallets := ⟨[{ walletMsisdn := 110, walletCode := 110, amount := master, currency := "GBP" },
        { walletMsisdn := 7, walletCode := 1, amount := 50, currency := "GBP" }], by simp⟩
      mappings := ⟨[{ walletCode := 110, glAccountCode := "1000-SAFEGUARDING" },
        { walletCode := 1, glAccountCode := "2000-CUSTOMER-WALLET", isSafeguarded := true }],
        nodup_walletCodes⟩
      accounts := ⟨[
        { accountCode := "1000-SAFEGUARDING", accountType := .asset, normalBalance := .debit },
        { accountCode := "2000-CUSTOMER-WALLET", accountType := .liability,
          normalBalance := .credit }], nodup_accountCodes⟩
      configurations := [{ currency := "GBP", masterWallet := 110, effectiveFrom := 1 }]
      journals := .empty
      entries := .empty
      periods := .empty
      batches := .empty
      runs := .empty
      walletBalances := .empty
      glBalances := .empty }

theorem safeguarding_unpublished (master : ℤ) : Unpublished (safeguarding master) :=
  ⟨⟨rfl, rfl, rfl, rfl⟩, rfl, rfl⟩

/-- A dry run and a close of day 5. -/
def closeFifth : List Event :=
  [.rehearse { businessDate := some 5, currency := some "GBP" },
    .beginClose { businessDate := some 5, currency := some "GBP" }, .finishClose 5 "GBP"]

theorem closed_once_covered :
    ∃ state, ReachesUnder step KeepsConfigurations (safeguarding 50) state ∧
      state.books.ClosedOnce := by
  have hany : (runInputs (guardedStep step KeepsConfigurations) (safeguarding 50)
      closeFifth).isSome := by
    decide +kernel
  obtain ⟨state, hrun⟩ := Option.isSome_iff_exists.mp hany
  have hreach := (Reaches.of_runInputs hrun).under
  exact ⟨state, hreach, closed_once (safeguarding_unpublished 50).toOpening hreach⟩

/-- With 50 in the safeguarding wallet the close publishes the balances of both wallets. -/
theorem only_completed_publish_covered :
    ∃ state, ReachesUnder step (fun state event =>
        KeepsConfigurations state event ∧ NoDeficit state event) (safeguarding 50) state ∧
      state.books.walletBalances.rows.length = 2 ∧
      (OnlyCompletedPublish state ∧
        ∀ event after, NoDeficit state event → step state event = some after →
          LeavesBalances state.books after.books) := by
  have hany : (runInputs (guardedStep step fun state event =>
      KeepsConfigurations state event ∧ NoDeficit state event) (safeguarding 50) closeFifth).any
        (fun state => state.books.walletBalances.rows.length = 2) := by
    decide +kernel
  obtain ⟨state, hrun, hrows⟩ := (Option.any_eq_true _ _).mp hany
  have hreach := (Reaches.of_runInputs hrun).under
  exact ⟨state, hreach, of_decide_eq_true hrows,
    only_completed_publish (safeguarding_unpublished 50) hreach⟩

/-- With 20 in the safeguarding wallet the close is blocked and has published the balances
of the day all the same. -/
theorem blocked_close_publishes :
    Unpublished (safeguarding 20) ∧
      ∃ state, ReachesUnder step KeepsConfigurations (safeguarding 20) state ∧
        (∀ run ∈ state.books.runs.rows, run.status ≠ .completed) ∧
        state.books.walletBalances.rows.length = 2 ∧ ¬ OnlyCompletedPublish state := by
  refine ⟨safeguarding_unpublished 20, ?_⟩
  have hany : (runInputs (guardedStep step KeepsConfigurations) (safeguarding 20) closeFifth).any
      (fun state => (∀ run ∈ state.books.runs.rows, run.status ≠ .completed) ∧
        state.books.walletBalances.rows.length = 2) := by
    decide +kernel
  obtain ⟨state, hrun, hfacts⟩ := (Option.any_eq_true _ _).mp hany
  obtain ⟨hblocked, hrows⟩ := of_decide_eq_true hfacts
  refine ⟨state, (Reaches.of_runInputs hrun).under, hblocked, hrows, fun hpublish => ?_⟩
  obtain ⟨row, hrow⟩ := List.exists_mem_of_length_pos (by omega :
    0 < state.books.walletBalances.rows.length)
  obtain ⟨run, hmem, _, hcompleted⟩ := hpublish.owned.wallets row hrow
  exact hblocked run hmem hcompleted

end Finify.Eod
