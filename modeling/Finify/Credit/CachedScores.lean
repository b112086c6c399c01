/-
# The truth of cached scores
-/

import Finify.Credit.Scores

namespace Finify.Credit.Scores

open Finify.Foundations

section

variable {state after : State} {call : Call} {provider : Provider} {result : AiResult}
  {row : Snapshot}

/-! ## What a call writes -/

theorem mem_snapshotsOf {customerId : String} {providerId : ℕ} :
    row ∈ state.snapshotsOf customerId providerId ↔
      row ∈ state.snapshots.rows ∧ row.customerId = customerId ∧ row.providerId = providerId := by
  simp [State.snapshotsOf]

/-- What is referenced is in the table, under the provider. -/
theorem mem_of_referenced {reference : Option String}
    (hreferenced : state.referenced provider.id reference = some row) :
    row ∈ state.snapshots.rows ∧ row.providerId = provider.id := by
  obtain ⟨text, _, hfind⟩ := Option.bind_eq_some_iff.mp hreferenced
  have hprovider := List.find?_some hfind
  rw [Bool.and_eq_true, decide_eq_true_iff] at hprovider
  exact ⟨List.mem_of_find?_eq_some hfind, hprovider.1⟩

theorem standing_customerId :
    (state.standing call provider result).customerId = call.customerId := by
  unfold State.standing
  split <;> rfl

theorem standing_providerId : (state.standing call provider result).providerId = provider.id := by
  unfold State.standing
  split
  · rename_i hreferenced
    exact (mem_of_referenced hreferenced).2
  · rfl

/-- The only row with the key of the snapshot that stands for a result is the referenced one. -/
theorem referenced_of_id (hrow : row ∈ state.snapshots.rows)
    (hid : row.id = (state.standing call provider result).id) :
    state.referenced provider.id result.referenceId = some row := by
  unfold State.standing at hid
  split at hid
  · rename_i hreferenced
    rw [hreferenced, state.snapshots.eq_of_serial_eq hrow (mem_of_referenced hreferenced).1 hid]
  · exact absurd hid (state.snapshots.below row hrow).ne

theorem standing_of_referenced (hreferenced : state.referenced provider.id result.referenceId =
    some row) : state.standing call provider result = row.moved call.customerId := by
  unfold State.standing
  rw [hreferenced]

/-- A result is saved: the snapshot that stands for it is the only row that changes. -/
structure Saves (state : State) (call : Call) (provider : Provider) (result : AiResult)
    (after : State) : Prop where
  rows : ∀ row, row ∈ after.snapshots.rows ↔
    row = state.standing call provider result ∨
      row ∈ state.snapshots.rows ∧ row.id ≠ (state.standing call provider result).id
  obtained : after.obtained = state.obtained ++
    [⟨call.customerId, provider.id, result.score, result.category⟩]

/-- How a score is resolved. -/
inductive Resolved (state : State) (call : Call) (after : State) (answer : ScoreResult) : Prop
  | unsaved (hsnapshots : after.snapshots = state.snapshots)
      (hobtained : after.obtained = state.obtained)
      (hnothing : ∀ provider ∈ call.provider, call.result? provider = none)
      (hanswer : ∀ snapshotId ∈ answer.snapshotId, ∃ row ∈ state.snapshots.rows,
        row.id = snapshotId ∧ row.score = answer.score)
  | saved {provider : Provider} {result : AiResult} (hprovider : call.provider = some provider)
      (hresult : call.result? provider = some result)
      (hsaves : Saves state call provider result after) (hscore : answer.score = result.score)
      (hid : answer.snapshotId = some (state.standing call provider result).id)

theorem saveSnapshot_eq_some {snapshotId : ℕ}
    (hsave : state.saveSnapshot call.customerId provider result call.clock =
      some (after, snapshotId)) :
    snapshotId = (state.standing call provider result).id ∧
      (∀ row, row ∈ after.snapshots.rows ↔
        row = state.standing call provider result ∨
          row ∈ state.snapshots.rows ∧ row.id ≠ (state.standing call provider result).id) ∧
      after.executions = state.executions ∧ after.obtained = state.obtained := by
  unfold State.saveSnapshot at hsave
  obtain ⟨_, hsave⟩ := Option.ite_none_left_eq_some.mp hsave
  cases hreferenced : state.referenced provider.id result.referenceId with
  | some old =>
    rw [hreferenced] at hsave
    cases hsave
    have hstanding : state.standing call provider result = old.moved call.customerId :=
      standing_of_referenced hreferenced
    have hold := (mem_of_referenced hreferenced).1
    refine ⟨by rw [hstanding]; rfl, ?_, rfl, rfl⟩
    intro row
    rw [Log.mem_modify, hstanding]
    constructor
    · rintro ⟨other, hother, rfl⟩
      by_cases hsame : other.id = old.id
      · rw [if_pos hsame, state.snapshots.eq_of_serial_eq hother hold hsame]
        exact .inl rfl
      · rw [if_neg hsame]
        exact .inr ⟨hother, hsame⟩
    · rintro (rfl | ⟨hrow, hne⟩)
      · exact ⟨old, hold, by rw [if_pos rfl]⟩
      · exact ⟨row, hrow, by rw [if_neg]; exact hne⟩
  | none =>
    rw [hreferenced] at hsave
    cases hsave
    have hstanding : state.standing call provider result =
        .of call.customerId provider result call.clock state.snapshots.next := by
      unfold State.standing
      rw [hreferenced]
    refine ⟨by rw [hstanding]; rfl, ?_, rfl, rfl⟩
    intro row
    rw [Log.rows_append, List.mem_append, List.mem_singleton, hstanding]
    constructor
    · rintro (hrow | rfl)
      · exact .inr ⟨hrow, (state.snapshots.below row hrow).ne⟩
      · exact .inl rfl
    · rintro (rfl | ⟨hrow, _⟩)
      · exact .inr rfl
      · exact .inl hrow

theorem obtain_eq_some {answer : ScoreResult} (hprovider : call.provider = some provider)
    (hresult : call.result? provider = some result)
    (hobtain : state.obtain call provider result = some (after, answer)) :
    Resolved state call after answer ∧ after.executions = state.executions := by
  unfold State.obtain at hobtain
  split at hobtain
  · obtain ⟨saved, hsave, hafter⟩ := Option.map_eq_some_iff.mp hobtain
    obtain ⟨hid, hrows, hexecutions, hobtained⟩ := saveSnapshot_eq_some hsave
    cases hafter
    have hsaves : Saves state call provider result
        { saved.1 with
          obtained := saved.1.obtained ++
            [⟨call.customerId, provider.id, result.score, result.category⟩] } :=
      ⟨hrows, by rw [hobtained]⟩
    exact ⟨.saved hprovider hresult hsaves rfl (congrArg some hid), hexecutions⟩
  · exact nomatch hobtain

theorem resolveScore_eq_some {answer : ScoreResult}
    (hresolve : state.resolveScore call = some (after, answer)) :
    Resolved state call after answer ∧ after.executions = state.executions := by
  unfold State.resolveScore at hresolve
  split at hresolve
  · rename_i hresult hprovider
    apply obtain_eq_some hprovider _ hresolve
    rw [Call.result?, hresult]
  · rename_i hprovider
    split at hresolve
    · cases hresolve
      exact ⟨.unsaved rfl rfl (by simp [hprovider]) nofun, rfl⟩
    · exact nomatch hresolve
  · exact nomatch hresolve
  · rename_i hresult hprovider
    split at hresolve
    · exact nomatch hresolve
    · split at hresolve
      · rename_i hforce
        obtain ⟨result, hfetch, hobtain⟩ := Option.bind_eq_some_iff.mp hresolve
        apply obtain_eq_some hprovider _ hobtain
        simp [Call.result?, hresult, hforce, hfetch]
      · rename_i hforce
        split at hresolve
        · exact nomatch hresolve
        · rename_i hreturns
          rw [not_not] at hreturns
          cases hcached : call.cached with
          | none =>
            rw [hcached] at hresolve
            obtain ⟨result, hfetch, hobtain⟩ := Option.bind_eq_some_iff.mp hresolve
            apply obtain_eq_some hprovider _ hobtain
            simp [Call.result?, hresult, hcached, hfetch]
          | some row =>
            rw [hcached] at hresolve hreturns
            cases hresolve
            refine ⟨.unsaved rfl rfl ?_ ?_, rfl⟩
            · intro provider _
              simp [Call.result?, hresult, hforce, hcached]
            · intro snapshotId hid
              cases hid
              exact ⟨row, (mem_snapshotsOf.mp hreturns.1).1, rfl, rfl⟩

theorem step_eq_some (hstep : step state call = some after) :
    state.now ≤ call.now ∧ after.now = call.now ∧ ∃ answer, Resolved state call after answer ∧
      ∃ id, after.executions.rows = state.executions.rows ++
        [{ id := id, customerId := call.customerId, aiScoreSnapshotId := answer.snapshotId
           aiScore := answer.score, customerCategory := answer.category }] := by
  unfold step at hstep
  obtain ⟨_, hstep⟩ := Option.ite_none_left_eq_some.mp hstep
  rename_i htime
  obtain ⟨resolved, hresolve, hafter⟩ := Option.map_eq_some_iff.mp hstep
  obtain ⟨hresolved, hexecutions⟩ := resolveScore_eq_some hresolve
  cases hafter
  refine ⟨not_lt.mp htime, rfl, resolved.2, ?_, resolved.1.executions.next, ?_⟩
  · cases hresolved with
    | unsaved hsnapshots hobtained hnothing hanswer =>
      exact .unsaved hsnapshots hobtained hnothing hanswer
    | saved hprovider hresult hsaves hscore hid =>
      exact .saved hprovider hresult ⟨hsaves.rows, hsaves.obtained⟩ hscore hid
  · rw [Log.rows_append, hexecutions]

/-! ## What a saved result changes -/

theorem Saves.mem_own (hsaves : Saves state call provider result after) :
    row ∈ after.snapshotsOf call.customerId provider.id ↔
      row ∈ state.standing call provider result ::
        state.snapshotsOf call.customerId provider.id := by
  rw [mem_snapshotsOf, List.mem_cons, mem_snapshotsOf, hsaves.rows]
  constructor
  · rintro ⟨rfl | ⟨hrow, _⟩, hkey⟩
    · exact .inl rfl
    · exact .inr ⟨hrow, hkey⟩
  · rintro (rfl | ⟨hrow, hkey⟩)
    · exact ⟨.inl rfl, standing_customerId, standing_providerId⟩
    · refine ⟨?_, hkey⟩
      by_cases hid : row.id = (state.standing call provider result).id
      · rw [standing_of_referenced (referenced_of_id hrow hid), ← hkey.1]
        exact .inl rfl
      · exact .inr ⟨hrow, hid⟩

theorem Saves.mem_other (hsaves : Saves state call provider result after) {customerId : String}
    {providerId : ℕ} (hother : customerId ≠ call.customerId ∨ providerId ≠ provider.id) :
    row ∈ after.snapshotsOf customerId providerId ↔
      row ∈ state.snapshotsOf customerId providerId ∧
        row.id ≠ (state.standing call provider result).id := by
  rw [mem_snapshotsOf, mem_snapshotsOf, hsaves.rows]
  constructor
  · rintro ⟨rfl | ⟨hrow, hid⟩, hkey⟩
    · rw [standing_customerId, standing_providerId] at hkey
      rcases hother with hcustomer | hprovider
      · exact absurd hkey.1.symm hcustomer
      · exact absurd hkey.2.symm hprovider
    · exact ⟨⟨hrow, hkey⟩, hid⟩
  · rintro ⟨⟨hrow, hkey⟩, hid⟩
    exact ⟨.inr ⟨hrow, hid⟩, hkey⟩

/-- The snapshots of another customer or provider stay, unless the reference was theirs. -/
theorem Saves.mem_same (hsaves : Saves state call provider result after) {customerId : String}
    {providerId : ℕ} (hother : customerId ≠ call.customerId ∨ providerId ≠ provider.id)
    (hforeign : ∀ old ∈ state.referenced provider.id result.referenceId,
      old.customerId = customerId → providerId ≠ provider.id) :
    row ∈ after.snapshotsOf customerId providerId ↔
      row ∈ state.snapshotsOf customerId providerId := by
  rw [hsaves.mem_other hother, and_iff_left_iff_imp]
  intro hrow hid
  obtain ⟨hmem, hcustomer, hprovider⟩ := mem_snapshotsOf.mp hrow
  have hreferenced := referenced_of_id hmem hid
  exact hforeign row hreferenced hcustomer
    (hprovider.symm.trans (mem_of_referenced hreferenced).2)

/-- The customer whose reference is used again loses the snapshot. -/
theorem Saves.mem_lost (hsaves : Saves state call provider result after) {old : Snapshot}
    (hold : state.referenced provider.id result.referenceId = some old)
    (hcustomer : old.customerId ≠ call.customerId) :
    row ∈ after.snapshotsOf old.customerId provider.id ↔
      row ∈ state.snapshotsOf old.customerId provider.id ∧ row ≠ old := by
  rw [hsaves.mem_other (.inl hcustomer), standing_of_referenced hold]
  apply and_congr_right
  intro hrow
  apply not_congr
  constructor
  · exact fun hid => state.snapshots.eq_of_serial_eq (mem_snapshotsOf.mp hrow).1
      (mem_of_referenced hold).1 hid
  · rintro rfl
    rfl

/-- What others see stays exactly if the snapshot that is taken from another was not to be
returned. -/
theorem Saves.undisturbed_iff (hsaves : Saves state call provider result after) :
    Undisturbed state call after ↔
      ∀ old ∈ state.referenced provider.id result.referenceId,
        old.customerId ≠ call.customerId →
          old.expiresAt ≤ call.now ∨ ∃ better ∈ state.snapshotsOf old.customerId provider.id,
            Outranks Snapshot.scoredAt Snapshot.expiresAt better old := by
  constructor
  · intro hundisturbed old hold hcustomer
    obtain ⟨hmem, hprovider⟩ := mem_of_referenced hold
    rw [← never_answers_iff (mem_snapshotsOf.mpr ⟨hmem, rfl, hprovider⟩),
      ← looksUp_without_iff fun row => hsaves.mem_lost hold hcustomer]
    exact hundisturbed old.customerId hcustomer provider.id
  · intro hspares customerId hcustomer providerId
    by_cases hlost : ∃ old ∈ state.referenced provider.id result.referenceId,
        old.customerId = customerId ∧ providerId = provider.id
    · obtain ⟨old, hold, rfl, rfl⟩ := hlost
      obtain ⟨hmem, hprovider⟩ := mem_of_referenced hold
      rw [looksUp_without_iff fun row => hsaves.mem_lost hold hcustomer,
        never_answers_iff (mem_snapshotsOf.mpr ⟨hmem, rfl, hprovider⟩)]
      exact hspares old hold hcustomer
    · intro later _ returned
      apply looksUp_congr
      intro row
      apply hsaves.mem_same (.inl hcustomer)
      intro old hold howner hprovider
      exact hlost ⟨old, hold, howner, hprovider⟩

/-! ## The truth after a saved result -/

theorem Saves.lastObtained_own (hsaves : Saves state call provider result after) :
    after.lastObtained call.customerId provider.id = some (result.score, result.category) := by
  unfold State.lastObtained
  rw [hsaves.obtained, List.filter_append]
  simp

theorem Saves.lastObtained_other (hsaves : Saves state call provider result after)
    {customerId : String} {providerId : ℕ}
    (hother : ¬ (customerId = call.customerId ∧ providerId = provider.id)) :
    after.lastObtained customerId providerId = state.lastObtained customerId providerId := by
  unfold State.lastObtained
  rw [hsaves.obtained, List.filter_append, List.filter_cons_of_neg, List.filter_nil,
    List.append_nil]
  intro hsame
  rw [Bool.and_eq_true, decide_eq_true_iff, decide_eq_true_iff] at hsame
  exact hother ⟨hsame.1.symm, hsame.2.symm⟩

/-- Where nothing else is disturbed, the truth of all snapshots is that of the customer's own. -/
theorem Saves.truthful_iff (hsaves : Saves state call provider result after)
    (htruthful : state.Truthful) (htime : state.now ≤ call.now) (hnow : after.now = call.now)
    (hundisturbed : Undisturbed state call after) :
    after.Truthful ↔
      ∀ row ∈ state.standing call provider result ::
          state.snapshotsOf call.customerId provider.id,
        ¬ (result.score, result.category) = (row.score, row.category) →
          call.now < row.expiresAt →
            ∃ better ∈ state.standing call provider result ::
                state.snapshotsOf call.customerId provider.id,
              Outranks Snapshot.scoredAt Snapshot.expiresAt better row := by
  have hmem : ∀ row, row ∈ after.snapshotsOf call.customerId provider.id ↔
      row ∈ state.standing call provider result ::
        state.snapshotsOf call.customerId provider.id := fun row => hsaves.mem_own
  rw [← answers_good_iff]
  constructor
  · intro hafter later hlater row hanswers
    have hanswers' := (answers_congr hmem).mpr hanswers
    have hlast := hafter call.customerId provider.id later (hnow ▸ hlater) row hanswers'
    exact Option.some.inj (hsaves.lastObtained_own.symm.trans hlast)
  · intro hown customerId providerId later hlater row hanswers
    rw [hnow] at hlater
    by_cases hkey : customerId = call.customerId ∧ providerId = provider.id
    · obtain ⟨rfl, rfl⟩ := hkey
      rw [answers_congr hmem] at hanswers
      rw [hsaves.lastObtained_own, hown later hlater row hanswers]
    · rw [hsaves.lastObtained_other hkey]
      apply htruthful customerId providerId later (htime.trans hlater)
      by_cases hcustomer : customerId = call.customerId
      · have hprovider : providerId ≠ provider.id := fun h => hkey ⟨hcustomer, h⟩
        exact (answers_congr fun row =>
          hsaves.mem_same (.inr hprovider) fun _ _ _ => hprovider).mp hanswers
      · exact (hundisturbed customerId hcustomer providerId later hlater (some row)).mp hanswers

/-- The snapshots of earlier executions keep their scores. -/
theorem Saves.backed_iff (hsaves : Saves state call provider result after)
    (hbacked : state.Backed) {execution : Execution}
    (hexecutions : after.executions.rows = state.executions.rows ++ [execution])
    (hid : execution.aiScoreSnapshotId = some (state.standing call provider result).id)
    (hscore : execution.aiScore = result.score) :
    after.Backed ↔ (state.standing call provider result).score = result.score := by
  have hstanding : state.standing call provider result ∈ after.snapshots.rows :=
    (hsaves.rows _).mpr (.inl rfl)
  constructor
  · intro hafter
    obtain ⟨row, hrow, hsame, hrowScore⟩ :=
      hafter execution (by simp [hexecutions]) _ (Option.mem_def.mpr hid)
    rw [← after.snapshots.eq_of_serial_eq hrow hstanding hsame, hrowScore, hscore]
  · intro hholds other hother snapshotId hsnapshot
    rw [hexecutions] at hother
    rcases List.mem_append.mp hother with hold | hnew
    · obtain ⟨row, hrow, rfl, hrowScore⟩ := hbacked other hold snapshotId hsnapshot
      by_cases hsame : row.id = (state.standing call provider result).id
      · refine ⟨_, hstanding, hsame.symm, ?_⟩
        rw [standing_of_referenced (referenced_of_id hrow hsame), ← hrowScore]
        rfl
      · exact ⟨row, (hsaves.rows row).mpr (.inr ⟨hrow, hsame⟩), rfl, hrowScore⟩
    · rw [List.mem_singleton.mp hnew, hid, Option.mem_some_iff] at hsnapshot
      rw [List.mem_singleton.mp hnew, hscore]
      exact ⟨_, hstanding, hsnapshot, hholds⟩

/-! ## One call and all runs -/

/-- A call keeps the truth of the snapshots exactly if the result that it obtains fits. -/
theorem step_iff (htruthful : state.Truthful) (hbacked : state.Backed)
    (hstep : step state call = some after) :
    (after.Truthful ∧ after.Backed ∧ Undisturbed state call after) ↔ Orderly state call := by
  obtain ⟨htime, hnow, answer, hresolved, id, hexecutions⟩ := step_eq_some hstep
  cases hresolved with
  | unsaved hsnapshots hobtained hnothing hanswer =>
    have hsame : ∀ customerId providerId,
        after.snapshotsOf customerId providerId = state.snapshotsOf customerId providerId := by
      intro customerId providerId
      rw [State.snapshotsOf, State.snapshotsOf, hsnapshots]
    apply iff_of_true
    · refine ⟨?_, ?_, ?_⟩
      · intro customerId providerId later hlater row hanswers
        rw [hsame] at hanswers
        rw [State.lastObtained, hobtained]
        exact htruthful customerId providerId later (htime.trans (hnow ▸ hlater)) row hanswers
      · intro execution hexecution
        rw [hsnapshots]
        rw [hexecutions] at hexecution
        rcases List.mem_append.mp hexecution with hold | hnew
        · exact hbacked execution hold
        · rw [List.mem_singleton.mp hnew]
          exact hanswer
      · intro customerId _ providerId later _ returned
        rw [hsame]
    · intro provider hprovider result hresult
      rw [hnothing provider hprovider] at hresult
      exact nomatch hresult
  | @saved provider result hprovider hresult hsaves hscore hid =>
    have horderly : Orderly state call ↔ Fits state call provider result := by
      simp [Orderly, hprovider, hresult]
    have hbackedIff := hsaves.backed_iff hbacked hexecutions hid hscore
    rw [horderly]
    constructor
    · rintro ⟨hafter, hbackedAfter, hundisturbed⟩
      exact ⟨hbackedIff.mp hbackedAfter,
        (hsaves.truthful_iff htruthful htime hnow hundisturbed).mp hafter,
        hsaves.undisturbed_iff.mp hundisturbed⟩
    · intro hfits
      have hundisturbed := hsaves.undisturbed_iff.mpr hfits.spares
      exact ⟨(hsaves.truthful_iff htruthful htime hnow hundisturbed).mpr hfits.outranks,
        hbackedIff.mpr hfits.holds, hundisturbed⟩

/-- In runs whose results fit, cached scores are the customers' own latest, executions point to
the scores that they used, and no call disturbs what other customers see; the first result that
does not fit breaks one of these. -/
theorem cached_scores_are_true {state : State} (hrun : ReachesUnder step Orderly {} state) :
    (state.Truthful ∧ state.Backed) ∧
      ∀ call after, step state call = some after →
        ((after.Truthful ∧ after.Backed ∧ Undisturbed state call after) ↔ Orderly state call) := by
  have hboth : state.Truthful ∧ state.Backed := by
    apply hrun.preserves (fun state => state.Truthful ∧ state.Backed)
    · rintro before call after ⟨htruthful, hbacked⟩ horderly hstep
      obtain ⟨hafter, hbackedAfter, _⟩ := (step_iff htruthful hbacked hstep).mpr horderly
      exact ⟨hafter, hbackedAfter⟩
    · constructor
      · rintro customerId providerId later _ row ⟨hrow, _⟩
        exact absurd hrow (by simp [State.snapshotsOf])
      · simp [State.Backed]
  obtain ⟨htruthful, hbacked⟩ := hboth
  constructor
  · exact ⟨htruthful, hbacked⟩
  · intro call after hstep
    exact step_iff htruthful hbacked hstep

end

/-! ## One reference, two customers -/

instance (state : State) (call : Call) (provider : Provider) (result : AiResult) :
    Decidable (Fits state call provider result) :=
  decidable_of_iff
    ((state.standing call provider result).score = result.score ∧
      (∀ row ∈
          state.standing call provider result :: state.snapshotsOf call.customerId provider.id,
        ¬ (result.score, result.category) = (row.score, row.category) →
          call.now < row.expiresAt →
            ∃ better ∈ state.standing call provider result ::
                state.snapshotsOf call.customerId provider.id,
              Outranks Snapshot.scoredAt Snapshot.expiresAt better row) ∧
      ∀ old ∈ state.referenced provider.id result.referenceId,
        old.customerId ≠ call.customerId →
          old.expiresAt ≤ call.now ∨ ∃ better ∈ state.snapshotsOf old.customerId provider.id,
            Outranks Snapshot.scoredAt Snapshot.expiresAt better old)
    ⟨fun h => ⟨h.1, h.2.1, h.2.2⟩, fun h => ⟨h.holds, h.outranks, h.spares⟩⟩

instance (state : State) (call : Call) : Decidable (Orderly state call) :=
  inferInstanceAs (Decidable
    (∀ provider ∈ call.provider, ∀ result ∈ call.result? provider,
      Fits state call provider result))

/-- A provider without bounds. -/
def scoreModel : Provider where
  id := 1
  code := "SCORE_MODEL"
  fields :=
    { name := "Model", httpIntegrationId := 1, scoreResponsePath := "score"
      categoryResponsePath := "grade" }
  isActive := true
  createdBy := "maker"

/-- A result is submitted for a customer. -/
def submits (customerId reference : String) (score : ℚ) (category : String) (now : ℤ) : Call where
  customerId := customerId
  provider := some scoreModel
  aiResult := some { score := score, category := category, referenceId := some reference }
  now := now
  clock := now

/-- Two customers are scored, and one of them again. -/
theorem cached_scores_are_true_rescored :
    ∃ state, ReachesUnder step Orderly {} state ∧
      state.snapshots.rows.map (fun row => (row.customerId, row.score)) =
        [("first", 700), ("second", 300), ("first", 650)] ∧
      state.Truthful ∧ state.Backed := by
  have hany : (runInputs (guardedStep step Orderly) {}
      [submits "first" "R1" 700 "A" 1, submits "second" "R2" 300 "C" 2,
        submits "first" "R3" 650 "B" 3]).any (fun state =>
          decide (state.snapshots.rows.map (fun row => (row.customerId, row.score)) =
            [("first", 700), ("second", 300), ("first", 650)])) := by
    decide +kernel
  obtain ⟨state, hrun, hrows⟩ := (Option.any_eq_true _ _).mp hany
  have hreaches := (Reaches.of_runInputs hrun).under
  exact ⟨state, hreaches, of_decide_eq_true hrows, (cached_scores_are_true hreaches).1⟩

/-- A second customer with the reference of the first takes over the snapshot with its score. -/
theorem reference_moves_score :
    ∃ before state, Reaches step {} before ∧
      step before (submits "second" "R1" 300 "C" 2) = some state ∧
      state.snapshots.rows.map (fun row => (row.customerId, row.score, row.category)) =
        [("second", 700, "A")] ∧
      state.lastObtained "second" 1 = some (300, "C") ∧
      ¬ state.Truthful ∧ ¬ state.Backed ∧
      ¬ Undisturbed before (submits "second" "R1" 300 "C" 2) state := by
  have hany : (runInputs step {} [submits "first" "R1" 700 "A" 1]).any (fun before =>
      (step before (submits "second" "R1" 300 "C" 2)).any fun state =>
        decide (state.snapshots.rows.map (fun row => (row.customerId, row.score, row.category)) =
            [("second", 700, "A")] ∧
          state.lastObtained "second" 1 = some (300, "C") ∧ state.now ≤ 2 ∧
          (∃ row ∈ state.snapshotsOf "second" 1,
            Answers Snapshot.scoredAt Snapshot.expiresAt (state.snapshotsOf "second" 1) 2 row ∧
              row.score = 700) ∧
          (∃ execution ∈ state.executions.rows, execution.aiScore = 300 ∧
            execution.aiScoreSnapshotId = some 1) ∧
          (∀ row ∈ state.snapshots.rows, row.score = 700) ∧
          LooksUp Snapshot.scoredAt Snapshot.expiresAt (state.snapshotsOf "first" 1) 2 none ∧
          ¬ LooksUp Snapshot.scoredAt Snapshot.expiresAt (before.snapshotsOf "first" 1) 2
            none)) := by
    decide +kernel
  obtain ⟨before, hrun, hany⟩ := (Option.any_eq_true _ _).mp hany
  obtain ⟨state, hstep, hfacts⟩ := (Option.any_eq_true _ _).mp hany
  obtain ⟨hrows, hlast, hnow, ⟨row, _, hanswers, hrow⟩, ⟨execution, hexecution, hscore, hid⟩,
    hscores, hgone, hseen⟩ := of_decide_eq_true hfacts
  refine ⟨before, state, .of_runInputs hrun, hstep, hrows, hlast, ?_, ?_, ?_⟩
  · intro htruthful
    have htold := htruthful "second" 1 2 hnow row hanswers
    rw [hlast, hrow] at htold
    exact absurd (congrArg Prod.fst (Option.some.inj htold)) (by norm_num)
  · intro hbacked
    obtain ⟨other, hother, _, hheld⟩ := hbacked execution hexecution 1 hid
    rw [hscores other hother, hscore] at hheld
    exact absurd hheld (by norm_num)
  · intro hundisturbed
    exact hseen ((hundisturbed "first" (by decide) 1 2 (by decide) none).mp hgone)

end Finify.Credit.Scores
