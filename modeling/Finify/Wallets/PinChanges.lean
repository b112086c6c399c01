/-
# PIN changes stick and guessing is bounded

The failure counter bounds guesses as long as wrong PINs under way are few enough
for it and none is compared between a right one and its reset.  A changed PIN
stays as long as no verification writes back a legacy PIN that it read before the
change.  Verifications that overlap break both.
-/

import Finify.Wallets.Pins
import Mathlib.Data.List.Count

namespace Finify.Wallets.Pins

open Foundations

/-! ## Overlaps that do no harm -/

/-- What the failure counter of the account stands at. -/
def State.failed (state : State) : ℕ :=
  (state.account.standing.map fun profile => profile.failAttempt.getD 0).getD 0

/-- A wrong PIN whose failure is not counted yet. -/
def Call.isWrong (call : Call) : Bool :=
  match call.phase with
  | .comparing stored => decide (call.pin ≠ stored.pin)
  | .recording matched => !matched
  | _ => false

/-- A wrong PIN that has been compared and is not counted yet. -/
def Call.isUncounted (call : Call) : Bool := decide (call.phase = .recording false)

/-- A right PIN whose reset of the counter is outstanding. -/
def Call.Resets (call : Call) : Prop :=
  call.phase = .rehashing ∨ call.phase = .recording true

/-- A legacy PIN is written back only while it is the PIN of the account. -/
def KeepsPin (state : State) : Event → Prop
  | .start _ _ => True
  | .advance call => call.phase = .rehashing → call.pin = state.current

/-- Wrong PINs under way and counted failures are two at most before another is compared with the
account, none is compared while a reset is outstanding, and after a change the right PIN is not
presented to a locked account. -/
def KeepsCount (state : State) : Event → Prop
  | .start pin _ =>
    (∀ stored ∈ state.account.compared?, pin ≠ stored.pin →
      state.failed + state.calls.countP Call.isWrong ≤ 2) ∧
    (state.changed = true → pin = state.current → state.account.compared?.isSome)
  | .advance call =>
    ∀ stored, call.phase = .comparing stored → call.pin ≠ stored.pin →
      ∀ other ∈ state.calls, ¬ other.Resets

def Orderly (state : State) (event : Event) : Prop := KeepsPin state event ∧ KeepsCount state event

/-! ## The invariant -/

/-- What the counter and the calls under way say of the wrong PINs compared so far. -/
structure State.Sound (state : State) : Prop where
  quiet : ∀ call ∈ state.calls, call.Resets → wrongRun state.comparisons = 0
  counted : wrongRun state.comparisons ≤ state.failed + state.calls.countP Call.isUncounted
  few : 0 < state.calls.countP Call.isWrong →
    state.failed + state.calls.countP Call.isWrong ≤ 3
  expects : ∀ call ∈ state.calls, ∀ stored, call.phase = .comparing stored →
    ∀ expected ∈ call.expected, stored.pin = expected

variable {secret : Bool} {state : State} {call : Call}

/-! ### Calls and the counter -/

/-- A call that goes on is counted by where it stands. -/
theorem countP_erase_add (p : Call → Bool) {calls : List Call} (hmem : call ∈ calls) :
    (calls.erase call).countP p + (if p call then 1 else 0) = calls.countP p := by
  have hperm := (List.perm_cons_erase hmem).countP_eq p
  rw [hperm, List.countP_cons]

theorem Call.isWrong_of_isUncounted (hcall : call.isUncounted = true) : call.isWrong = true := by
  have hphase : call.phase = .recording false := of_decide_eq_true hcall
  simp [Call.isWrong, hphase]

theorem countP_isUncounted_le (calls : List Call) :
    calls.countP Call.isUncounted ≤ calls.countP Call.isWrong :=
  List.countP_mono_left fun _ _ => Call.isWrong_of_isUncounted

theorem failed_of_standing {profile : Profile}
    (hstanding : state.account.standing = some profile) :
    state.failed = profile.failAttempt.getD 0 := by
  simp [State.failed, hstanding]

/-- A PIN is compared only while two failures at most are counted. -/
theorem compared?_eq_some {stored : Stored} (hcompared : state.account.compared? = some stored) :
    state.failed ≤ 2 ∧ ∃ profile, state.account.standing = some profile ∧
      profile.pin = some stored := by
  simp only [Account.compared?, Account.checkWalletPin] at hcompared
  cases hstanding : state.account.standing with
  | none => simp [hstanding] at hcompared
  | some profile =>
    simp only [hstanding, Option.map_some, Option.ite_none_left_eq_some] at hcompared
    obtain ⟨hfew, hpin⟩ := hcompared
    exact ⟨by rw [failed_of_standing hstanding]; omega, profile, rfl, hpin⟩

/-- What an action leaves of the row that is read. -/
theorem standing_apply {profile : Profile} (hstanding : state.account.standing = some profile)
    (action : Action) : (state.account.apply action).standing = some (profile.apply action) := by
  rw [Account.standing_apply, hstanding, Option.map_some]

theorem State.Sticks.pin (hsticks : state.Sticks) {stored : Stored}
    (hcompared : state.account.compared? = some stored) : stored.pin = state.current := by
  obtain ⟨profile, standing, hstanding, hpin, hcurrent⟩ := hsticks
  obtain ⟨_, other, hother, hstored⟩ := compared?_eq_some hcompared
  have hsame : profile = other := Option.some.inj (hstanding.symm.trans hother)
  have hequal : standing = stored := Option.some.inj (hpin.symm.trans (hsame ▸ hstored))
  exact hequal ▸ hcurrent

/-- The PIN of the account is untouched by the counter. -/
theorem State.Sticks.counts (hsticks : state.Sticks) {action : Action}
    (haction : ∀ profile : Profile, (profile.apply action).pin = profile.pin) :
    ∃ profile stored, (state.account.apply action).standing = some profile ∧
      profile.pin = some stored ∧ stored.pin = state.current := by
  obtain ⟨profile, stored, hstanding, hpin, hcurrent⟩ := hsticks
  exact ⟨_, stored, standing_apply hstanding action, (haction profile).trans hpin, hcurrent⟩

/-! ### What a step does -/

/-- A comparison fails for want of the secret, or finds the PIN wrong, or right. -/
theorem compare_cases (secret : Bool) (state : State) (call : Call) (stored : Stored) :
    state.compare secret call stored = state.drop call ∨
    (call.pin ≠ stored.pin ∧
      state.compare secret call stored =
        (state.compared call false).goOn call (.recording false)) ∨
    call.pin = stored.pin ∧ ∃ phase, (phase = .rehashing ∨ phase = .recording true) ∧
      state.compare secret call stored = (state.compared call true).goOn call phase := by
  cases stored with
  | bcrypt pin =>
    by_cases hpin : call.pin = pin
    · exact .inr (.inr ⟨hpin, .recording true, .inr rfl, if_pos hpin⟩)
    · exact .inr (.inl ⟨hpin, if_neg hpin⟩)
  | hmac pin =>
    cases secret with
    | false => exact .inl rfl
    | true =>
      by_cases hpin : call.pin = pin
      · exact .inr (.inr ⟨hpin, .rehashing, .inl rfl, if_pos hpin⟩)
      · exact .inr (.inl ⟨hpin, if_neg hpin⟩)

theorem mem_goOn {other : Call} {phase : Phase} (hmem : other ∈ (state.goOn call phase).calls) :
    other = { call with phase } ∨ other ∈ state.calls :=
  (List.mem_cons.mp hmem).imp_right List.mem_of_mem_erase

theorem countP_goOn (p : Call → Bool) (hmem : call ∈ state.calls) {phase : Phase}
    (hsame : p { call with phase } = p call) :
    (state.goOn call phase).calls.countP p = state.calls.countP p := by
  rw [State.goOn, List.countP_cons, hsame, countP_erase_add p hmem]

theorem countP_drop (p : Call → Bool) (hmem : call ∈ state.calls) (hnot : p call = false) :
    (state.drop call).calls.countP p = state.calls.countP p := by
  have hcount := countP_erase_add p hmem
  simpa [State.drop, hnot] using hcount

/-- A call under way may go on in a phase that counts as much, whatever is written meanwhile. -/
theorem State.Sound.goOn (hsound : state.Sound) (hmem : call ∈ state.calls) {phase : Phase}
    (hlater : ∀ stored, phase ≠ .comparing stored)
    (hwrong : Call.isWrong { call with phase } = call.isWrong)
    (huncounted : Call.isUncounted { call with phase } = call.isUncounted)
    (hresets : Call.Resets { call with phase } → wrongRun state.comparisons = 0) :
    (state.goOn call phase).Sound := by
  constructor
  case quiet =>
    intro other hother hreset
    cases mem_goOn hother with
    | inl hnew => exact hresets (hnew ▸ hreset)
    | inr hold => exact hsound.quiet other hold hreset
  case counted =>
    rw [countP_goOn _ hmem huncounted]
    exact hsound.counted
  case few =>
    rw [countP_goOn _ hmem hwrong]
    exact hsound.few
  case expects =>
    intro other hother stored hphase
    cases mem_goOn hother with
    | inl hnew =>
      subst hnew
      exact absurd hphase (hlater stored)
    | inr hold => exact hsound.expects other hold stored hphase

theorem State.Sound.drop (hsound : state.Sound) (hmem : call ∈ state.calls)
    (hcounted : call.isUncounted = false) : (state.drop call).Sound := by
  constructor
  case quiet =>
    exact fun other hother => hsound.quiet other (List.mem_of_mem_erase hother)
  case counted =>
    rw [countP_drop _ hmem hcounted]
    exact hsound.counted
  case few =>
    intro hsome
    have hcount := countP_erase_add Call.isWrong hmem
    have hfew := hsound.few
    simp only [State.drop] at hsome ⊢
    simp only [State.failed] at hfew ⊢
    omega
  case expects =>
    exact fun other hother => hsound.expects other (List.mem_of_mem_erase hother)

/-- Writing the PIN does not touch what the calls say of the counter. -/
theorem State.Sound.updateWalletPin (hsound : state.Sound) (pin : Stored) :
    State.Sound { state with account := state.account.apply (.updateWalletPin pin) } := by
  have hfailed : State.failed { state with account := state.account.apply (.updateWalletPin pin) } =
      state.failed := by
    simp only [State.failed, Account.standing_apply, Option.map_map]
    rfl
  refine ⟨hsound.quiet, ?_, ?_, hsound.expects⟩
  · rw [hfailed]
    exact hsound.counted
  · rw [hfailed]
    exact hsound.few

/-- A reset of the counter while no wrong PIN has been compared since the last right one. -/
theorem State.Sound.failAttemptReset (hsound : state.Sound)
    (hzero : wrongRun state.comparisons = 0) :
    State.Sound { state with account := state.account.apply .failAttemptReset } := by
  have hfailed : State.failed { state with account := state.account.apply .failAttemptReset } =
      0 := by
    simp only [State.failed, Account.standing_apply, Option.map_map]
    cases state.account.standing with
    | none => rfl
    | some profile => rfl
  refine ⟨hsound.quiet, ?_, ?_, hsound.expects⟩
  · show wrongRun state.comparisons ≤ _
    omega
  · intro hsome
    have hfew := hsound.few hsome
    rw [hfailed]
    show 0 + state.calls.countP Call.isWrong ≤ 3
    omega

/-- A failure is counted, and its call is over. -/
theorem State.Sound.failedWalletPin (hsound : state.Sound) (hsticks : state.Sticks)
    (hmem : call ∈ state.calls) (hphase : call.phase = .recording false) :
    (State.drop { state with account := state.account.apply .failedWalletPin } call).Sound := by
  obtain ⟨profile, _, hstanding, _, _⟩ := hsticks
  have hwrong : call.isWrong = true := by simp [Call.isWrong, hphase]
  have huncounted : call.isUncounted = true := by simp [Call.isUncounted, hphase]
  have hcount := countP_erase_add Call.isWrong hmem
  have hcountUncounted := countP_erase_add Call.isUncounted hmem
  rw [if_pos hwrong] at hcount
  rw [if_pos huncounted] at hcountUncounted
  have hbefore := failed_of_standing hstanding
  have hafter : State.failed
      (State.drop { state with account := state.account.apply .failedWalletPin } call) =
        state.failed + 1 := by
    have hstands : (State.drop { state with account := state.account.apply .failedWalletPin }
        call).account.standing = some (profile.apply .failedWalletPin) :=
      standing_apply hstanding .failedWalletPin
    rw [hbefore]
    exact failed_of_standing hstands
  constructor
  case quiet => exact fun other hother => hsound.quiet other (List.mem_of_mem_erase hother)
  case counted =>
    have hcounted := hsound.counted
    rw [hafter]
    show wrongRun state.comparisons ≤ state.failed + 1 + (state.calls.erase call).countP _
    omega
  case few =>
    intro _
    have hfew := hsound.few (by omega)
    rw [hafter]
    show state.failed + 1 + (state.calls.erase call).countP _ ≤ 3
    omega
  case expects => exact fun other hother => hsound.expects other (List.mem_of_mem_erase hother)

/-! ### A wrong PIN is compared -/

/-- Two wrong PINs at most were compared before, counted or not. -/
theorem State.Sound.wrongRun_le (hsound : state.Sound) (hmem : call ∈ state.calls)
    {stored : Stored} (hphase : call.phase = .comparing stored) (hpin : call.pin ≠ stored.pin) :
    wrongRun state.comparisons ≤ 2 := by
  have hwrong : call.isWrong = true := by simp [Call.isWrong, hphase, hpin]
  have huncounted : call.isUncounted = false := by simp [Call.isUncounted, hphase]
  have hcount := countP_erase_add Call.isWrong hmem
  have hcountUncounted := countP_erase_add Call.isUncounted hmem
  have hless := countP_isUncounted_le (state.calls.erase call)
  rw [if_pos hwrong] at hcount
  rw [if_neg (by simp [huncounted])] at hcountUncounted
  have hfew := hsound.few (by omega)
  have hcounted := hsound.counted
  omega

theorem State.Sound.wrong (hsound : state.Sound) (hmem : call ∈ state.calls)
    {stored : Stored} (hphase : call.phase = .comparing stored) (hpin : call.pin ≠ stored.pin)
    (hquiet : ∀ other ∈ state.calls, ¬ other.Resets) :
    ((state.compared call false).goOn call (.recording false)).Sound := by
  have hwrong : Call.isWrong { call with phase := .recording false } = call.isWrong := by
    simp [Call.isWrong, hphase, hpin]
  have hcount : ((state.compared call false).goOn call (.recording false)).calls.countP
      Call.isUncounted = state.calls.countP Call.isUncounted + 1 := by
    have herase := countP_erase_add Call.isUncounted hmem
    rw [if_neg (by simp [Call.isUncounted, hphase])] at herase
    rw [State.goOn, List.countP_cons, if_pos (by simp [Call.isUncounted])]
    exact congrArg (· + 1) herase
  constructor
  case quiet =>
    intro other hother hreset
    cases mem_goOn hother with
    | inl hnew =>
      subst hnew
      simp [Call.Resets] at hreset
    | inr hold => exact absurd hreset (hquiet other hold)
  case counted =>
    rw [hcount]
    show wrongRun state.comparisons + 1 ≤ state.failed + _
    have hcounted := hsound.counted
    omega
  case few =>
    have hsame : ((state.compared call false).goOn call (.recording false)).calls.countP
        Call.isWrong = state.calls.countP Call.isWrong :=
      countP_goOn Call.isWrong (show call ∈ (state.compared call false).calls from hmem) hwrong
    rw [hsame]
    exact hsound.few
  case expects =>
    intro other hother kept hkept
    cases mem_goOn hother with
    | inl hnew =>
      subst hnew
      exact nomatch hkept
    | inr hold => exact hsound.expects other hold kept hkept

/-- A right PIN starts the count afresh. -/
theorem State.Sound.right (hsound : state.Sound) :
    (state.compared call true).Sound where
  quiet _ _ _ := rfl
  counted := Nat.zero_le _
  few := hsound.few
  expects := hsound.expects

/-! ## Steps and runs -/

theorem isWrong_of_resets {phase : Phase} (hphase : phase = .rehashing ∨ phase = .recording true) :
    Call.isWrong { call with phase } = false ∧ Call.isUncounted { call with phase } = false ∧
      ∀ stored, phase ≠ .comparing stored := by
  cases hphase with
  | inl hrehashing => subst hrehashing; simp [Call.isWrong, Call.isUncounted]
  | inr hrecording => subst hrecording; simp [Call.isWrong, Call.isUncounted]

/-- A new verification reads the counter and the PIN. -/
theorem State.Sound.start (hsound : state.Sound) (hsticks : state.Sticks) {pin : String}
    {newPin : Option String} (horderly : KeepsCount state (.start pin newPin)) :
    (state.start pin newPin).Sound := by
  simp only [State.start]
  split
  next hcompared => exact ⟨hsound.quiet, hsound.counted, hsound.few, hsound.expects⟩
  next stored hcompared =>
    have hfailed := (compared?_eq_some hcompared).1
    constructor
    case quiet =>
      intro other hother hreset
      cases List.mem_cons.mp hother with
      | inl hnew =>
        subst hnew
        simp [Call.Resets] at hreset
      | inr hold => exact hsound.quiet other hold hreset
    case counted =>
      simp only [List.countP_cons]
      exact Nat.le_trans hsound.counted (Nat.add_le_add_left (Nat.le_add_right _ _) _)
    case few =>
      intro hsome
      simp only [List.countP_cons] at hsome ⊢
      show state.failed + _ ≤ 3
      by_cases hpin : pin = stored.pin
      · rw [if_neg (by simp [Call.isWrong, hpin])] at hsome ⊢
        exact hsound.few hsome
      · have hfew := horderly.1 stored hcompared hpin
        split <;> omega
    case expects =>
      intro other hother kept hphase expected hexpected
      cases List.mem_cons.mp hother with
      | inl hnew =>
        subst hnew
        cases hphase
        simp only [State.expected, Option.mem_def, Option.ite_none_right_eq_some,
          Option.some.injEq] at hexpected
        exact (hsticks.pin hcompared).trans hexpected.2
      | inr hold => exact hsound.expects other hold kept hphase expected hexpected

theorem State.Kept.start (hkept : state.Kept) {pin : String} {newPin : Option String}
    (horderly : KeepsCount state (.start pin newPin)) : (state.start pin newPin).Kept := by
  simp only [State.start]
  split
  next hcompared =>
    refine ⟨hkept.bounded, hkept.sticks, ?_⟩
    intro verdict hverdict
    cases List.mem_append.mp hverdict with
    | inr hold => exact hkept.told verdict hold
    | inl hnew =>
      -- A locked account refuses; after a change no right PIN is presented to it.
      simp only [verdictOf, State.expected, List.mem_map, Option.mem_toList, 
        Option.ite_none_right_eq_some, Option.some.injEq] at hnew
      obtain ⟨expected, ⟨hchanged, hcurrent⟩, hverdict⟩ := hnew
      subst hverdict hcurrent
      have hother : pin ≠ state.current := by
        intro hpin
        have hsome := horderly.2 hchanged hpin
        simp [hcompared] at hsome
      simp [hother]
  next stored hcompared => exact ⟨hkept.bounded, hkept.sticks, hkept.told⟩

/-- The verdict of a comparison is right for a call that expects what it compares with. -/
theorem told_compared (hkept : state.Kept) {matched : Bool} {stored : Stored}
    (hmatched : matched = decide (call.pin = stored.pin))
    (hexpects : ∀ expected ∈ call.expected, stored.pin = expected) :
    ∀ verdict ∈ (state.compared call matched).verdicts,
      verdict.accepted = decide (verdict.pin = verdict.expected) := by
  intro verdict hverdict
  cases List.mem_append.mp hverdict with
  | inr hold => exact hkept.told verdict hold
  | inl hnew =>
    simp only [verdictOf, List.mem_map, Option.mem_toList] at hnew
    obtain ⟨expected, hexpected, hverdict⟩ := hnew
    subst hverdict
    simp only [hmatched, hexpects expected hexpected]

theorem step_compare (hsound : state.Sound) (hkept : state.Kept) (hmem : call ∈ state.calls)
    {stored : Stored} (hphase : call.phase = .comparing stored)
    (horderly : KeepsCount state (.advance call)) :
    (state.compare secret call stored).Sound ∧ (state.compare secret call stored).Kept := by
  have huncounted : call.isUncounted = false := by simp [Call.isUncounted, hphase]
  have hexpects := hsound.expects call hmem stored hphase
  rcases compare_cases secret state call stored with
    hdrop | ⟨hpin, hwrong⟩ | ⟨hpin, phase, hnext, hright⟩
  · rw [hdrop]
    exact ⟨hsound.drop hmem huncounted, hkept.bounded, hkept.sticks, hkept.told⟩
  · rw [hwrong]
    have hbefore := hsound.wrongRun_le hmem hphase hpin
    exact ⟨hsound.wrong hmem hphase hpin (horderly stored hphase hpin),
      hkept.bounded.cons (Nat.succ_le_succ hbefore), hkept.sticks,
      told_compared hkept (by simp [hpin]) hexpects⟩
  · rw [hright]
    obtain ⟨hnotWrong, hnotUncounted, hlater⟩ := @isWrong_of_resets call _ hnext
    have hwrong : call.isWrong = false := by simp [Call.isWrong, hphase, hpin]
    exact ⟨hsound.right.goOn hmem hlater (hnotWrong.trans hwrong.symm)
        (hnotUncounted.trans huncounted.symm) fun _ => rfl,
      hkept.bounded.cons (Nat.zero_le _), hkept.sticks,
      told_compared hkept (by simp [hpin]) hexpects⟩

/-- The counter writes of a call leave the PIN alone. -/
theorem Profile.apply_pin_of_counts (profile : Profile) :
    (profile.apply .failedWalletPin).pin = profile.pin ∧
      (profile.apply .failAttemptReset).pin = profile.pin := ⟨rfl, rfl⟩

theorem State.Sticks.updated (hsticks : state.Sticks) (pin : String) :
    ∃ profile stored,
      (state.account.apply (.updateWalletPin (.bcrypt pin))).standing = some profile ∧
        profile.pin = some stored ∧ stored.pin = pin := by
  obtain ⟨profile, _, hstanding, _, _⟩ := hsticks
  exact ⟨_, _, standing_apply hstanding _, rfl, rfl⟩

/-- A step keeps the PIN of the account exactly when it writes no other legacy PIN back. -/
theorem step_sticks (hsticks : state.Sticks) {event : Event} {after : State}
    (hstep : step secret state event = some after) : after.Sticks ↔ KeepsPin state event := by
  cases event with
  | start pin newPin =>
    cases hstep
    simp only [KeepsPin, iff_true, State.start]
    split
    next => exact hsticks
    next => exact hsticks
  | advance call =>
    simp only [step, Option.ite_none_right_eq_some] at hstep
    obtain ⟨_, hafter⟩ := hstep
    cases hafter
    simp only [KeepsPin, State.advance]
    split
    next stored hphase =>
      simp only [hphase, reduceCtorEq, false_implies, iff_true]
      rcases compare_cases secret state call stored with
        hdrop | ⟨_, hwrong⟩ | ⟨_, _, _, hright⟩
      · exact hdrop ▸ hsticks
      · exact hwrong ▸ hsticks
      · exact hright ▸ hsticks
    next hphase =>
      simp only [hphase, true_implies]
      obtain ⟨profile, stored, hstanding, hpin, hstored⟩ := hsticks.updated call.pin
      constructor
      · intro hafter
        obtain ⟨other, kept, hother, hkept, hcurrent⟩ := hafter
        have hsame : profile = other := Option.some.inj (hstanding.symm.trans hother)
        have hequal : stored = kept := Option.some.inj (hpin.symm.trans (hsame ▸ hkept))
        exact hstored.symm.trans (hequal ▸ hcurrent)
      · exact fun hcurrent => ⟨profile, stored, hstanding, hpin, hstored.trans hcurrent⟩
    next hphase =>
      simp only [hphase, reduceCtorEq, false_implies, iff_true]
      exact hsticks.counts fun profile => profile.apply_pin_of_counts.1
    next hphase =>
      simp only [hphase, reduceCtorEq, false_implies, iff_true]
      have hcounts := hsticks.counts fun profile => profile.apply_pin_of_counts.2
      split
      next => exact hcounts
      next => exact hcounts
    next hphase =>
      simp only [hphase, reduceCtorEq, false_implies, iff_true]
      split
      next => exact hsticks
      next newPin _ => exact hsticks.updated newPin

/-- An orderly step keeps the invariant and what PINs promise. -/
theorem step_kept (hsound : state.Sound) (hkept : state.Kept) {event : Event} {after : State}
    (horderly : Orderly state event) (hstep : step secret state event = some after) :
    after.Sound ∧ after.Kept := by
  have hsticks := (step_sticks hkept.sticks hstep).mpr horderly.1
  cases event with
  | start pin newPin =>
    cases hstep
    exact ⟨hsound.start hkept.sticks horderly.2, hkept.start horderly.2⟩
  | advance call =>
    simp only [step, Option.ite_none_right_eq_some] at hstep
    obtain ⟨hmem, hafter⟩ := hstep
    cases hafter
    obtain ⟨hnotWrong, hnotUncounted, hlater⟩ := @isWrong_of_resets call _ (.inr rfl)
    simp only [State.advance] at hsticks ⊢
    split
    next stored hphase => exact step_compare hsound hkept hmem hphase horderly.2
    next hphase =>
      -- The call that writes a legacy PIN back has its reset outstanding.
      have hzero := hsound.quiet call hmem (.inl hphase)
      refine ⟨(hsound.updateWalletPin _).goOn hmem hlater ?_ ?_ fun _ => hzero,
        hkept.bounded, ?_, hkept.told⟩
      · simp [Call.isWrong, hphase]
      · simp [Call.isUncounted, hphase]
      · simpa only [hphase] using hsticks
    next hphase =>
      refine ⟨hsound.failedWalletPin hkept.sticks hmem hphase, hkept.bounded, ?_, hkept.told⟩
      simpa only [hphase] using hsticks
    next hphase =>
      have hzero := hsound.quiet call hmem (.inr hphase)
      have hreset := hsound.failAttemptReset hzero
      have huncounted : call.isUncounted = false := by simp [Call.isUncounted, hphase]
      simp only [hphase] at hsticks
      split
      next hnone =>
        simp only [hnone] at hsticks
        exact ⟨hreset.drop hmem huncounted, hkept.bounded, hsticks, hkept.told⟩
      next newPin hsome =>
        simp only [hsome] at hsticks
        refine ⟨hreset.goOn hmem (by simp) ?_ ?_ fun _ => hzero, hkept.bounded, hsticks,
          hkept.told⟩
        · simp [Call.isWrong, hphase]
        · simp [Call.isUncounted, hphase]
    next hphase =>
      have huncounted : call.isUncounted = false := by simp [Call.isUncounted, hphase]
      simp only [hphase] at hsticks
      split
      next hnone =>
        exact ⟨hsound.drop hmem huncounted, hkept.bounded, hkept.sticks, hkept.told⟩
      next newPin hsome =>
        simp only [hsome] at hsticks
        have hwritten := hsound.updateWalletPin (.bcrypt newPin)
        have hchanged : State.Sound
            { state with
              account := state.account.apply (.updateWalletPin (.bcrypt newPin))
              current := newPin
              changed := true } :=
          ⟨hwritten.quiet, hwritten.counted, hwritten.few, hwritten.expects⟩
        exact ⟨hchanged.drop hmem huncounted, hkept.bounded, hsticks, hkept.told⟩

/-- In orderly runs guessing is bounded and changed PINs stick, and after one a step keeps the PIN
of the account exactly when it writes no other legacy PIN back. -/
theorem pins_stick {account : Account} {profile : Profile} {stored : Stored}
    (hstanding : account.standing = some profile) (hpin : profile.pin = some stored)
    (hrun : ReachesUnder (step secret) Orderly (State.opened account stored) state) :
    state.Kept ∧
      ∀ event after, step secret state event = some after →
        (after.Sticks ↔ KeepsPin state event) := by
  have hboth : state.Sound ∧ state.Kept := by
    apply hrun.preserves (fun state => state.Sound ∧ state.Kept)
    · rintro before event after ⟨hsound, hkept⟩ horderly hstep
      exact step_kept hsound hkept horderly hstep
    · constructor
      · exact ⟨by simp [State.opened], by simp [State.opened, wrongRun], by simp [State.opened],
          by simp [State.opened]⟩
      · exact ⟨by simp [State.opened, Bounded, wrongRun], ⟨profile, stored, hstanding, hpin, rfl⟩,
          by simp [State.opened]⟩
  constructor
  · exact hboth.2
  · intro event after hstep
    exact step_sticks hboth.2.sticks hstep

/-! ## Overlaps that do harm -/

instance (call : Call) : Decidable call.Resets :=
  inferInstanceAs (Decidable (_ ∨ _))

instance (state : State) (event : Event) : Decidable (KeepsPin state event) :=
  match event with
  | .start _ _ => isTrue trivial
  | .advance call =>
    inferInstanceAs (Decidable (call.phase = .rehashing → call.pin = state.current))

/-- What a call is about to compare with. -/
def Call.comparing? (call : Call) : Option Stored :=
  match call.phase with
  | .comparing stored => some stored
  | _ => none

theorem Call.comparing?_eq_some {stored : Stored} :
    call.comparing? = some stored ↔ call.phase = .comparing stored := by
  cases hphase : call.phase <;> simp [Call.comparing?, hphase]

instance (state : State) (event : Event) : Decidable (KeepsCount state event) :=
  match event with
  | .start pin _ =>
    inferInstanceAs (Decidable
      ((∀ stored ∈ state.account.compared?, pin ≠ stored.pin →
        state.failed + state.calls.countP Call.isWrong ≤ 2) ∧
      (state.changed = true → pin = state.current → state.account.compared?.isSome = true)))
  | .advance call =>
    decidable_of_iff
      (∀ stored ∈ call.comparing?, call.pin ≠ stored.pin → ∀ other ∈ state.calls, ¬ other.Resets)
      (forall_congr' fun _ => imp_congr_left Call.comparing?_eq_some)

instance (state : State) (event : Event) : Decidable (Orderly state event) :=
  inferInstanceAs (Decidable (_ ∧ _))

def customerWith (stored : Stored) : Account where
  customer := some { pin := some stored, failAttempt := some 0, status := 1 }
  merchant := none

/-- A call makes one step in each of the phases. -/
def advances (pin : String) (newPin expected : Option String) (phases : List Phase) :
    List Event :=
  phases.map fun phase => .advance { pin, newPin, expected, phase }

/-- A verification with nothing beside it. -/
def verifies (pin : String) (expected : Option String) (stored : Stored) : List Event :=
  .start pin none ::
    advances pin none expected [.comparing stored, .recording (decide (pin = stored.pin))]

/-- A change of the PIN with nothing beside it. -/
def changes (pin newPin : String) (stored : Stored) : List Event :=
  .start pin (some newPin) ::
    advances pin (some newPin) none [.comparing stored, .recording true, .changing]

/-- A guess, a change, and verifications with the new PIN and the old one. -/
theorem pins_stick_changed :
    ∃ state, ReachesUnder (step true) Orderly
        (State.opened (customerWith (.bcrypt "1111")) (.bcrypt "1111")) state ∧
      state.comparisons = [false, true, true, false] ∧
      state.verdicts = [⟨"1111", "2222", false⟩, ⟨"2222", "2222", true⟩] ∧ state.Kept := by
  have hany : (runInputs (guardedStep (step true) Orderly)
      (State.opened (customerWith (.bcrypt "1111")) (.bcrypt "1111"))
      (verifies "9999" none (.bcrypt "1111") ++ changes "1111" "2222" (.bcrypt "1111") ++
        verifies "2222" (some "2222") (.bcrypt "2222") ++
        verifies "1111" (some "2222") (.bcrypt "2222"))).any (fun state =>
          decide (state.comparisons = [false, true, true, false] ∧
            state.verdicts = [⟨"1111", "2222", false⟩, ⟨"2222", "2222", true⟩])) := by
    decide
  obtain ⟨state, hrun, hfacts⟩ := (Option.any_eq_true _ _).mp hany
  obtain ⟨hcomparisons, hverdicts⟩ := of_decide_eq_true hfacts
  have hreaches := (Reaches.of_runInputs hrun).under
  exact ⟨state, hreaches, hcomparisons, hverdicts, (pins_stick rfl rfl hreaches).1⟩

/-- Four guesses read the counter before any of them is counted, and a right PIN with them; and a
login that read a legacy PIN before a change writes it back after the change. -/
theorem pin_slips_back :
    (∃ state, Reaches (step true) (State.opened (customerWith (.bcrypt "1111")) (.bcrypt "1111"))
        state ∧
      state.comparisons = [true, false, false, false, false, true] ∧ ¬ state.Kept) ∧
    ∃ state, Reaches (step true) (State.opened (customerWith (.hmac "1111")) (.hmac "1111"))
        state ∧
      state.current = "2222" ∧
      state.verdicts = [⟨"1111", "2222", true⟩, ⟨"2222", "2222", false⟩] ∧ ¬ state.Kept := by
  constructor
  · have hany : (runInputs (step true)
        (State.opened (customerWith (.bcrypt "1111")) (.bcrypt "1111"))
        (verifies "1111" none (.bcrypt "1111") ++ List.replicate 4 (.start "9999" none) ++
          [.start "1111" none] ++
          (List.replicate 4 (advances "9999" none none [.comparing (.bcrypt "1111")])).flatten ++
          advances "1111" none none [.comparing (.bcrypt "1111")])).any (fun state =>
            decide (state.comparisons = [true, false, false, false, false, true])) := by
      decide
    obtain ⟨state, hrun, hfacts⟩ := (Option.any_eq_true _ _).mp hany
    have hcomparisons := of_decide_eq_true hfacts
    refine ⟨state, .of_runInputs hrun, hcomparisons, ?_⟩
    intro hkept
    have hfour := hkept.bounded [false, false, false, false, true] (by rw [hcomparisons]; decide)
    exact absurd hfour (by decide)
  · have hany : (runInputs (step true) (State.opened (customerWith (.hmac "1111")) (.hmac "1111"))
        (.start "1111" none :: advances "1111" none none [.comparing (.hmac "1111")] ++
          .start "1111" (some "2222") :: advances "1111" (some "2222") none
            [.comparing (.hmac "1111"), .rehashing, .recording true, .changing] ++
          advances "1111" none none [.rehashing, .recording true] ++
          verifies "2222" (some "2222") (.bcrypt "1111") ++
          verifies "1111" (some "2222") (.bcrypt "1111"))).any (fun state =>
            decide (state.current = "2222" ∧
              state.verdicts = [⟨"1111", "2222", true⟩, ⟨"2222", "2222", false⟩])) := by
      decide
    obtain ⟨state, hrun, hfacts⟩ := (Option.any_eq_true _ _).mp hany
    obtain ⟨hcurrent, hverdicts⟩ := of_decide_eq_true hfacts
    refine ⟨state, .of_runInputs hrun, hcurrent, hverdicts, ?_⟩
    intro hkept
    have htold := hkept.told ⟨"2222", "2222", false⟩ (by simp [hverdicts])
    exact absurd htold (by decide)

end Finify.Wallets.Pins
