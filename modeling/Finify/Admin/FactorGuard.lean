/-
# The second factor is not bypassed

An enrollment that is confirmed writes the profile whatever stands there, and a
recovery PIN is compared whether or not the profile is locked.  In runs in which
no confirmed enrollment meets an enabled profile whose recovery PIN is unused, and
nothing is accepted from a locked profile, the second factor holds.
-/

import Finify.Admin.SecondFactor

namespace Finify.Admin.SecondFactor

open Foundations

section

variable {Secret : Type} [DecidableEq Secret] (setting : Setting Secret)

/-- A code that confirms an enrollment meets a profile that is not locked, and one that is not
enabled or has had its recovery PIN used; a recovery PIN that is right meets a profile that is not
locked. -/
def Orderly (state : State Secret) : Event Secret → Prop
  | .confirmEnrollment id code ipAddress _ clock =>
    ∀ challenge ∈ (assertChallenge setting (state.live? id clock) ipAddress
        [.enrollment, .recoveryEnrollment]).toOption,
      ∀ secret ∈ challenge.pendingSecret,
        (matchingCounter setting secret code clock.now).isSome = true →
          ∀ profile ∈ state.profile,
            (profile.enabled = true → profile.recoveryPinUsedAt.isSome = true) ∧
              profile.isLocked clock.now = false
  | .recover id recoveryPin ipAddress clock =>
    ∀ _challenge ∈ (assertChallenge setting (state.live? id clock) ipAddress [.login]).toOption,
      ∀ profile ∈ state.profile, profile.opensWith recoveryPin = true →
        profile.isLocked clock.now = false
  | _ => True

/-! ## The invariant -/

/-- Accepted codes belong to consumed challenges and to secrets that were drawn; secrets that are
pending differ and have accepted nothing while their challenge is open; and an enabled profile
remembers the last counter of its secret. -/
structure State.Sound (state : State Secret) : Prop where
  answered : ∀ acceptance ∈ state.accepted, ∃ challenge ∈ state.challenges.rows,
    challenge.id = acceptance.challenge ∧ challenge.consumedAt.isSome = true
  reopened : ∀ recovery ∈ state.recoveries, ∃ challenge ∈ state.challenges.rows,
    challenge.id = recovery.challenge ∧ challenge.purpose = .recoveryEnrollment
  pending : ∀ challenge ∈ state.challenges.rows, ∀ secret ∈ challenge.pendingSecret,
    secret ∈ state.drawn
  known : ∀ acceptance ∈ state.accepted, acceptance.secret ∈ state.drawn
  apart : ∀ first ∈ state.challenges.rows, ∀ second ∈ state.challenges.rows,
    ∀ secret ∈ first.pendingSecret, secret ∈ second.pendingSecret → first.id = second.id
  unused : ∀ challenge ∈ state.challenges.rows, challenge.consumedAt = none →
    ∀ secret ∈ challenge.pendingSecret, ∀ acceptance ∈ state.accepted, acceptance.secret ≠ secret
  enrolled : ∀ profile ∈ state.profile, profile.enabled = true →
    ∃ secret counter, profile.secret = some secret ∧ profile.lastUsedCounter = some counter ∧
      (∃ acceptance ∈ state.accepted, acceptance.secret = secret) ∧
      ∀ acceptance ∈ state.accepted, acceptance.secret = secret → acceptance.counter ≤ counter
  proved : ∀ profile ∈ state.profile, profile.enabled = true →
    profile.recoveryPinUsedAt.isSome = true → state.proved = true

variable {setting} {state : State Secret} {challenge : Challenge Secret}

/-- A challenge that passes the checks is an open one of the table. -/
theorem assertChallenge_eq_ok {id : ℕ} {clock : Clock} {ipAddress : String}
    {purposes : List Purpose}
    (hassert : assertChallenge setting (state.live? id clock) ipAddress purposes = .ok challenge) :
    challenge ∈ state.challenges.rows ∧ challenge.id = id ∧ challenge.consumedAt = none ∧
      challenge.purpose ∈ purposes := by
  cases hlive : state.live? id clock with
  | none => simp [assertChallenge, hlive] at hassert
  | some found =>
    simp only [assertChallenge, hlive] at hassert
    split at hassert
    next => exact nomatch hassert
    next hchecks =>
      cases hassert
      simp only [not_or, Bool.not_eq_true, Option.isSome_eq_false_iff, Option.isNone_iff_eq_none,
        not_not] at hchecks
      simp only [State.live?, Option.filter_eq_some_iff] at hlive
      obtain ⟨hmem, hid⟩ := Log.find?_eq_some.mp hlive.1
      exact ⟨hmem, hid, hchecks.1, hchecks.2.2.1⟩

/-! ### Challenges are rewritten -/

theorem mem_update {id : ℕ} {change : Challenge Secret → Challenge Secret}
    {hid : ∀ challenge, (change challenge).id = challenge.id} {row : Challenge Secret} :
    row ∈ (state.update id change hid).challenges.rows ↔
      ∃ old ∈ state.challenges.rows, row = if old.id = id then change old else old := by
  rw [State.update, Log.mem_modify]

theorem State.Sound.update (hsound : state.Sound) (id : ℕ)
    {change : Challenge Secret → Challenge Secret}
    {hid : ∀ challenge, (change challenge).id = challenge.id}
    (hconsumed : ∀ challenge : Challenge Secret, challenge.consumedAt.isSome = true →
      (change challenge).consumedAt.isSome = true)
    (hpurpose : ∀ challenge : Challenge Secret, challenge.purpose = .recoveryEnrollment →
      (change challenge).purpose = .recoveryEnrollment)
    (hpending : ∀ challenge : Challenge Secret,
      (change challenge).pendingSecret = challenge.pendingSecret) :
    (state.update id change hid).Sound := by
  have hrow : ∀ row ∈ (state.update id change hid).challenges.rows,
      ∃ old ∈ state.challenges.rows, row.id = old.id ∧ row.pendingSecret = old.pendingSecret ∧
        (row.consumedAt = none → old.consumedAt = none) := by
    intro row hrow
    obtain ⟨old, hold, hequal⟩ := mem_update.mp hrow
    refine ⟨old, hold, ?_⟩
    subst hequal
    split
    next =>
      refine ⟨hid old, hpending old, ?_⟩
      intro hnone
      by_contra hsome
      have hafter := hconsumed old (Option.isSome_iff_ne_none.mpr hsome)
      simp [hnone] at hafter
    next => exact ⟨rfl, rfl, fun hnone => hnone⟩
  have himage : ∀ old ∈ state.challenges.rows,
      ∃ row ∈ (state.update id change hid).challenges.rows, row.id = old.id ∧
        (old.consumedAt.isSome = true → row.consumedAt.isSome = true) ∧
        (old.purpose = .recoveryEnrollment → row.purpose = .recoveryEnrollment) := by
    intro old hold
    have hmem : (if old.id = id then change old else old) ∈
        (state.update id change hid).challenges.rows := mem_update.mpr ⟨old, hold, rfl⟩
    refine ⟨_, hmem, ?_⟩
    split
    next => exact ⟨hid old, hconsumed old, hpurpose old⟩
    next => exact ⟨rfl, fun hsome => hsome, fun hreopened => hreopened⟩
  constructor
  case answered =>
    intro acceptance hmem
    obtain ⟨old, hold, hchallenge, hsome⟩ := hsound.answered acceptance hmem
    obtain ⟨row, hrow, hsame, hkept, _⟩ := himage old hold
    exact ⟨row, hrow, hsame.trans hchallenge, hkept hsome⟩
  case reopened =>
    intro recovery hmem
    obtain ⟨old, hold, hchallenge, hreopened⟩ := hsound.reopened recovery hmem
    obtain ⟨row, hrow, hsame, _, hkept⟩ := himage old hold
    exact ⟨row, hrow, hsame.trans hchallenge, hkept hreopened⟩
  case pending =>
    intro row hmem secret hsecret
    obtain ⟨old, hold, _, hsame, _⟩ := hrow row hmem
    exact hsound.pending old hold secret (hsame ▸ hsecret)
  case known => exact hsound.known
  case apart =>
    intro first hfirst second hsecond secret hpends hother
    obtain ⟨old, hold, hid, hsame, _⟩ := hrow first hfirst
    obtain ⟨old', hold', hid', hsame', _⟩ := hrow second hsecond
    rw [hid, hid']
    exact hsound.apart old hold old' hold' secret (hsame ▸ hpends) (hsame' ▸ hother)
  case unused =>
    intro row hmem hnone secret hsecret
    obtain ⟨old, hold, _, hsame, hopen⟩ := hrow row hmem
    exact hsound.unused old hold (hopen hnone) secret (hsame ▸ hsecret)
  case enrolled => exact hsound.enrolled
  case proved => exact hsound.proved

theorem State.Sound.failed (hsound : state.Sound) (id : ℕ) :
    (state.update id Challenge.failed fun _ => rfl).Sound :=
  hsound.update id (fun _ hsome => hsome) (fun _ hpurpose => hpurpose) fun _ => rfl

omit [DecidableEq Secret] in
/-- A new login opens a challenge with nothing pending. -/
theorem State.Sound.beginLogin (hsound : state.Sound) (ipAddress : String) (clock : Clock) :
    (state.beginLogin setting ipAddress clock).Sound := by
  have hrow : ∀ row ∈ (state.beginLogin setting ipAddress clock).challenges.rows,
      row ∈ state.challenges.rows ∨ row.pendingSecret = none := by
    intro row hrow
    exact (List.mem_append.mp hrow).imp_right fun hnew => by simp [List.mem_singleton.mp hnew]
  have hold : ∀ row ∈ state.challenges.rows,
      row ∈ (state.beginLogin setting ipAddress clock).challenges.rows :=
    fun _ hrow => List.mem_append_left _ hrow
  constructor
  case answered =>
    intro acceptance hmem
    obtain ⟨challenge, hchallenge, hfacts⟩ := hsound.answered acceptance hmem
    exact ⟨challenge, hold challenge hchallenge, hfacts⟩
  case reopened =>
    intro recovery hmem
    obtain ⟨challenge, hchallenge, hfacts⟩ := hsound.reopened recovery hmem
    exact ⟨challenge, hold challenge hchallenge, hfacts⟩
  case pending =>
    intro row hmem secret hsecret
    cases hrow row hmem with
    | inl hbefore => exact hsound.pending row hbefore secret hsecret
    | inr hnone => simp [hnone] at hsecret
  case known => exact hsound.known
  case apart =>
    intro first hfirst second hsecond secret hpends hother
    cases hrow first hfirst with
    | inr hnone => simp [hnone] at hpends
    | inl hbefore =>
      cases hrow second hsecond with
      | inr hnone => simp [hnone] at hother
      | inl hbefore' => exact hsound.apart first hbefore second hbefore' secret hpends hother
  case unused =>
    intro row hmem hopen secret hsecret
    cases hrow row hmem with
    | inl hbefore => exact hsound.unused row hbefore hopen secret hsecret
    | inr hnone => simp [hnone] at hsecret
  case enrolled => exact hsound.enrolled
  case proved => exact hsound.proved

theorem State.Sound.startEnrollment (hsound : state.Sound) (id : ℕ) {secret : Secret}
    (hfresh : secret ∉ state.drawn) :
    State.Sound { state.update id (·.enrolling secret) (fun _ => rfl) with
      drawn := secret :: state.drawn } := by
  have hrow : ∀ row ∈ (state.update id (·.enrolling secret) fun _ => rfl).challenges.rows,
      ∃ old ∈ state.challenges.rows, row.id = old.id ∧ row.consumedAt = old.consumedAt ∧
        (row.pendingSecret = old.pendingSecret ∨
          row.id = id ∧ row.pendingSecret = some secret) := by
    intro row hrow
    obtain ⟨old, hold, hequal⟩ := mem_update.mp hrow
    refine ⟨old, hold, ?_⟩
    subst hequal
    split
    next hid => exact ⟨rfl, rfl, .inr ⟨hid, rfl⟩⟩
    next => exact ⟨rfl, rfl, .inl rfl⟩
  have himage : ∀ old ∈ state.challenges.rows,
      ∃ row ∈ (state.update id (·.enrolling secret) fun _ => rfl).challenges.rows,
        row.id = old.id ∧ row.consumedAt = old.consumedAt ∧
        (old.purpose = .recoveryEnrollment → row.purpose = .recoveryEnrollment) := by
    intro old hold
    have hmem : (if old.id = id then old.enrolling secret else old) ∈
        (state.update id (·.enrolling secret) fun _ => rfl).challenges.rows :=
      mem_update.mpr ⟨old, hold, rfl⟩
    refine ⟨_, hmem, ?_⟩
    split
    next => exact ⟨rfl, rfl, fun hpurpose => if_pos hpurpose⟩
    next => exact ⟨rfl, rfl, fun hpurpose => hpurpose⟩
  constructor
  case answered =>
    intro acceptance hmem
    obtain ⟨old, hold, hchallenge, hsome⟩ := hsound.answered acceptance hmem
    obtain ⟨row, hrow, hsame, hconsumed, _⟩ := himage old hold
    exact ⟨row, hrow, hsame.trans hchallenge, hconsumed ▸ hsome⟩
  case reopened =>
    intro recovery hmem
    obtain ⟨old, hold, hchallenge, hreopened⟩ := hsound.reopened recovery hmem
    obtain ⟨row, hrow, hsame, _, hkept⟩ := himage old hold
    exact ⟨row, hrow, hsame.trans hchallenge, hkept hreopened⟩
  case pending =>
    intro row hmem other hother
    obtain ⟨old, hold, _, _, hpending⟩ := hrow row hmem
    cases hpending with
    | inl hsame => exact List.mem_cons_of_mem _ (hsound.pending old hold other (hsame ▸ hother))
    | inr hnew =>
      rw [hnew.2] at hother
      cases hother
      exact List.mem_cons_self
  case known => exact fun acceptance hmem => List.mem_cons_of_mem _ (hsound.known acceptance hmem)
  case apart =>
    intro first hfirst second hsecond other hpends hother
    obtain ⟨old, hold, hid, _, hpending⟩ := hrow first hfirst
    obtain ⟨old', hold', hid', _, hpending'⟩ := hrow second hsecond
    cases hpending with
    | inl hsame =>
      cases hpending' with
      | inl hsame' =>
        rw [hid, hid']
        exact hsound.apart old hold old' hold' other (hsame ▸ hpends) (hsame' ▸ hother)
      | inr hnew =>
        rw [hnew.2] at hother
        cases hother
        exact absurd (hsound.pending old hold secret (hsame ▸ hpends)) hfresh
    | inr hnew =>
      cases hpending' with
      | inl hsame' =>
        rw [hnew.2] at hpends
        cases hpends
        exact absurd (hsound.pending old' hold' secret (hsame' ▸ hother)) hfresh
      | inr hnew' => exact hnew.1.trans hnew'.1.symm
  case unused =>
    intro row hmem hopen other hother acceptance haccepted
    obtain ⟨old, hold, _, hconsumed, hpending⟩ := hrow row hmem
    cases hpending with
    | inl hsame =>
      exact hsound.unused old hold (hconsumed ▸ hopen) other (hsame ▸ hother) acceptance haccepted
    | inr hnew =>
      rw [hnew.2] at hother
      cases hother
      intro hequal
      exact hfresh (hequal ▸ hsound.known acceptance haccepted)
  case enrolled => exact hsound.enrolled
  case proved => exact hsound.proved

/-! ### Codes and recovery PINs are accepted -/

/-- A challenge is consumed and its code accepted: the profile that is written has to fit the
secret and the counter, and no other open challenge may have the secret pending. -/
theorem State.Sound.accept (hsound : state.Sound) (hmem : challenge ∈ state.challenges.rows)
    {acceptance : Acceptance Secret} (hchallenge : acceptance.challenge = challenge.id)
    (hknown : acceptance.secret ∈ state.drawn)
    (hunused : ∀ other ∈ state.challenges.rows, other.id ≠ challenge.id →
      other.consumedAt = none → acceptance.secret ∉ other.pendingSecret)
    {profile : Profile Secret} (hsecret : profile.secret = some acceptance.secret)
    (hcounter : profile.lastUsedCounter = some acceptance.counter)
    (hrising : ∀ earlier ∈ state.accepted, earlier.secret = acceptance.secret →
      earlier.counter ≤ acceptance.counter)
    {proved : Bool} (hproved : profile.recoveryPinUsedAt.isSome = true → proved = true)
    {at_ : ℤ} (replaced : List Bool) :
    State.Sound { state.update challenge.id (·.consumed at_) (fun _ => rfl) with
      profile := some profile
      proved := proved
      accepted := acceptance :: state.accepted
      replaced := replaced } := by
  have hupdated : (state.update challenge.id (·.consumed at_) fun _ => rfl).Sound :=
    hsound.update challenge.id (fun _ _ => rfl) (fun _ hpurpose => hpurpose) fun _ => rfl
  have hconsumed : challenge.consumed at_ ∈
      (state.update challenge.id (·.consumed at_) fun _ => rfl).challenges.rows :=
    mem_update.mpr ⟨challenge, hmem, (if_pos rfl).symm⟩
  constructor
  case answered =>
    intro other hother
    cases List.mem_cons.mp hother with
    | inl hnew => exact ⟨_, hconsumed, hnew ▸ hchallenge.symm, rfl⟩
    | inr hold => exact hupdated.answered other hold
  case reopened => exact hupdated.reopened
  case pending => exact hupdated.pending
  case known =>
    intro other hother
    cases List.mem_cons.mp hother with
    | inl hnew => exact hnew ▸ hknown
    | inr hold => exact hsound.known other hold
  case apart => exact hupdated.apart
  case unused =>
    intro row hrow hopen secret hpends other hother
    cases List.mem_cons.mp hother with
    | inr hold => exact hupdated.unused row hrow hopen secret hpends other hold
    | inl hnew =>
      intro hequal
      have hupdate : row ∈ (state.update challenge.id (·.consumed at_)
          fun _ => rfl).challenges.rows := hrow
      obtain ⟨old, hold, hrowOld⟩ := mem_update.mp hupdate
      subst hrowOld
      split at hopen
      next => exact nomatch hopen
      next hne =>
        rw [if_neg hne] at hpends
        refine hunused old hold hne hopen ?_
        rw [← hnew, hequal]
        exact hpends
  case enrolled =>
    intro written hwritten _
    cases hwritten
    refine ⟨acceptance.secret, acceptance.counter, hsecret, hcounter,
      ⟨acceptance, List.mem_cons_self, rfl⟩, ?_⟩
    intro other hother hsame
    cases List.mem_cons.mp hother with
    | inl hnew => exact hnew ▸ le_rfl
    | inr hold => exact hrising other hold hsame
  case proved =>
    intro written hwritten _ hused
    cases hwritten
    exact hproved hused

/-- What a newly accepted code has to meet for the second factor to hold. -/
theorem State.Kept.accept (hkept : state.Kept) (hsound : state.Sound)
    (hmem : challenge ∈ state.challenges.rows) (hopen : challenge.consumedAt = none)
    {acceptance : Acceptance Secret} (hchallenge : acceptance.challenge = challenge.id)
    (hrising : ∀ earlier ∈ state.accepted, earlier.secret = acceptance.secret →
      earlier.counter < acceptance.counter)
    (hunlocked : acceptance.locked = false) {after : State Secret}
    (haccepted : after.accepted = acceptance :: state.accepted)
    (hrecoveries : after.recoveries = state.recoveries)
    (hguarded : ∀ proved ∈ after.replaced, proved = true) : after.Kept := by
  constructor
  case guarded => exact hguarded
  case answeredOnce =>
    rw [haccepted, List.map_cons, List.nodup_cons]
    refine ⟨?_, hkept.answeredOnce⟩
    intro hbefore
    obtain ⟨earlier, hearlier, hsame⟩ := List.mem_map.mp hbefore
    obtain ⟨row, hrow, hid, hconsumed⟩ := hsound.answered earlier hearlier
    have hequal : row = challenge :=
      state.challenges.eq_of_serial_eq hrow hmem (hid.trans (hsame.trans hchallenge))
    rw [hequal, hopen] at hconsumed
    exact nomatch hconsumed
  case recoveredOnce => exact hrecoveries ▸ hkept.recoveredOnce
  case rising =>
    rw [haccepted, List.pairwise_cons]
    exact ⟨fun earlier hearlier hsame => hrising earlier hearlier hsame.symm, hkept.rising⟩
  case unlocked =>
    refine ⟨?_, hrecoveries ▸ hkept.unlocked.2⟩
    intro other hother
    rw [haccepted] at hother
    cases List.mem_cons.mp hother with
    | inl hnew => exact hnew ▸ hunlocked
    | inr hold => exact hkept.unlocked.1 other hold

/-- The recovery PIN is used, and its challenge may enroll. -/
theorem State.Sound.reopen (hsound : state.Sound) (hmem : challenge ∈ state.challenges.rows)
    {profile : Profile Secret} (hprofile : state.profile = some profile) (clock : Clock) :
    (state.reopen challenge profile clock).Sound := by
  have hupdated :
      (state.update challenge.id (·.recovered clock.transaction) fun _ => rfl).Sound :=
    hsound.update challenge.id (fun _ hsome => hsome) (fun _ _ => rfl) fun _ => rfl
  have hrecovered : challenge.recovered clock.transaction ∈
      (state.update challenge.id (·.recovered clock.transaction) fun _ => rfl).challenges.rows :=
    mem_update.mpr ⟨challenge, hmem, (if_pos rfl).symm⟩
  constructor
  case answered => exact hupdated.answered
  case reopened =>
    intro recovery hrecovery
    cases List.mem_cons.mp hrecovery with
    | inl hnew => exact ⟨_, hrecovered, hnew ▸ rfl, rfl⟩
    | inr hold => exact hupdated.reopened recovery hold
  case pending => exact hupdated.pending
  case known => exact hupdated.known
  case apart => exact hupdated.apart
  case unused => exact hupdated.unused
  case enrolled =>
    intro written hwritten henabled
    cases hwritten
    exact hsound.enrolled profile hprofile henabled
  case proved => exact fun _ _ _ _ => rfl

theorem State.Kept.reopen (hkept : state.Kept) (hsound : state.Sound)
    (hmem : challenge ∈ state.challenges.rows) (hlogin : challenge.purpose = .login)
    {profile : Profile Secret} {clock : Clock} (hunlocked : profile.isLocked clock.now = false) :
    (state.reopen challenge profile clock).Kept := by
  constructor
  case guarded => exact hkept.guarded
  case answeredOnce => exact hkept.answeredOnce
  case recoveredOnce =>
    refine List.nodup_cons.mpr ⟨?_, hkept.recoveredOnce⟩
    intro hbefore
    obtain ⟨earlier, hearlier, hsame⟩ := List.mem_map.mp hbefore
    obtain ⟨row, hrow, hid, hpurpose⟩ := hsound.reopened earlier hearlier
    have hequal : row = challenge :=
      state.challenges.eq_of_serial_eq hrow hmem (hid.trans hsame)
    rw [hequal, hlogin] at hpurpose
    exact nomatch hpurpose
  case rising => exact hkept.rising
  case unlocked =>
    refine ⟨hkept.unlocked.1, ?_⟩
    intro recovery hrecovery
    cases List.mem_cons.mp hrecovery with
    | inl hnew => exact hnew ▸ hunlocked
    | inr hold => exact hkept.unlocked.2 recovery hold

/-- A wrong code leaves secret, counter and recovery PIN of the profile. -/
theorem State.Sound.counted (hsound : state.Sound) (id : ℕ) {profile : Profile Secret}
    (hprofile : state.profile = some profile) (clock : Clock) :
    State.Sound { state.update id Challenge.failed (fun _ => rfl) with
      profile := some (profile.failed clock) } := by
  have hfailed := hsound.failed id
  refine ⟨hfailed.answered, hfailed.reopened, hfailed.pending, hfailed.known, hfailed.apart,
    hfailed.unused, ?_, ?_⟩
  · intro written hwritten henabled
    cases hwritten
    exact hsound.enrolled profile hprofile henabled
  · intro written hwritten henabled hused
    cases hwritten
    exact hsound.proved profile hprofile henabled hused

/-! ## The calls -/

theorem step_verify (hsound : state.Sound) (hkept : state.Kept) {id : ℕ}
    {code ipAddress : String} {clock : Clock} {after : State Secret}
    (hverify : state.verify setting id code ipAddress clock = .ok after) :
    after.Sound ∧ after.Kept := by
  simp only [State.verify] at hverify
  split at hverify
  next => exact nomatch hverify
  next profile hprofile =>
    split at hverify
    next => exact nomatch hverify
    next challenge hassert =>
      obtain ⟨hmem, hid, hopen, _⟩ := assertChallenge_eq_ok hassert
      split at hverify
      next => exact nomatch hverify
      next hready =>
        simp only [not_or, Bool.not_eq_false, Bool.not_eq_true] at hready
        obtain ⟨henabled, hunlocked⟩ := hready
        obtain ⟨secret, last, hsecret, hlast, ⟨earlier, hearlier, hearlierSecret⟩, hbelow⟩ :=
          hsound.enrolled profile hprofile henabled
        simp only [hsecret] at hverify
        split at hverify
        next =>
          cases hverify
          exact ⟨hsound.counted id hprofile clock, hkept.guarded, hkept.answeredOnce,
            hkept.recoveredOnce, hkept.rising, hkept.unlocked⟩
        next counter hcounter =>
          cases hverify
          have htakes := (Option.filter_eq_some_iff.mp hcounter).2
          have hlater : last < counter := by
            simpa [Profile.takes, hlast] using htakes
          have hrising : ∀ acceptance ∈ state.accepted, acceptance.secret = secret →
              acceptance.counter < counter := by
            intro acceptance hacceptance hsame
            exact (hbelow acceptance hacceptance hsame).trans_lt hlater
          constructor
          · have hknown : secret ∈ state.drawn := hearlierSecret ▸ hsound.known earlier hearlier
            have hunused : ∀ other ∈ state.challenges.rows, other.id ≠ challenge.id →
                other.consumedAt = none → secret ∉ other.pendingSecret := by
              intro other hother _ hotherOpen hpends
              exact hsound.unused other hother hotherOpen secret hpends earlier hearlier
                hearlierSecret
            exact hsound.accept hmem rfl hknown hunused hsecret rfl
              (fun acceptance hacceptance hsame => (hrising acceptance hacceptance hsame).le)
              (fun _ => rfl) state.replaced
          · exact hkept.accept hsound hmem hopen rfl hrising hunlocked rfl rfl hkept.guarded

theorem step_confirmEnrollment (hsound : state.Sound) (hkept : state.Kept) {id : ℕ}
    {code ipAddress recoveryPin : String} {clock : Clock} {after : State Secret}
    (horderly : Orderly setting state
      (.confirmEnrollment id code ipAddress recoveryPin clock))
    (hconfirm : state.confirmEnrollment setting id code ipAddress recoveryPin clock = .ok after) :
    after.Sound ∧ after.Kept := by
  simp only [State.confirmEnrollment] at hconfirm
  split at hconfirm
  next => exact nomatch hconfirm
  next challenge hassert =>
    obtain ⟨hmem, hid, hopen, _⟩ := assertChallenge_eq_ok hassert
    split at hconfirm
    next => exact nomatch hconfirm
    next secret hpending =>
      split at hconfirm
      next =>
        cases hconfirm
        exact ⟨hsound.failed id, hkept.guarded, hkept.answeredOnce, hkept.recoveredOnce,
          hkept.rising, hkept.unlocked⟩
      next counter hcounter =>
        cases hconfirm
        have hprofiles := horderly challenge (by rw [hassert]; rfl) secret hpending
          (by rw [hcounter]; rfl)
        -- An open challenge has accepted nothing for its secret.
        have hnone : ∀ acceptance ∈ state.accepted, acceptance.secret ≠ secret :=
          hsound.unused challenge hmem hopen secret hpending
        constructor
        · have hunused : ∀ other ∈ state.challenges.rows, other.id ≠ challenge.id →
              other.consumedAt = none → secret ∉ other.pendingSecret := by
            intro other hother hne _ hpends
            exact hne (hsound.apart other hother challenge hmem secret hpends hpending)
          exact hsound.accept hmem rfl (hsound.pending challenge hmem secret hpending) hunused rfl
            rfl (fun acceptance hacceptance hsame => absurd hsame (hnone acceptance hacceptance))
            (by simp [enrolledProfile]) _
        · refine hkept.accept hsound hmem hopen rfl
            (fun acceptance hacceptance hsame => absurd hsame (hnone acceptance hacceptance))
            ?_ rfl rfl ?_
          · cases hprofile : state.profile with
            | none => simp [State.isLocked, hprofile]
            | some profile =>
              simpa [State.isLocked, hprofile] using (hprofiles profile hprofile).2
          · intro proved hproved
            simp only [State.enroll] at hproved
            split at hproved
            next henabled =>
              cases List.mem_cons.mp hproved with
              | inr hold => exact hkept.guarded proved hold
              | inl hnew =>
                subst hnew
                simp only [State.isEnabled, Option.any_eq_true] at henabled
                obtain ⟨profile, hprofile, henabled⟩ := henabled
                have hused := (hprofiles profile hprofile).1 henabled
                exact hsound.proved profile hprofile henabled hused
            next => exact hkept.guarded proved hproved

theorem step_recover (hsound : state.Sound) (hkept : state.Kept) {id : ℕ}
    {recoveryPin ipAddress : String} {clock : Clock} {after : State Secret}
    (horderly : Orderly setting state (.recover id recoveryPin ipAddress clock))
    (hrecover : state.recover setting id recoveryPin ipAddress clock = .ok after) :
    after.Sound ∧ after.Kept := by
  simp only [State.recover] at hrecover
  split at hrecover
  next => exact nomatch hrecover
  next profile hprofile =>
    split at hrecover
    next => exact nomatch hrecover
    next challenge hassert =>
      obtain ⟨hmem, _, _, hpurpose⟩ := assertChallenge_eq_ok hassert
      split at hrecover
      next hopens =>
        cases hrecover
        have hunlocked := horderly challenge (by rw [hassert]; rfl) profile hprofile hopens
        exact ⟨hsound.reopen hmem hprofile clock,
          hkept.reopen hsound hmem (List.mem_singleton.mp hpurpose) hunlocked⟩
      next =>
        cases hrecover
        exact ⟨hsound.failed id, hkept.guarded, hkept.answeredOnce, hkept.recoveredOnce,
          hkept.rising, hkept.unlocked⟩

omit [DecidableEq Secret] in
theorem reset_kept (hsound : state.Sound) (hkept : state.Kept) :
    state.reset.Sound ∧ state.reset.Kept := by
  constructor
  · refine ⟨hsound.answered, hsound.reopened, hsound.pending, hsound.known, hsound.apart,
      hsound.unused, ?_, ?_⟩
    · intro profile hprofile henabled
      cases hprofile
      exact nomatch henabled
    · intro profile hprofile henabled
      cases hprofile
      exact nomatch henabled
  · exact ⟨hkept.guarded, hkept.answeredOnce, hkept.recoveredOnce, hkept.rising, hkept.unlocked⟩

/-- An orderly call keeps the invariant and what the second factor promises. -/
theorem step_kept (hsound : state.Sound) (hkept : state.Kept) {event : Event Secret}
    {after : State Secret} (horderly : Orderly setting state event)
    (hstep : step setting state event = some after) : after.Sound ∧ after.Kept := by
  cases event with
  | beginLogin ipAddress clock =>
    cases hstep
    exact ⟨hsound.beginLogin ipAddress clock, hkept.guarded, hkept.answeredOnce,
      hkept.recoveredOnce, hkept.rising, hkept.unlocked⟩
  | startEnrollment id ipAddress secret clock =>
    simp only [step, Option.ite_none_left_eq_some] at hstep
    obtain ⟨hfresh, hstart⟩ := hstep
    have hok := ok_of_toOption hstart
    simp only [State.startEnrollment] at hok
    split at hok
    next => exact nomatch hok
    next =>
      split at hok
      next => exact nomatch hok
      next =>
        cases hok
        exact ⟨hsound.startEnrollment id hfresh, hkept.guarded, hkept.answeredOnce,
          hkept.recoveredOnce, hkept.rising, hkept.unlocked⟩
  | confirmEnrollment id code ipAddress recoveryPin clock =>
    exact step_confirmEnrollment hsound hkept horderly (ok_of_toOption hstep)
  | verify id code ipAddress clock =>
    exact step_verify hsound hkept (ok_of_toOption hstep)
  | recover id recoveryPin ipAddress clock =>
    exact step_recover hsound hkept horderly (ok_of_toOption hstep)
  | reset =>
    cases hstep
    exact reset_kept hsound hkept

omit [DecidableEq Secret] in
theorem empty_kept : State.Sound ({} : State Secret) ∧ State.Kept ({} : State Secret) := by
  constructor
  · exact ⟨by simp, by simp, by simp, by simp, by simp, by simp, by simp, by simp⟩
  · exact ⟨by simp, by simp, by simp, by simp, by simp⟩

/-- In orderly runs the second factor is not bypassed. -/
theorem second_factor_holds (hrun : ReachesUnder (step setting) (Orderly setting) {} state) :
    state.Kept := by
  have hboth : state.Sound ∧ state.Kept := by
    apply hrun.preserves (fun state => state.Sound ∧ state.Kept)
    · rintro before event after ⟨hsound, hkept⟩ horderly hstep
      exact step_kept hsound hkept horderly hstep
    · exact empty_kept
  exact hboth.2

instance (state : State Secret) (event : Event Secret) : Decidable (Orderly setting state event) :=
  match event with
  | .confirmEnrollment id code ipAddress _ clock =>
    inferInstanceAs (Decidable
      (∀ challenge ∈ (assertChallenge setting (state.live? id clock) ipAddress
          [.enrollment, .recoveryEnrollment]).toOption,
        ∀ secret ∈ challenge.pendingSecret,
          (matchingCounter setting secret code clock.now).isSome = true →
            ∀ profile ∈ state.profile,
              (profile.enabled = true → profile.recoveryPinUsedAt.isSome = true) ∧
                profile.isLocked clock.now = false))
  | .recover id recoveryPin ipAddress clock =>
    inferInstanceAs (Decidable
      (∀ _challenge ∈ (assertChallenge setting (state.live? id clock) ipAddress
          [.login]).toOption,
        ∀ profile ∈ state.profile, profile.opensWith recoveryPin = true →
          profile.isLocked clock.now = false))
  | .beginLogin _ _ | .startEnrollment _ _ _ _ | .verify _ _ _ _ | .reset => isTrue trivial

end

/-! ## Two challenges, one profile -/

/-- Secrets are numbers, and a code spells the secret and its counter. -/
def plainSetting : Setting ℕ where
  totp secret counter := toString (1000 * (secret : ℤ) + counter)
  sha256 text := text

/-- A moment, in steps of thirty seconds. -/
def moment (steps : ℤ) : Clock where
  transaction := steps * totpStep
  now := steps * totpStep

def enrolls (id secret : ℕ) (steps : ℤ) : List (Event ℕ) :=
  [.startEnrollment id "" secret (moment steps),
    .confirmEnrollment id (plainSetting.totp secret steps) "" "1111-2222-3333" (moment steps)]

/-- A user enrolls, logs in with a code, recovers and enrolls anew. -/
theorem second_factor_holds_recovered :
    ∃ state, ReachesUnder (step plainSetting) (Orderly plainSetting) {} state ∧
      state.accepted.map Acceptance.secret = [8, 7, 7] ∧ state.recoveries.length = 1 ∧
      state.replaced = [true] ∧ state.Kept := by
  have hany : (runInputs (guardedStep (step plainSetting) (Orderly plainSetting)) {}
      ([.beginLogin "" (moment 100)] ++ enrolls 1 7 101 ++ [.beginLogin "" (moment 102),
        .verify 2 (plainSetting.totp 7 102) "" (moment 102), .beginLogin "" (moment 103),
        .recover 3 "111122223333" "" (moment 103)] ++ enrolls 3 8 104)).any (fun state =>
          decide (state.accepted.map Acceptance.secret = [8, 7, 7] ∧
            state.recoveries.length = 1 ∧ state.replaced = [true])) := by
    decide
  obtain ⟨state, hrun, hfacts⟩ := (Option.any_eq_true _ _).mp hany
  obtain ⟨haccepted, hrecoveries, hreplaced⟩ := of_decide_eq_true hfacts
  have hreaches := (Reaches.of_runInputs hrun).under
  exact ⟨state, hreaches, haccepted, hrecoveries, hreplaced, second_factor_holds hreaches⟩

def wrongCodes (id : ℕ) (steps : ℤ) : List (Event ℕ) :=
  List.replicate 5 (.verify id "wrong" "" (moment steps))

/-- A challenge that was opened before the profile was enabled replaces its secret, with nothing
given but the password and a code of the new secret; and a locked profile accepts its recovery
PIN. -/
theorem second_factor_bypassed :
    (∃ state, Reaches (step plainSetting) {} state ∧
      state.accepted.map Acceptance.secret = [8, 7] ∧ state.recoveries = [] ∧
      state.replaced = [false] ∧ ¬ state.Kept) ∧
    ∃ state, Reaches (step plainSetting) {} state ∧
      state.recoveries = [{ challenge := 3, locked := true }] ∧ ¬ state.Kept := by
  constructor
  · have hany : (runInputs (step plainSetting) {}
        ([.beginLogin "" (moment 100), .beginLogin "" (moment 100),
          .startEnrollment 2 "" 8 (moment 101)] ++ enrolls 1 7 101 ++
          [.confirmEnrollment 2 (plainSetting.totp 8 102) "" "4444-5555-6666"
            (moment 102)])).any (fun state =>
              decide (state.accepted.map Acceptance.secret = [8, 7] ∧ state.recoveries = [] ∧
                state.replaced = [false])) := by
      decide
    obtain ⟨state, hrun, hfacts⟩ := (Option.any_eq_true _ _).mp hany
    obtain ⟨haccepted, hrecoveries, hreplaced⟩ := of_decide_eq_true hfacts
    refine ⟨state, .of_runInputs hrun, haccepted, hrecoveries, hreplaced, ?_⟩
    intro hkept
    exact nomatch hkept.guarded false (by simp [hreplaced])
  · have hany : (runInputs (step plainSetting) {}
        ([.beginLogin "" (moment 100)] ++ enrolls 1 7 101 ++ [.beginLogin "" (moment 102),
          .beginLogin "" (moment 102)] ++ wrongCodes 2 103 ++
          [.recover 3 "111122223333" "" (moment 104)])).any (fun state =>
            decide (state.recoveries = [{ challenge := 3, locked := true }])) := by
      decide
    obtain ⟨state, hrun, hfacts⟩ := (Option.any_eq_true _ _).mp hany
    have hrecoveries := of_decide_eq_true hfacts
    refine ⟨state, .of_runInputs hrun, hrecoveries, ?_⟩
    intro hkept
    have hlocked : true = false :=
      hkept.unlocked.2 { challenge := 3, locked := true } (by simp [hrecoveries])
    exact nomatch hlocked

end Finify.Admin.SecondFactor
