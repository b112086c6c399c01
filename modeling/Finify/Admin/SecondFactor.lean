/-
# The second factor of an administrator

A login opens a challenge.  A challenge is answered by a TOTP code of the enrolled
secret, by a recovery PIN, which turns it into an enrollment, or by enrolling a
secret of its own.  Every call is one transaction that locks the challenge, and
the profile where it reads it, so calls are steps; several challenges of one user
are open at once.
-/

import Finify.Foundations.Table
import Finify.Foundations.Transition
import Mathlib.Algebra.Order.Ring.Int

namespace Finify.Admin.SecondFactor

open Foundations

inductive Purpose | login | enrollment | recoveryEnrollment
  deriving DecidableEq

/-- The row of `admin_mfa_profiles` of the user.  Encryption gives back what was encrypted and a
hash matches what was hashed, so secret and recovery PIN stand for their stored forms. -/
structure Profile (Secret : Type) where
  secret : Option Secret
  enabled : Bool
  enrolledAt : Option ℤ
  lastUsedCounter : Option ℤ
  recoveryPin : Option String
  recoveryPinUsedAt : Option ℤ
  failedAttempts : ℕ
  lockedUntil : Option ℤ
  deriving DecidableEq

/-- A row of `admin_mfa_challenges`. -/
structure Challenge (Secret : Type) where
  id : ℕ
  purpose : Purpose
  pendingSecret : Option Secret
  ipHash : String
  attemptCount : ℕ
  expiresAt : ℤ
  consumedAt : Option ℤ
  deriving DecidableEq

/-- `CURRENT_TIMESTAMP` of the transaction and the clock of the service, in milliseconds. -/
structure Clock where
  transaction : ℤ
  now : ℤ
  deriving DecidableEq

def challengeLife : ℤ := 5 * 60000

def lockLife : ℤ := 15 * 60000

def maxAttempts : ℕ := 5

def totpStep : ℤ := 30000

/-- The functions of `crypto` that the service rests on. -/
structure Setting (Secret : Type) where
  totp : Secret → ℤ → String
  sha256 : String → String

/-- A TOTP code that was accepted: by which challenge, for which secret and counter, and whether
the profile was locked. -/
structure Acceptance (Secret : Type) where
  challenge : ℕ
  secret : Secret
  counter : ℤ
  locked : Bool
  deriving DecidableEq

/-- A recovery PIN that was accepted. -/
structure Recovery where
  challenge : ℕ
  locked : Bool
  deriving DecidableEq

/-- The profile and the challenges of one user, the secrets drawn so far, and what has been
observed: whether a code or a recovery PIN was accepted since the profile was enabled, the codes
and recovery PINs accepted, and for each enabled secret that was replaced whether one had been. -/
structure State (Secret : Type) where
  profile : Option (Profile Secret) := none
  challenges : Log (fun challenge : Challenge Secret => challenge.id) := Log.empty
  drawn : List Secret := []
  proved : Bool := false
  accepted : List (Acceptance Secret) := []
  recoveries : List Recovery := []
  replaced : List Bool := []

section

variable {Secret : Type} [DecidableEq Secret] (setting : Setting Secret)

def Challenge.failed (challenge : Challenge Secret) : Challenge Secret :=
  { challenge with attemptCount := challenge.attemptCount + 1 }

def Challenge.consumed (challenge : Challenge Secret) (at_ : ℤ) : Challenge Secret :=
  { challenge with consumedAt := some at_ }

def Challenge.enrolling (challenge : Challenge Secret) (secret : Secret) : Challenge Secret :=
  { challenge with
    purpose :=
      if challenge.purpose = .recoveryEnrollment then .recoveryEnrollment else .enrollment
    pendingSecret := some secret }

def Challenge.recovered (challenge : Challenge Secret) (at_ : ℤ) : Challenge Secret :=
  { challenge with
    purpose := .recoveryEnrollment
    attemptCount := 0
    expiresAt := at_ + challengeLife }

/-- Rewrite a challenge by its identifier. -/
def State.update (state : State Secret) (id : ℕ) (change : Challenge Secret → Challenge Secret)
    (hid : ∀ challenge, (change challenge).id = challenge.id) : State Secret :=
  { state with challenges := state.challenges.modify id change hid }

/-- `locked_until` lies in the future. -/
def Profile.isLocked (profile : Profile Secret) (now : ℤ) : Bool :=
  profile.lockedUntil.any fun lockedUntil => decide (now < lockedUntil)

def State.isLocked (state : State Secret) (now : ℤ) : Bool :=
  state.profile.any (·.isLocked now)

def State.isEnabled (state : State Secret) : Bool := state.profile.any (·.enabled)

def ipHash (ipAddress : String) : String :=
  setting.sha256 (if ipAddress = "" then "unknown" else ipAddress)

def normalizePin (pin : String) : String := String.ofList (pin.toList.filter Char.isDigit)

/-- The first of three counters around the clock whose code was given. -/
def matchingCounter (secret : Secret) (code : String) (now : ℤ) : Option ℤ :=
  [-1, 0, 1].map (now / totpStep + ·) |>.find? fun counter =>
    decide (setting.totp secret counter = code)

/-- The challenge that the transaction reads, if it has not expired. -/
def State.live? (state : State Secret) (id : ℕ) (clock : Clock) : Option (Challenge Secret) :=
  (state.challenges.find? id).filter fun challenge =>
    decide (clock.transaction < challenge.expiresAt)

def assertChallenge (challenge : Option (Challenge Secret)) (ipAddress : String)
    (purposes : List Purpose) : Except String (Challenge Secret) :=
  match challenge with
  | none => .error "MFA challenge is invalid or expired"
  | some challenge =>
    if challenge.consumedAt.isSome ∨ maxAttempts ≤ challenge.attemptCount ∨
        challenge.purpose ∉ purposes ∨ challenge.ipHash ≠ ipHash setting ipAddress then
      .error "MFA challenge is invalid or expired"
    else .ok challenge

/-! ## The calls -/

/-- `beginLogin`, once the password has matched. -/
def State.beginLogin (state : State Secret) (ipAddress : String) (clock : Clock) : State Secret :=
  { state with
    challenges := state.challenges.append
      (fun id =>
        { id := id, purpose := .login, pendingSecret := none, ipHash := ipHash setting ipAddress
          attemptCount := 0, expiresAt := clock.transaction + challengeLife, consumedAt := none })
      fun _ => rfl }

/-- `startEnrollment` with the secret that is drawn. -/
def State.startEnrollment (state : State Secret) (id : ℕ) (ipAddress : String) (secret : Secret)
    (clock : Clock) : Except String (State Secret) :=
  match assertChallenge setting (state.live? id clock) ipAddress [.login, .recoveryEnrollment] with
  | .error message => .error message
  | .ok challenge =>
    if challenge.purpose = .login ∧ state.isEnabled = true then
      .error "Authenticator is already active"
    else
      .ok { state.update id (·.enrolling secret) (fun _ => rfl) with
        drawn := secret :: state.drawn }

/-- The profile after an enrollment. -/
def enrolledProfile (secret : Secret) (counter : ℤ) (recoveryPin : String) (clock : Clock) :
    Profile Secret where
  secret := some secret
  enabled := true
  enrolledAt := some clock.transaction
  lastUsedCounter := some counter
  recoveryPin := some (normalizePin recoveryPin)
  recoveryPinUsedAt := none
  failedAttempts := 0
  lockedUntil := none

def State.enroll (state : State Secret) (challenge : Challenge Secret) (secret : Secret)
    (counter : ℤ) (recoveryPin : String) (clock : Clock) : State Secret :=
  { state.update challenge.id (·.consumed clock.transaction) (fun _ => rfl) with
    profile := some (enrolledProfile secret counter recoveryPin clock)
    proved := false
    accepted :=
      { challenge := challenge.id, secret, counter, locked := state.isLocked clock.now } ::
        state.accepted
    replaced := if state.isEnabled then state.proved :: state.replaced else state.replaced }

/-- `confirmEnrollment` with the recovery PIN that is drawn. -/
def State.confirmEnrollment (state : State Secret) (id : ℕ) (code ipAddress recoveryPin : String)
    (clock : Clock) : Except String (State Secret) :=
  match assertChallenge setting (state.live? id clock) ipAddress
      [.enrollment, .recoveryEnrollment] with
  | .error message => .error message
  | .ok challenge =>
    match challenge.pendingSecret with
    | none => .error "Authenticator setup has not started"
    | some secret =>
      match matchingCounter setting secret code clock.now with
      | none => .ok (state.update id Challenge.failed fun _ => rfl)
      | some counter => .ok (state.enroll challenge secret counter recoveryPin clock)

/-- A wrong code is counted on the profile. -/
def Profile.failed (profile : Profile Secret) (clock : Clock) : Profile Secret :=
  { profile with
    failedAttempts := profile.failedAttempts + 1
    lockedUntil :=
      if maxAttempts ≤ profile.failedAttempts + 1 then some (clock.transaction + lockLife)
      else profile.lockedUntil }

/-- A counter that the profile has not accepted yet, nor a later one. -/
def Profile.takes (profile : Profile Secret) (counter : ℤ) : Bool :=
  profile.lastUsedCounter.all fun lastUsedCounter => decide (lastUsedCounter < counter)

/-- A challenge is answered by a code of the enrolled secret. -/
def State.pass (state : State Secret) (challenge : Challenge Secret) (profile : Profile Secret)
    (secret : Secret) (counter : ℤ) (clock : Clock) : State Secret :=
  { state.update challenge.id (·.consumed clock.transaction) (fun _ => rfl) with
    profile := some { profile with
      lastUsedCounter := some counter, failedAttempts := 0, lockedUntil := none }
    proved := true
    accepted :=
      { challenge := challenge.id, secret, counter, locked := profile.isLocked clock.now } ::
        state.accepted }

/-- `verify`: a code of the enrolled secret. -/
def State.verify (state : State Secret) (id : ℕ) (code ipAddress : String) (clock : Clock) :
    Except String (State Secret) :=
  match state.profile with
  | none => .error "MFA challenge is invalid or expired"
  | some profile =>
    match assertChallenge setting (state.live? id clock) ipAddress [.login] with
    | .error message => .error message
    | .ok challenge =>
      if profile.enabled = false ∨ profile.isLocked clock.now = true then
        .error "Authenticator verification is temporarily locked"
      else
        match profile.secret with
        | none => .error "The secret cannot be decrypted"
        | some secret =>
          match (matchingCounter setting secret code clock.now).filter profile.takes with
          | none =>
            .ok { state.update id Challenge.failed (fun _ => rfl) with
              profile := some (profile.failed clock) }
          | some counter => .ok (state.pass challenge profile secret counter clock)

/-- The recovery PIN of the profile is there, unused and the one that is given. -/
def Profile.opensWith (profile : Profile Secret) (recoveryPin : String) : Bool :=
  profile.enabled && profile.recoveryPinUsedAt.isNone &&
    decide (profile.recoveryPin = some (normalizePin recoveryPin))

/-- A challenge is answered by the recovery PIN and may enroll a new secret. -/
def State.reopen (state : State Secret) (challenge : Challenge Secret) (profile : Profile Secret)
    (clock : Clock) : State Secret :=
  { state.update challenge.id (·.recovered clock.transaction) (fun _ => rfl) with
    profile := some { profile with recoveryPinUsedAt := some clock.transaction }
    proved := true
    recoveries :=
      { challenge := challenge.id, locked := profile.isLocked clock.now } :: state.recoveries }

def State.recover (state : State Secret) (id : ℕ) (recoveryPin ipAddress : String)
    (clock : Clock) : Except String (State Secret) :=
  match state.profile with
  | none => .error "MFA challenge is invalid or expired"
  | some profile =>
    match assertChallenge setting (state.live? id clock) ipAddress [.login] with
    | .error message => .error message
    | .ok challenge =>
      if profile.opensWith recoveryPin then .ok (state.reopen challenge profile clock)
      else .ok (state.update id Challenge.failed fun _ => rfl)

/-- `reset` by another administrator. -/
def State.reset (state : State Secret) : State Secret :=
  { state with
    profile := some
      { secret := none, enabled := false, enrolledAt := none, lastUsedCounter := none
        recoveryPin := none, recoveryPinUsedAt := none, failedAttempts := 0, lockedUntil := none }
    proved := false }

inductive Event (Secret : Type)
  | beginLogin (ipAddress : String) (clock : Clock)
  | startEnrollment (challengeId : ℕ) (ipAddress : String) (secret : Secret) (clock : Clock)
  | confirmEnrollment (challengeId : ℕ) (code ipAddress recoveryPin : String) (clock : Clock)
  | verify (challengeId : ℕ) (code ipAddress : String) (clock : Clock)
  | recover (challengeId : ℕ) (recoveryPin ipAddress : String) (clock : Clock)
  | reset

/-- One call.  A call that throws leaves everything as it was, and a secret that is drawn is
none of those drawn before. -/
def step (state : State Secret) : Event Secret → Option (State Secret)
  | .beginLogin ipAddress clock => some (state.beginLogin setting ipAddress clock)
  | .startEnrollment id ipAddress secret clock =>
    if secret ∈ state.drawn then none
    else (state.startEnrollment setting id ipAddress secret clock).toOption
  | .confirmEnrollment id code ipAddress recoveryPin clock =>
    (state.confirmEnrollment setting id code ipAddress recoveryPin clock).toOption
  | .verify id code ipAddress clock => (state.verify setting id code ipAddress clock).toOption
  | .recover id recoveryPin ipAddress clock =>
    (state.recover setting id recoveryPin ipAddress clock).toOption
  | .reset => some state.reset

end

/-! ## What the second factor promises -/

variable {Secret : Type}

/-- An enabled secret is replaced only after its own code or its recovery PIN was given; a
challenge is answered once, and recovered once; the counters that are accepted for one secret
increase; and nothing is accepted while the profile is locked. -/
structure State.Kept (state : State Secret) : Prop where
  guarded : ∀ proved ∈ state.replaced, proved = true
  answeredOnce : (state.accepted.map Acceptance.challenge).Nodup
  recoveredOnce : (state.recoveries.map Recovery.challenge).Nodup
  rising : state.accepted.Pairwise fun later earlier =>
    later.secret = earlier.secret → earlier.counter < later.counter
  unlocked : (∀ acceptance ∈ state.accepted, acceptance.locked = false) ∧
    ∀ recovery ∈ state.recoveries, recovery.locked = false

end Finify.Admin.SecondFactor
