/-
# Refresh tokens are single use

A refresh that returns tokens saves a session which it read before.  In a run in
which the secret has not been exchanged in between, nor the session revoked where
the save would write that back, every secret is exchanged once and revocations
are final.  Two calls that both read before either saves both get tokens.
-/

import Finify.Admin.Sessions

namespace Finify.Admin.Sessions

open Foundations

section

variable {Digest : Type} (setting : Setting Digest)

/-- No save of an object that was read before a revocation would undo it. -/
def Steady (session : Session Digest) : Prop :=
  setting.saving = .differing → session.revokedAt = none

/-- The row still has the hash that the call compared with, and no revocation that its save would
undo. -/
def Undisturbed (session : Session Digest) (call : Refresh Digest) : Prop :=
  session.refreshTokenHash = call.read.refreshTokenHash ∧ Steady setting session

variable {setting} in
theorem steady_of_live {session : Session Digest} (hlive : session.revokedAt = none) :
    Steady setting session := fun _ => hlive

variable {setting} in
theorem steady_of_changed {session : Session Digest} (hsaving : setting.saving = .changed) :
    Steady setting session := by
  intro hdiffering
  rw [hsaving] at hdiffering
  exact nomatch hdiffering

theorem Session.refuses?_eq_none {session : Session Digest} {now : ℤ} {status : UserStatus} :
    session.refuses? now status = none ↔
      session.revokedAt = none ∧ ¬ session.expiresAt ≤ now ∧ status = .active := by
  simp only [Session.refuses?]
  cases session.revokedAt with
  | some revokedAt => simp
  | none =>
    by_cases hexpired : session.expiresAt ≤ now
    · simp [hexpired]
    · simp [hexpired]

/-- Nothing was revoked while the session is live. -/
theorem State.Kept.revocations_of_live {state : State Digest} (hkept : state.Kept)
    (hlive : state.session.revokedAt = none) : state.revocations = 0 := by
  by_contra hsome
  have hrevoked := hkept.final (Nat.pos_of_ne_zero hsome)
  rw [hlive] at hrevoked
  exact nomatch hrevoked

variable [DecidableEq Digest]

/-- A call that is about to return tokens saves an undisturbed session, and an exchanged secret is
presented while the session has not expired and the account is active, or after a revocation. -/
def Orderly (state : State Digest) : Event Digest → Prop
  | .read refreshToken now status =>
    ∀ parsed ∈ parseRefreshToken refreshToken, parsed.1 = setting.sessionId →
      setting.hashToken parsed.2 ∈ state.exchanged → state.session.revokedAt = none →
        state.session.refuses? now status = none
  | .save call _ _ _ =>
    tokenHashesMatch setting call.secret call.read.refreshTokenHash = true →
      Undisturbed setting state.session call
  | .logout _ => True

/-! ## The invariant -/

/-- What is true of a call in flight, relative to the row, the secrets drawn and the exchanges. -/
structure Refresh.Sound (session : Session Digest) (drawn : List Digest)
    (exchanges : List (Exchange Digest)) (call : Refresh Digest) : Prop where
  live : call.read.revokedAt = none
  early : call.startedAfter = 0
  known : call.read.refreshTokenHash ∈ drawn
  standing : Steady setting session →
    call.read.refreshTokenHash = session.refreshTokenHash ∨
      call.read.refreshTokenHash ∈ exchanges.map Exchange.presented
  unused : tokenHashesMatch setting call.secret call.read.refreshTokenHash = true →
    call.replay = false
  apart : ∀ first ∈ exchanges, first.Overlaps → call.read.refreshTokenHash ≠ first.issued

/-- The hash of the row is a drawn one that has not been exchanged, only revocations revoke, and
exchanges know secrets that were drawn. -/
structure State.Sound (state : State Digest) : Prop where
  known : state.session.refreshTokenHash ∈ state.drawn
  presented : ∀ hash ∈ state.exchanged, hash ∈ state.drawn
  issued : ∀ exchange ∈ state.exchanges, exchange.issued ∈ state.drawn
  current : Steady setting state.session → state.session.refreshTokenHash ∉ state.exchanged
  revoked : state.session.revokedAt.isSome → 0 < state.revocations
  saved : ∀ exchange ∈ state.exchanges, exchange.savedAfter ≤ state.revocations
  calls : ∀ call ∈ state.calls,
    call.Sound setting state.session state.drawn state.exchanges

variable {setting} {state : State Digest} {call : Refresh Digest}

/-- No exchange has overlapped a revocation while the session is live. -/
theorem State.Sound.not_overlaps (hsound : state.Sound setting) (hnone : state.revocations = 0)
    {exchange : Exchange Digest} (hmem : exchange ∈ state.exchanges) : ¬ exchange.Overlaps := by
  intro hoverlaps
  have hsaved := hsound.saved exchange hmem
  simp only [Exchange.Overlaps] at hoverlaps
  omega

/-! ## A call presents a secret -/

theorem State.Sound.present (hsound : state.Sound setting) (hkept : state.Kept)
    (secret : List Char) (now : ℤ) (status : UserStatus) :
    (state.present setting secret now status).Sound setting := by
  cases hrefuses : state.session.refuses? now status with
  | some refusal =>
    simp only [State.present, hrefuses]
    exact ⟨hsound.known, hsound.presented, hsound.issued, hsound.current, hsound.revoked,
      hsound.saved, hsound.calls⟩
  | none =>
    simp only [State.present, hrefuses]
    have hlive := (Session.refuses?_eq_none.mp hrefuses).1
    have hnone := hkept.revocations_of_live hlive
    refine ⟨hsound.known, hsound.presented, hsound.issued, hsound.current, hsound.revoked,
      hsound.saved, ?_⟩
    intro call hcall
    cases List.mem_cons.mp hcall with
    | inr hold => exact hsound.calls call hold
    | inl hnew =>
      subst hnew
      exact {
        live := hlive
        early := hnone
        known := hsound.known
        standing := fun _ => .inl rfl
        unused := by
          intro hmatch
          have hhash : setting.hashToken secret = state.session.refreshTokenHash := by
            simpa [tokenHashesMatch] using hmatch
          have hfresh := hsound.current (steady_of_live hlive)
          simpa [hhash] using hfresh
        apart := fun first hfirst hoverlaps =>
          absurd hoverlaps (hsound.not_overlaps hnone hfirst) }

/-- A presentation that is turned away leaves the session as it is. -/
theorem State.Kept.present (hkept : state.Kept) {secret : List Char} {now : ℤ}
    {status : UserStatus} : (state.present setting secret now status).Kept ↔
      (setting.hashToken secret ∈ state.exchanged → state.session.revokedAt = none →
        state.session.refuses? now status = none) := by
  cases hrefuses : state.session.refuses? now status with
  | none =>
    simp only [State.present, hrefuses]
    simp only [implies_true, iff_true]
    exact ⟨hkept.once, hkept.alarmed, hkept.final, hkept.early, hkept.worthless⟩
  | some refusal =>
    simp only [State.present, hrefuses]
    constructor
    · intro hafter hexchanged hlive
      have hrevoked := hafter.alarmed (by simp [hexchanged])
      simp [hlive] at hrevoked
    · intro hreplay
      refine ⟨hkept.once, ?_, hkept.final, hkept.early, hkept.worthless⟩
      intro halarm
      simp only [Bool.or_eq_true, decide_eq_true_eq] at halarm
      cases halarm with
      | inl hbefore => exact hkept.alarmed hbefore
      | inr hexchanged =>
        by_contra hlive
        exact nomatch hreplay hexchanged (Option.not_isSome_iff_eq_none.mp hlive)

/-! ## A call revokes the session -/

theorem saved_revoked {session : Session Digest} {now : ℤ}
    (hlive : call.read.revokedAt = none) :
    (Session.save setting.saving call.read (call.read.revoked now) session).revokedAt =
      some now := by
  refine Saving.column_assigned setting.saving ?_
  simp [Session.revoked, hlive]

theorem revoked_isSome (hlive : call.read.revokedAt = none) (now : ℤ) :
    (state.revoke setting call now).session.revokedAt.isSome := by
  simp only [State.revoke]
  rw [saved_revoked hlive]
  rfl

/-- A revocation that no save would undo is one that writes nothing else. -/
theorem saving_of_steady {session : Session Digest} {now : ℤ} (hlive : call.read.revokedAt = none)
    (hsteady : Steady setting
      (Session.save setting.saving call.read (call.read.revoked now) session)) :
    setting.saving = .changed := by
  cases hsaving : setting.saving with
  | changed => rfl
  | differing =>
    have hnone := hsteady hsaving
    rw [saved_revoked hlive] at hnone
    exact nomatch hnone

theorem saved_revoked_hash {session : Session Digest} {now : ℤ}
    (hsaving : setting.saving = .changed) :
    (Session.save setting.saving call.read (call.read.revoked now) session).refreshTokenHash =
      session.refreshTokenHash := by
  rw [hsaving]
  exact Saving.column_untouched

theorem State.Sound.revoke (hsound : state.Sound setting) (hcall : call ∈ state.calls) (now : ℤ) :
    (state.revoke setting call now).Sound setting := by
  obtain ⟨hlive, _, hknown, _, _, _⟩ := hsound.calls call hcall
  constructor
  case known =>
    cases hsaving : setting.saving with
    | changed => simpa [State.revoke, Session.save, Session.revoked, hsaving] using hsound.known
    | differing => simpa [State.revoke, Session.save, Session.revoked, hsaving] using hknown
  case presented => exact hsound.presented
  case issued => exact hsound.issued
  case current =>
    intro hsteady
    have hsaving := saving_of_steady hlive hsteady
    simp only [State.revoke, saved_revoked_hash hsaving]
    exact hsound.current (steady_of_changed hsaving)
  case revoked => exact fun _ => Nat.succ_pos _
  case saved => exact fun exchange hmem => Nat.le_succ_of_le (hsound.saved exchange hmem)
  case calls =>
    intro other hother
    have hold := hsound.calls other (List.mem_of_mem_erase hother)
    refine ⟨hold.live, hold.early, hold.known, ?_, hold.unused, hold.apart⟩
    intro hsteady
    have hsaving := saving_of_steady hlive hsteady
    simp only [State.revoke, saved_revoked_hash hsaving]
    exact hold.standing (steady_of_changed hsaving)

theorem State.Kept.revoke (hkept : state.Kept) (hlive : call.read.revokedAt = none) (now : ℤ) :
    (state.revoke setting call now).Kept where
  once := hkept.once
  alarmed _ := revoked_isSome hlive now
  final _ := revoked_isSome hlive now
  early := hkept.early
  worthless := hkept.worthless

/-! ## A call rotates the secret -/

/-- In an orderly rotation the row gets the new hash and stays as live as it was. -/
theorem saved_rotated {session : Session Digest} (hlive : call.read.revokedAt = none)
    (hundisturbed : Undisturbed setting session call) (hash : Digest) (now : ℤ)
    (context : RequestContext) :
    (Session.save setting.saving call.read (call.read.rotated hash now context)
        session).refreshTokenHash = hash ∧
      (Session.save setting.saving call.read (call.read.rotated hash now context)
        session).revokedAt = session.revokedAt := by
  obtain ⟨hsame, hsteady⟩ := hundisturbed
  constructor
  · simp only [Session.save, Session.rotated, ← hsame]
    exact Saving.column_undisturbed setting.saving
  · cases hsaving : setting.saving with
    | changed => exact Saving.column_untouched
    | differing =>
      have hcolumn : (Session.save .differing call.read (call.read.rotated hash now context)
          session).revokedAt = call.read.revokedAt := by
        simp only [Session.save, Session.rotated, Saving.column_differing]
      rw [hcolumn, hlive, hsteady hsaving]

/-- The secret of a call that is about to return tokens has not been exchanged. -/
theorem State.Sound.not_exchanged (hsound : state.Sound setting)
    (hmatch : tokenHashesMatch setting call.secret call.read.refreshTokenHash = true)
    (hundisturbed : Undisturbed setting state.session call) :
    setting.hashToken call.secret ∉ state.exchanged := by
  obtain ⟨hsame, hsteady⟩ := hundisturbed
  have hhash : setting.hashToken call.secret = call.read.refreshTokenHash := by
    simpa [tokenHashesMatch] using hmatch
  rw [hhash, ← hsame]
  exact hsound.current hsteady

theorem State.Sound.rotate (hsound : state.Sound setting) (hcall : call ∈ state.calls)
    {hash : Digest} (hfresh : hash ∉ state.drawn) (now : ℤ) (context : RequestContext)
    (hmatch : tokenHashesMatch setting call.secret call.read.refreshTokenHash = true)
    (hundisturbed : Undisturbed setting state.session call) :
    (state.rotate setting call hash now context).Sound setting := by
  have hmine := hsound.calls call hcall
  have hhash : setting.hashToken call.secret = call.read.refreshTokenHash := by
    simpa [tokenHashesMatch] using hmatch
  obtain ⟨hrow, hrevoked⟩ := saved_rotated hmine.live hundisturbed hash now context
  have hdrawn : ∀ other ∈ (state.rotate setting call hash now context).exchanged,
      other ∈ state.drawn := by
    intro other hother
    cases List.mem_cons.mp hother with
    | inl hnew => exact hnew ▸ hhash ▸ hmine.known
    | inr hold => exact hsound.presented other hold
  constructor
  case known => exact List.mem_cons.mpr (.inl hrow)
  case presented => exact fun other hother => List.mem_cons_of_mem _ (hdrawn other hother)
  case issued =>
    intro exchange hmem
    cases List.mem_cons.mp hmem with
    | inl hnew => exact List.mem_cons.mpr (.inl (congrArg Exchange.issued hnew))
    | inr hold => exact List.mem_cons_of_mem _ (hsound.issued exchange hold)
  case current =>
    intro _ hexchanged
    simp only [State.rotate] at hexchanged
    rw [hrow] at hexchanged
    exact hfresh (hdrawn hash hexchanged)
  case revoked =>
    intro hsome
    simp only [State.rotate] at hsome
    rw [hrevoked] at hsome
    exact hsound.revoked hsome
  case saved =>
    intro exchange hmem
    cases List.mem_cons.mp hmem with
    | inl hnew => exact Nat.le_of_eq (congrArg Exchange.savedAfter hnew)
    | inr hold => exact hsound.saved exchange hold
  case calls =>
    intro other hother
    have hold := hsound.calls other (List.mem_of_mem_erase hother)
    refine ⟨hold.live, hold.early, List.mem_cons_of_mem _ hold.known, ?_, hold.unused, ?_⟩
    · intro _
      -- The other call read the hash that is exchanged now, or one exchanged before.
      right
      rw [State.rotate, List.map_cons, List.mem_cons]
      cases hold.standing hundisturbed.2 with
      | inl hsame => exact .inl (by rw [hsame, hundisturbed.1, hhash])
      | inr hbefore => exact .inr hbefore
    · intro first hfirst hoverlaps
      cases List.mem_cons.mp hfirst with
      | inl hnew =>
        intro hissued
        have hknown := hold.known
        rw [hissued, hnew] at hknown
        exact hfresh hknown
      | inr hbefore => exact hold.apart first hbefore hoverlaps

/-- The save of new tokens keeps what refresh tokens promise exactly when it is orderly. -/
theorem State.Kept.rotate (hkept : state.Kept) (hsound : state.Sound setting)
    (hcall : call ∈ state.calls) {hash : Digest} (hfresh : hash ∉ state.drawn) (now : ℤ)
    (context : RequestContext)
    (hmatch : tokenHashesMatch setting call.secret call.read.refreshTokenHash = true) :
    (state.rotate setting call hash now context).Kept ↔
      Undisturbed setting state.session call := by
  have hmine := hsound.calls call hcall
  have hhash : setting.hashToken call.secret = call.read.refreshTokenHash := by
    simpa [tokenHashesMatch] using hmatch
  constructor
  · intro hafter
    have hsteady : Steady setting state.session := by
      intro hsaving
      by_contra hsome
      have hlost := hafter.final (hsound.revoked (Option.isSome_iff_ne_none.mpr hsome))
      simp [State.rotate, Session.save, Session.rotated, hsaving, hmine.live] at hlost
    refine ⟨?_, hsteady⟩
    cases hmine.standing hsteady with
    | inl hsame => exact hsame.symm
    | inr hbefore =>
      have hnotMem := (List.nodup_cons.mp hafter.once).1
      rw [hhash] at hnotMem
      exact absurd hbefore hnotMem
  · intro hundisturbed
    have hunused := hsound.not_exchanged hmatch hundisturbed
    have hrevoked := (saved_rotated hmine.live hundisturbed hash now context).2
    constructor
    case once => exact List.nodup_cons.mpr ⟨hunused, hkept.once⟩
    case alarmed =>
      intro halarm
      simp only [State.rotate, hmine.unused hmatch, Bool.or_false] at halarm ⊢
      rw [hrevoked]
      exact hkept.alarmed halarm
    case final =>
      intro hsome
      simp only [State.rotate] at hsome ⊢
      rw [hrevoked]
      exact hkept.final hsome
    case early =>
      intro exchange hmem
      cases List.mem_cons.mp hmem with
      | inl hnew => exact (congrArg Exchange.startedAfter hnew).trans hmine.early
      | inr hold => exact hkept.early exchange hold
    case worthless =>
      intro first hfirst hoverlaps second hsecond hissued
      have hpresented : second.presented ∈
          (state.rotate setting call hash now context).exchanged :=
        List.mem_map_of_mem hsecond
      cases List.mem_cons.mp hfirst with
      | inl hnew =>
        -- A new secret is none of those presented so far.
        rw [hissued, hnew] at hpresented
        cases List.mem_cons.mp hpresented with
        | inl hself =>
          have hself' : hash = setting.hashToken call.secret := hself
          exact hfresh (hself' ▸ hhash ▸ hmine.known)
        | inr hold => exact hfresh (hsound.presented hash hold)
      | inr hbefore =>
        cases List.mem_cons.mp hsecond with
        | inl hnew =>
          rw [hnew] at hissued
          exact hmine.apart first hbefore hoverlaps (hhash.symm.trans hissued)
        | inr hold => exact hkept.worthless first hbefore hoverlaps second hold hissued

/-! ## Runs -/

theorem State.Sound.logout (hsound : state.Sound setting) (now : ℤ) :
    State.Sound setting { state with
      session := state.session.revoked now
      revocations := state.revocations + 1 } where
  known := hsound.known
  presented := hsound.presented
  issued := hsound.issued
  current hsteady := by
    apply hsound.current
    intro hsaving
    exact nomatch hsteady hsaving
  revoked _ := Nat.succ_pos _
  saved exchange hmem := Nat.le_succ_of_le (hsound.saved exchange hmem)
  calls other hother := by
    have hold := hsound.calls other hother
    refine ⟨hold.live, hold.early, hold.known, ?_, hold.unused, hold.apart⟩
    intro hsteady
    apply hold.standing
    intro hsaving
    exact nomatch hsteady hsaving

omit [DecidableEq Digest] in
theorem State.Kept.logout (hkept : state.Kept) (now : ℤ) :
    State.Kept { state with
      session := state.session.revoked now
      revocations := state.revocations + 1 } where
  once := hkept.once
  alarmed _ := rfl
  final _ := rfl
  early := hkept.early
  worthless := hkept.worthless

/-- An event keeps what refresh tokens promise exactly when it is orderly, and then it keeps the
invariant. -/
theorem step_kept (hsound : state.Sound setting) (hkept : state.Kept) {event : Event Digest}
    {after : State Digest} (hstep : step setting state event = some after) :
    (Orderly setting state event → after.Sound setting) ∧
      (after.Kept ↔ Orderly setting state event) := by
  cases event with
  | read refreshToken now status =>
    simp only [step] at hstep
    cases hparsed : parseRefreshToken refreshToken with
    | none =>
      simp only [hparsed, Option.some.injEq] at hstep
      subst hstep
      simp [Orderly, hparsed, hsound, hkept]
    | some parsed =>
      obtain ⟨id, secret⟩ := parsed
      simp only [hparsed] at hstep
      split at hstep
      next hid =>
        cases hstep
        refine ⟨fun _ => hsound.present hkept secret now status, hkept.present.trans ?_⟩
        simp [Orderly, hparsed, hid]
      next hother =>
        cases hstep
        simp [Orderly, hparsed, hother, hsound, hkept]
  | save call nextSecret now context =>
    simp only [step, Option.ite_none_right_eq_some] at hstep
    obtain ⟨hcall, hstep⟩ := hstep
    split at hstep
    next hmatch =>
      rw [Option.ite_none_left_eq_some] at hstep
      obtain ⟨hfresh, hafter⟩ := hstep
      cases hafter
      simp only [Orderly, hmatch, forall_const]
      exact ⟨hsound.rotate hcall hfresh now context hmatch,
        hkept.rotate hsound hcall hfresh now context hmatch⟩
    next hmismatch =>
      cases hstep
      have hlive := (hsound.calls call hcall).live
      simp only [Orderly, hmismatch, Bool.false_eq_true, false_implies, iff_true, true_implies]
      exact ⟨hsound.revoke hcall now, hkept.revoke hlive now⟩
  | logout now =>
    cases hstep
    simp only [Orderly, true_implies, iff_true]
    exact ⟨hsound.logout now, hkept.logout now⟩

variable (setting) in
theorem created_sound (secret : List Char) (now : ℤ) (context : RequestContext) :
    (State.created setting secret now context).Sound setting where
  known := List.mem_cons_self
  presented := by simp [State.created, State.exchanged]
  issued := by simp [State.created]
  current := by simp [State.created, State.exchanged]
  revoked := by simp [State.created, createSession]
  saved := by simp [State.created]
  calls := by simp [State.created]

variable (setting) in
omit [DecidableEq Digest] in
theorem created_kept (secret : List Char) (now : ℤ) (context : RequestContext) :
    (State.created setting secret now context).Kept where
  once := List.nodup_nil
  alarmed := by simp [State.created]
  final := by simp [State.created]
  early := by simp [State.created]
  worthless := by simp [State.created]

/-- In orderly runs refresh tokens are single use and revocations final, and the first event that
is not orderly breaks one of the two. -/
theorem refresh_tokens_single_use {secret : List Char} {now : ℤ} {context : RequestContext}
    (hrun : ReachesUnder (step setting) (Orderly setting)
      (State.created setting secret now context) state) :
    state.Kept ∧ ∀ event after, step setting state event = some after →
      (after.Kept ↔ Orderly setting state event) := by
  have hboth : state.Sound setting ∧ state.Kept := by
    apply hrun.preserves (fun state => state.Sound setting ∧ state.Kept)
    · rintro before event after ⟨hsound, hkept⟩ horderly hstep
      obtain ⟨hafter, hiff⟩ := step_kept hsound hkept hstep
      exact ⟨hafter horderly, hiff.mpr horderly⟩
    · exact ⟨created_sound setting secret now context, created_kept setting secret now context⟩
  obtain ⟨hsound, hkept⟩ := hboth
  constructor
  · exact hkept
  · intro event after hstep
    exact (step_kept hsound hkept hstep).2

end

/-! ## Two calls with one secret -/

section

variable {Digest : Type} [DecidableEq Digest] (setting : Setting Digest)

instance (session : Session Digest) : Decidable (Steady setting session) :=
  inferInstanceAs (Decidable (setting.saving = .differing → session.revokedAt = none))

instance (session : Session Digest) (call : Refresh Digest) :
    Decidable (Undisturbed setting session call) :=
  inferInstanceAs (Decidable (_ ∧ _))

instance (state : State Digest) (event : Event Digest) : Decidable (Orderly setting state event) :=
  match event with
  | .read refreshToken now status =>
    inferInstanceAs (Decidable
      (∀ parsed ∈ parseRefreshToken refreshToken, parsed.1 = setting.sessionId →
        setting.hashToken parsed.2 ∈ state.exchanged → state.session.revokedAt = none →
          state.session.refuses? now status = none))
  | .save call _ _ _ =>
    inferInstanceAs (Decidable
      (tokenHashesMatch setting call.secret call.read.refreshTokenHash = true →
        Undisturbed setting state.session call))
  | .logout _ => isTrue trivial

end

/-- A session whose secrets are their own hashes. -/
def plainSetting (saving : Saving) : Setting (List Char) where
  hashToken := id
  saving := saving
  sessionId := ['s']

/-- The session starts with one secret. -/
def firstState (saving : Saving) : State (List Char) :=
  .created (plainSetting saving) ['a'] 0 {}

def presents (secret : List Char) (now : ℤ) : Event (List Char) :=
  .read (refreshTokenOf ['s'] secret) now .active

/-- A call that presented the first secret before it was exchanged. -/
def firstCall (saving : Saving) : Refresh (List Char) where
  secret := ['a']
  read := (firstState saving).session
  startedAfter := 0
  replay := false

/-- A call that presented a secret after the first was exchanged for the second, at a time. -/
def laterCall (saving : Saving) (secret : List Char) (now : ℤ) (startedAfter : ℕ) (replay : Bool) :
    Refresh (List Char) where
  secret := secret
  read := (firstState saving).session.rotated ['b'] now {}
  startedAfter := startedAfter
  replay := replay

/-- A secret is exchanged, presented again, and the session revoked for it. -/
theorem refresh_tokens_single_use_replayed :
    ∃ state, ReachesUnder (step (plainSetting .differing)) (Orderly (plainSetting .differing))
        (firstState .differing) state ∧
      state.exchanged = [['a']] ∧ state.session.revokedAt = some 4 ∧ state.Kept := by
  have hany : (runInputs (guardedStep (step (plainSetting .differing))
      (Orderly (plainSetting .differing))) (firstState .differing)
      [presents ['a'] 1, .save (firstCall .differing) ['b'] 2 {}, presents ['a'] 3,
        .save (laterCall .differing ['a'] 2 0 true) ['c'] 4 {}]).any (fun state =>
          decide (state.exchanged = [['a']] ∧ state.session.revokedAt = some 4)) := by
    decide
  obtain ⟨state, hrun, hfacts⟩ := (Option.any_eq_true _ _).mp hany
  obtain ⟨hexchanged, hrevoked⟩ := of_decide_eq_true hfacts
  have hreaches := (Reaches.of_runInputs hrun).under
  exact ⟨state, hreaches, hexchanged, hrevoked, (refresh_tokens_single_use hreaches).1⟩

/-- Two calls read, then both save. -/
def overlapping (saving : Saving) : List (Event (List Char)) :=
  [presents ['a'] 1, presents ['a'] 1, .save (firstCall saving) ['b'] 2 {},
    .save (firstCall saving) ['c'] 2 {}]

/-- Whatever a save writes, two calls that read before either saves get tokens for one secret;
and where it writes back what was read, a logout between a read and its save is undone and a
call that starts later gets tokens. -/
theorem secret_exchanged_twice :
    (∃ state, Reaches (step (plainSetting .changed)) (firstState .changed) state ∧
      state.exchanged = [['a'], ['a']] ∧ ¬ state.Kept) ∧
    (∃ state, Reaches (step (plainSetting .differing)) (firstState .differing) state ∧
      state.exchanged = [['a'], ['a']] ∧ ¬ state.Kept) ∧
    ∃ state, Reaches (step (plainSetting .differing)) (firstState .differing) state ∧
      state.exchanged = [['b'], ['a']] ∧ state.revocations = 1 ∧
        (∃ exchange ∈ state.exchanges, exchange.startedAfter = 1) ∧ ¬ state.Kept := by
  refine ⟨?_, ?_, ?_⟩
  · have hany : (runInputs (step (plainSetting .changed)) (firstState .changed)
        (overlapping .changed)).any (fun state => decide (state.exchanged = [['a'], ['a']])) := by
      decide
    obtain ⟨state, hrun, hfacts⟩ := (Option.any_eq_true _ _).mp hany
    have hexchanged := of_decide_eq_true hfacts
    refine ⟨state, .of_runInputs hrun, hexchanged, ?_⟩
    intro hkept
    exact absurd (hexchanged ▸ hkept.once) (by decide)
  · have hany : (runInputs (step (plainSetting .differing)) (firstState .differing)
        (overlapping .differing)).any (fun state => decide (state.exchanged = [['a'], ['a']])) := by
      decide
    obtain ⟨state, hrun, hfacts⟩ := (Option.any_eq_true _ _).mp hany
    have hexchanged := of_decide_eq_true hfacts
    refine ⟨state, .of_runInputs hrun, hexchanged, ?_⟩
    intro hkept
    exact absurd (hexchanged ▸ hkept.once) (by decide)
  · have hany : (runInputs (step (plainSetting .differing)) (firstState .differing)
        [presents ['a'] 1, .logout 2, .save (firstCall .differing) ['b'] 3 {}, presents ['b'] 4,
          .save (laterCall .differing ['b'] 3 1 false) ['c'] 5 {}]).any (fun state =>
            decide (state.exchanged = [['b'], ['a']] ∧ state.revocations = 1 ∧
              ∃ exchange ∈ state.exchanges, exchange.startedAfter = 1)) := by
      decide
    obtain ⟨state, hrun, hfacts⟩ := (Option.any_eq_true _ _).mp hany
    obtain ⟨hexchanged, hrevocations, exchange, hmem, hlate⟩ := of_decide_eq_true hfacts
    refine ⟨state, .of_runInputs hrun, hexchanged, hrevocations, ⟨exchange, hmem, hlate⟩, ?_⟩
    intro hkept
    exact absurd (hlate ▸ hkept.early exchange hmem) (by decide)

end Finify.Admin.Sessions
