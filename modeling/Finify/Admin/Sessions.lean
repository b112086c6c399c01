/-
# Admin sessions and their refresh tokens

A session row holds the hash of the one refresh secret that is worth tokens.
`refresh` reads the row, compares hashes in memory and saves the row it read,
with a new hash or with a revocation; `logout` is one update.  Between the read
and the save of a call any other call may read, save or log out.
-/

import Finify.Foundations.Saving
import Finify.Foundations.Transition
import Mathlib.Data.Int.Notation

namespace Finify.Admin.Sessions

open Foundations

inductive UserStatus | active | disabled | locked
  deriving DecidableEq

/-- What a request tells of its sender. -/
structure RequestContext where
  ipAddress : String := ""
  userAgent : String := ""
  deriving DecidableEq

/-- A text of the request, or what the session has where it is empty. -/
def orElse (text : String) (standing : Option String) : Option String :=
  if text = "" then standing else some text

/-- A row of `admin_sessions`. -/
structure Session (Digest : Type) where
  refreshTokenHash : Digest
  expiresAt : ℤ
  revokedAt : Option ℤ
  ipAddress : Option String
  userAgent : Option String
  lastUsedAt : Option ℤ
  deriving DecidableEq

/-- How long a session can be refreshed, in milliseconds. -/
def refreshTokenLife : ℤ := 7 * 86400000

/-- The code around the session: the hash of a secret, what `save` writes, and the session that
is looked at. -/
structure Setting (Digest : Type) where
  hashToken : List Char → Digest
  saving : Saving
  sessionId : List Char

section

variable {Digest : Type} [DecidableEq Digest] (setting : Setting Digest)

/-- The session identifier and the secret of a refresh token. -/
def parseRefreshToken (token : List Char) : Option (List Char × List Char) :=
  match token.idxOf? '.' with
  | none => none
  | some separator =>
    if separator < 1 then none else some (token.take separator, token.drop (separator + 1))

/-- The refresh token of `tokenResponse`. -/
def refreshTokenOf (sessionId secret : List Char) : List Char := sessionId ++ '.' :: secret

def tokenHashesMatch (secret : List Char) (expectedHash : Digest) : Bool :=
  setting.hashToken secret = expectedHash

/-- The session that `createSession` inserts for a new secret. -/
def createSession (secret : List Char) (now : ℤ) (context : RequestContext) : Session Digest where
  refreshTokenHash := setting.hashToken secret
  expiresAt := now + refreshTokenLife
  revokedAt := none
  ipAddress := orElse context.ipAddress none
  userAgent := orElse context.userAgent none
  lastUsedAt := none

/-- What `refresh` checks on the row that it read and on the user beside it. -/
def Session.refuses? (session : Session Digest) (now : ℤ) (status : UserStatus) : Option String :=
  if session.revokedAt.isSome ∨ session.expiresAt ≤ now then
    some "Refresh token is invalid or expired"
  else if status ≠ .active then some "Admin account is not active"
  else none

def Session.revoked (session : Session Digest) (now : ℤ) : Session Digest :=
  { session with revokedAt := some now }

def Session.rotated (session : Session Digest) (hash : Digest) (now : ℤ)
    (context : RequestContext) : Session Digest :=
  { session with
    refreshTokenHash := hash
    lastUsedAt := some now
    ipAddress := orElse context.ipAddress session.ipAddress
    userAgent := orElse context.userAgent session.userAgent }

/-- `sessions.save(session)`: the row after the save of an object that was read earlier. -/
def Session.save (saving : Saving) (read memory row : Session Digest) : Session Digest where
  refreshTokenHash :=
    saving.column read.refreshTokenHash memory.refreshTokenHash row.refreshTokenHash
  expiresAt := saving.column read.expiresAt memory.expiresAt row.expiresAt
  revokedAt := saving.column read.revokedAt memory.revokedAt row.revokedAt
  ipAddress := saving.column read.ipAddress memory.ipAddress row.ipAddress
  userAgent := saving.column read.userAgent memory.userAgent row.userAgent
  lastUsedAt := saving.column read.lastUsedAt memory.lastUsedAt row.lastUsedAt

/-! ## Calls in flight -/

/-- A `refresh` call that has read the session and not yet saved it.  How many revocations had
completed when it read, and whether its secret had been exchanged, is remembered beside it. -/
structure Refresh (Digest : Type) where
  secret : List Char
  read : Session Digest
  startedAfter : ℕ
  replay : Bool
  deriving DecidableEq

/-- A secret that was given new tokens: its hash, the hash of the secret issued for it, and how
many revocations had completed at the read and at the save of the call. -/
structure Exchange (Digest : Type) where
  presented : Digest
  issued : Digest
  startedAfter : ℕ
  savedAfter : ℕ
  deriving DecidableEq

/-- A revocation completed between the read and the save. -/
def Exchange.Overlaps (exchange : Exchange Digest) : Prop :=
  exchange.startedAfter < exchange.savedAfter

/-- The session row, the calls in flight, the hashes of the secrets drawn so far, and what has
been observed: the exchanges, the completed revocations, and whether a call that presented an
exchanged secret has returned. -/
structure State (Digest : Type) where
  session : Session Digest
  calls : List (Refresh Digest) := []
  drawn : List Digest
  exchanges : List (Exchange Digest) := []
  revocations : ℕ := 0
  replayed : Bool := false
  deriving DecidableEq

/-- Two secrets with one hash are one secret to the service. -/
def State.exchanged (state : State Digest) : List Digest :=
  state.exchanges.map Exchange.presented

/-- A session right after it was created. -/
def State.created (secret : List Char) (now : ℤ) (context : RequestContext) : State Digest where
  session := createSession setting secret now context
  drawn := [setting.hashToken secret]

/-- The first half of `refresh` on this session, up to the comparison. -/
def State.present (state : State Digest) (secret : List Char) (now : ℤ) (status : UserStatus) :
    State Digest :=
  let replay := decide (setting.hashToken secret ∈ state.exchanged)
  match state.session.refuses? now status with
  | some _ => { state with replayed := state.replayed || replay }
  | none =>
    { state with
      calls := { secret, read := state.session, startedAfter := state.revocations, replay } ::
        state.calls }

/-- A call saves the session that it read with a revocation and fails. -/
def State.revoke (state : State Digest) (call : Refresh Digest) (now : ℤ) : State Digest :=
  { state with
    session := Session.save setting.saving call.read (call.read.revoked now) state.session
    calls := state.calls.erase call
    revocations := state.revocations + 1
    replayed := state.replayed || call.replay }

/-- A call saves the session that it read with the hash of a new secret and returns tokens. -/
def State.rotate (state : State Digest) (call : Refresh Digest) (hash : Digest) (now : ℤ)
    (context : RequestContext) : State Digest :=
  { state with
    session :=
      Session.save setting.saving call.read (call.read.rotated hash now context) state.session
    calls := state.calls.erase call
    drawn := hash :: state.drawn
    exchanges :=
      { presented := setting.hashToken call.secret, issued := hash
        startedAfter := call.startedAfter, savedAfter := state.revocations } :: state.exchanges
    replayed := state.replayed || call.replay }

/-- What callers do: a call presents a token and reads, a call that has read saves, and a call
logs out. -/
inductive Event (Digest : Type)
  | read (refreshToken : List Char) (now : ℤ) (status : UserStatus)
  | save (call : Refresh Digest) (nextSecret : List Char) (now : ℤ) (context : RequestContext)
  | logout (now : ℤ)

/-- One event.  A token of another session does not touch this one, and a secret that is drawn
at random has a hash that no earlier one had. -/
def step (state : State Digest) : Event Digest → Option (State Digest)
  | .read refreshToken now status =>
    match parseRefreshToken refreshToken with
    | none => some state
    | some (id, secret) =>
      if id = setting.sessionId then some (state.present setting secret now status)
      else some state
  | .save call nextSecret now context =>
    if call ∈ state.calls then
      if tokenHashesMatch setting call.secret call.read.refreshTokenHash then
        if setting.hashToken nextSecret ∈ state.drawn then none
        else some (state.rotate setting call (setting.hashToken nextSecret) now context)
      else some (state.revoke setting call now)
    else none
  | .logout now =>
    some { state with
      session := state.session.revoked now
      revocations := state.revocations + 1 }

end

/-! ## What refresh tokens promise -/

variable {Digest : Type}

/-- Every secret is exchanged at most once; once an exchanged secret was presented the session is
revoked; a revoked session stays so; no call that read after a revocation gets tokens; and no
secret that was issued across a revocation is exchanged. -/
structure State.Kept (state : State Digest) : Prop where
  once : state.exchanged.Nodup
  alarmed : state.replayed = true → state.session.revokedAt.isSome
  final : 0 < state.revocations → state.session.revokedAt.isSome
  early : ∀ exchange ∈ state.exchanges, exchange.startedAfter = 0
  worthless : ∀ first ∈ state.exchanges, first.Overlaps →
    ∀ second ∈ state.exchanges, second.presented ≠ first.issued

end Finify.Admin.Sessions
