/-
# Administrators, their roles and their logins

`updateUser` locks the row of its user, counts the other active Super Admins when
it takes one away, and writes at the end of its transaction; `createUser` inserts.
`login` and `completeMfaLogin` read a user without a lock, assign columns and save
the object: the save reloads the row and writes the columns that differ.  What the
parties have begun and not finished is part of the state.
-/

import Finify.Admin.Sessions
import Finify.Foundations.Table

namespace Finify.Admin.Users

open Foundations
open Sessions (UserStatus)

structure Role where
  id : String
  code : String
  deriving DecidableEq

def superAdmin : String := "super_admin"

def hasSuper (roles : List Role) : Bool := roles.any fun role => decide (role.code = superAdmin)

/-- A row of `admin_users` with the roles of the user.  Passwords stand for their hashes.  Whether
the user is barred, that is, was set to disabled or locked by the last administrator who set the
status, is remembered beside it. -/
structure User where
  id : ℕ
  password : String
  status : UserStatus
  failedLoginAttempts : ℕ
  lockedUntil : Option ℤ
  lastLoginAt : Option ℤ
  roles : List Role
  barred : Bool
  deriving DecidableEq

def User.isActiveSuper (user : User) : Bool :=
  decide (user.status = .active) && hasSuper user.roles

/-- A row of `admin_sessions`, and whether its user was barred when it was opened. -/
structure Session where
  userId : ℕ
  revoked : Bool
  barred : Bool
  deriving DecidableEq

/-- What the access token says of the administrator who calls. -/
structure Actor where
  sub : ℕ
  roles : List String
  deriving DecidableEq

/-! ## What parties have begun -/

inductive UpdatePhase | checking | writing
  deriving DecidableEq

/-- An `updateUser` transaction that holds the lock of its user: the input, the status and the
roles that it read, and how many active Super Admins had been taken away when it counted. -/
structure Update where
  id : ℕ
  status : Option UserStatus
  password : Option String
  roles : Option (List Role)
  currentStatus : UserStatus
  currentIsSuper : Bool
  phase : UpdatePhase
  seen : ℕ
  deriving DecidableEq

def Update.nextIsSuper (update : Update) : Bool :=
  match update.roles with
  | some roles => hasSuper roles
  | none => update.currentIsSuper

def Update.nextActive (update : Update) : Bool :=
  decide (update.status.getD update.currentStatus = .active)

/-- The update has to check that another active Super Admin remains. -/
def Update.takesAway (update : Update) : Bool :=
  update.currentIsSuper && (!update.nextIsSuper || !update.nextActive)

/-- The columns that a save writes. -/
structure Patch where
  password : Option String
  status : Option UserStatus
  failedLoginAttempts : Option ℕ
  lockedUntil : Option (Option ℤ)
  lastLoginAt : Option (Option ℤ)
  deriving DecidableEq

inductive LoginPhase
  | reloading
  | writing (patch : Patch)
  | opening
  deriving DecidableEq

/-- A call that has read a user and is about to save it: the object in memory, whether the
password was read with it, and whether a session is opened after the save. -/
structure Login where
  memory : User
  loadsPassword : Bool
  opens : Bool
  phase : LoginPhase
  deriving DecidableEq

/-- The next step of the call updates its user. -/
def Login.isWriting (login : Login) : Bool :=
  match login.phase with
  | .writing _ => true
  | _ => false

structure State where
  users : Log (fun user : User => user.id)
  sessions : List Session := []
  updates : List Update := []
  logins : List Login := []
  removals : ℕ := 0

/-! ## `AdminAccessService` -/

def isIdentifier (text : String) : Bool :=
  match text.toList with
  | [] => false
  | first :: rest => decide (first ∈ "123456789".toList) && rest.all Char.isDigit

def ids (values : List String) (label : String) : Except String (List String) :=
  if values.eraseDups = [] ∨ ∃ id ∈ values.eraseDups, isIdentifier id = false then
    .error ("At least one valid " ++ label ++ " is required")
  else .ok values.eraseDups

/-- The roles with the given identifiers, if an administrator may assign them. -/
def validateRoles (directory : List Role) (roleIds : List String) (actor : Actor) :
    Except String (List Role) :=
  match ids roleIds "role" with
  | .error message => .error message
  | .ok ids =>
    let roles := directory.filter fun role => decide (role.id ∈ ids)
    if roles.length ≠ ids.length then .error "One or more roles are invalid"
    else if hasSuper roles = true ∧ superAdmin ∉ actor.roles then
      .error "Only a Super Admin can assign the Super Admin role"
    else .ok roles

/-- The roles of an update, which may leave them as they are. -/
def validateRoles? (directory : List Role) (roleIds : Option (List String)) (actor : Actor) :
    Except String (Option (List Role)) :=
  match roleIds with
  | none => .ok none
  | some roleIds => (validateRoles directory roleIds actor).map some

def newUser (password : String) (roles : List Role) (id : ℕ) : User where
  id := id
  password := password
  status := .active
  failedLoginAttempts := 0
  lockedUntil := none
  lastLoginAt := none
  roles := roles
  barred := false

theorem newUser_id (password : String) (roles : List Role) (id : ℕ) :
    (newUser password roles id).id = id := rfl

def State.createUser (directory : List Role) (state : State) (password : String)
    (roleIds : List String) (actor : Actor) : Except String State :=
  if superAdmin ∉ actor.roles then .error "Only a Super Admin can change users and roles"
  else
    match validateRoles directory roleIds actor with
    | .error message => .error message
    | .ok roles =>
      .ok { state with
        users := state.users.append (newUser password roles) (newUser_id password roles) }

/-- The input of `updateUser`. -/
structure UpdateInput where
  status : Option UserStatus := none
  roleIds : Option (List String) := none
  password : Option String := none

def updateOf (user : User) (input : UpdateInput) (roles : Option (List Role)) : Update :=
  let update : Update :=
    { id := user.id, status := input.status, password := input.password, roles := roles
      currentStatus := user.status, currentIsSuper := hasSuper user.roles
      phase := .writing, seen := 0 }
  if update.takesAway then { update with phase := .checking } else update

/-- `updateUser` up to the lock of the row and the roles. -/
def State.beginUpdate (directory : List Role) (state : State) (id : ℕ) (input : UpdateInput)
    (actor : Actor) : Except String State :=
  if superAdmin ∉ actor.roles then .error "Only a Super Admin can change users and roles"
  else if id = actor.sub ∧ ∃ status ∈ input.status, status ≠ .active then
    .error "You cannot disable or lock your own account"
  else
    match state.users.find? id with
    | none => .error "Administrator was not found"
    | some user =>
      match validateRoles? directory input.roleIds actor with
      | .error message => .error message
      | .ok roles => .ok { state with updates := updateOf user input roles :: state.updates }

/-- `assertAnotherActiveSuperAdmin` counts in committed rows, and the update goes on or fails. -/
def State.check (state : State) (update : Update) : State :=
  if ∃ user ∈ state.users.rows, user.id ≠ update.id ∧ user.isActiveSuper = true then
    { state with
      updates := { update with phase := .writing, seen := state.removals } ::
        state.updates.erase update }
  else { state with updates := state.updates.erase update }

/-- The row after the update.  An administrator who sets a status bars the user or lets it in. -/
def Update.apply (update : Update) (user : User) : User :=
  { user with
    password := update.password.getD user.password
    status := update.status.getD user.status
    failedLoginAttempts := if update.status = some .active then 0 else user.failedLoginAttempts
    lockedUntil := if update.status = some .active then none else user.lockedUntil
    roles := update.roles.getD user.roles
    barred :=
      match update.status with
      | none => user.barred
      | some status => decide (status ≠ .active) }

theorem Update.apply_id (update : Update) (user : User) : (update.apply user).id = user.id := rfl

def Session.revoke (id : ℕ) (session : Session) : Session :=
  if session.userId = id then { session with revoked := true } else session

/-- The end of an update: the row, its roles and its sessions are written. -/
def State.commit (state : State) (update : Update) : State :=
  { state with
    users := state.users.modify update.id update.apply update.apply_id
    sessions := state.sessions.map (Session.revoke update.id)
    updates := state.updates.erase update
    removals :=
      if update.takesAway = true ∧ update.currentStatus = .active then state.removals + 1
      else state.removals }

/-! ## `AdminAuthService` -/

def maxFailedAttempts : ℕ := 5

def lockLife : ℤ := 15 * 60000

/-- `login` with the right password assigns. -/
def User.loggedIn (user : User) : User :=
  { user with failedLoginAttempts := 0, lockedUntil := none, status := .active }

/-- `recordFailedLogin` assigns. -/
def User.failedLogin (user : User) (now : ℤ) : User :=
  if maxFailedAttempts ≤ user.failedLoginAttempts + 1 then
    { user with
      failedLoginAttempts := user.failedLoginAttempts + 1
      status := .locked
      lockedUntil := some (now + lockLife) }
  else { user with failedLoginAttempts := user.failedLoginAttempts + 1 }

/-- `login` up to its save. -/
def State.login (state : State) (id : ℕ) (password : String) (now : ℤ) : Except String State :=
  match state.users.find? id with
  | none => .error "Invalid admin credentials"
  | some user =>
    if user.status = .disabled then .error "Invalid admin credentials"
    else if ∃ lockedUntil ∈ user.lockedUntil, now < lockedUntil then
      .error "Admin account is temporarily locked"
    else
      .ok { state with
        logins :=
          { memory := if user.password = password then user.loggedIn else user.failedLogin now
            loadsPassword := true, opens := false, phase := .reloading } :: state.logins }

/-- `completeMfaLogin` up to its save. -/
def State.completeMfaLogin (state : State) (id : ℕ) (now : ℤ) : Except String State :=
  match state.users.find? id with
  | none => .error "Invalid admin credentials"
  | some user =>
    if user.status = .active then
      .ok { state with
        logins :=
          { memory := { user with
              failedLoginAttempts := 0, lockedUntil := none, lastLoginAt := some now }
            loadsPassword := false, opens := true, phase := .reloading } :: state.logins }
    else .error "Invalid admin credentials"

/-- The columns of the object in memory that differ from the reloaded row. -/
def Login.patch (login : Login) (row : User) : Patch where
  password :=
    if login.loadsPassword then written? login.memory.password row.password else none
  status := written? login.memory.status row.status
  failedLoginAttempts := written? login.memory.failedLoginAttempts row.failedLoginAttempts
  lockedUntil := written? login.memory.lockedUntil row.lockedUntil
  lastLoginAt := written? login.memory.lastLoginAt row.lastLoginAt

def Patch.apply (patch : Patch) (user : User) : User :=
  { user with
    password := patch.password.getD user.password
    status := patch.status.getD user.status
    failedLoginAttempts := patch.failedLoginAttempts.getD user.failedLoginAttempts
    lockedUntil := patch.lockedUntil.getD user.lockedUntil
    lastLoginAt := patch.lastLoginAt.getD user.lastLoginAt }

theorem Patch.apply_id (patch : Patch) (user : User) : (patch.apply user).id = user.id := rfl

/-- A call goes on in another phase. -/
def State.goOn (state : State) (login : Login) (phase : LoginPhase) : State :=
  { state with logins := { login with phase } :: state.logins.erase login }

/-- The next step of a call: the save reloads the row and writes what differs, and a session is
opened after it if the second factor was given. -/
def State.advance (state : State) (login : Login) : State :=
  match login.phase with
  | .reloading =>
    match state.users.find? login.memory.id with
    | none => { state with logins := state.logins.erase login }
    | some row => state.goOn login (.writing (login.patch row))
  | .writing patch =>
    let written :=
      { state with users := state.users.modify login.memory.id patch.apply patch.apply_id }
    if login.opens then written.goOn login .opening
    else { written with logins := state.logins.erase login }
  | .opening =>
    { state with
      sessions :=
        { userId := login.memory.id, revoked := false
          barred := (state.users.find? login.memory.id).any (·.barred) } :: state.sessions
      logins := state.logins.erase login }

/-! ## Steps -/

inductive Event
  | createUser (password : String) (roleIds : List String) (actor : Actor)
  | beginUpdate (id : ℕ) (input : UpdateInput) (actor : Actor)
  | check (update : Update)
  | commit (update : Update)
  | login (id : ℕ) (password : String) (now : ℤ)
  | completeMfaLogin (id : ℕ) (now : ℤ)
  | advance (login : Login)

def State.Locked (state : State) (id : ℕ) : Prop := ∃ update ∈ state.updates, update.id = id

instance (state : State) (id : ℕ) : Decidable (state.Locked id) :=
  inferInstanceAs (Decidable (∃ update ∈ state.updates, update.id = id))

/-- One statement or call.  What fails leaves the state as it was, and what needs the lock of a
user waits for it. -/
def step (directory : List Role) (state : State) : Event → Option State
  | .createUser password roleIds actor =>
    (state.createUser directory password roleIds actor).toOption
  | .beginUpdate id input actor =>
    if state.Locked id then none else (state.beginUpdate directory id input actor).toOption
  | .check update =>
    if update ∈ state.updates ∧ update.phase = .checking then some (state.check update) else none
  | .commit update =>
    if update ∈ state.updates ∧ update.phase = .writing then some (state.commit update) else none
  | .login id password now => (state.login id password now).toOption
  | .completeMfaLogin id now => (state.completeMfaLogin id now).toOption
  | .advance login =>
    if login ∈ state.logins ∧ (login.isWriting = true → ¬ state.Locked login.memory.id) then
      some (state.advance login)
    else none

/-! ## What administrators rely on -/

def State.HasSuper (state : State) : Prop :=
  ∃ user ∈ state.users.rows, user.isActiveSuper = true

instance (state : State) : Decidable state.HasSuper :=
  inferInstanceAs (Decidable (∃ user ∈ state.users.rows, user.isActiveSuper = true))

/-- A barred user is not active, and no session was opened for a barred user. -/
structure State.KeepsOut (state : State) : Prop where
  inactive : ∀ user ∈ state.users.rows, user.barred = true → user.status ≠ .active
  shut : ∀ session ∈ state.sessions, session.barred = false

/-- Nothing is under way, and who is barred is out. -/
structure State.Opening (state : State) : Prop where
  updates : state.updates = []
  logins : state.logins = []
  keepsOut : state.KeepsOut

end Finify.Admin.Users
