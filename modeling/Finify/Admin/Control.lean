/-
# Administrators stay in control

The check that another active Super Admin remains counts rows that it does not
lock, and a login saves a user that it read before.  While no two updates take
Super Admins away side by side there is always one; and while nobody who is barred
has a login under way, nor a right password that is tried, whoever is barred stays
out.
-/

import Finify.Admin.Users

namespace Finify.Admin.Users

open Foundations
open Sessions (UserStatus)

/-- Only `createUser` and `updateUser` run. -/
def Event.IsAccess : Event → Prop
  | .createUser _ _ _ | .beginUpdate _ _ _ | .check _ | .commit _ => True
  | .login _ _ _ | .completeMfaLogin _ _ | .advance _ => False

/-- No active Super Admin was taken away between the count of an update that takes one away and
its end. -/
def KeepsSuper (state : State) : Event → Prop
  | .commit update =>
    update.takesAway = true → update.currentStatus = .active → update.seen = state.removals
  | _ => True

/-- Administrators and their updates alone, never two side by side that take a Super Admin
away. -/
def Steady (state : State) (event : Event) : Prop := event.IsAccess ∧ KeepsSuper state event

/-- A call that will make its user active or open a session for it. -/
def Login.Threatens (login : Login) : Prop :=
  login.opens = true ∨
    match login.phase with
    | .reloading => login.memory.status = .active
    | .writing patch => patch.status = some .active
    | .opening => True

/-- An update that bars a user ends while no call threatens to let it in, and the right password
of a user whom an administrator has locked is not tried once no temporary lock is left. -/
def KeepsBarred (state : State) : Event → Prop
  | .commit update =>
    (∃ status ∈ update.status, status ≠ .active) →
      ∀ login ∈ state.logins, login.memory.id = update.id → ¬ login.Threatens
  | .login id password now =>
    ∀ user ∈ state.users.find? id, user.barred = true → user.status = .locked →
      (∀ lockedUntil ∈ user.lockedUntil, ¬ now < lockedUntil) → user.password ≠ password
  | _ => True

section

variable {directory : List Role} {state : State} {update : Update} {login : Login}

/-! ## Super Admins -/

/-- Another user than one with the identifier is an active Super Admin. -/
def State.OtherSuper (state : State) (id : ℕ) : Prop :=
  ∃ user ∈ state.users.rows, user.id ≠ id ∧ user.isActiveSuper = true

/-- Updates hold one lock each, know the status and the roles of their user, and one that has
counted another Super Admin still has one if none was taken away since. -/
structure State.Guarded (state : State) : Prop where
  apart : (state.updates.map Update.id).Nodup
  present : ∀ update ∈ state.updates, ∃ user ∈ state.users.rows, user.id = update.id
  known : ∀ update ∈ state.updates, ∀ user ∈ state.users.rows, user.id = update.id →
    user.status = update.currentStatus ∧ hasSuper user.roles = update.currentIsSuper
  seen : ∀ update ∈ state.updates, update.seen ≤ state.removals
  counted : ∀ update ∈ state.updates, update.phase = .writing → update.takesAway = true →
    update.seen = state.removals → state.OtherSuper update.id

/-- What another step leaves of the updates that stay under way. -/
theorem State.Guarded.of_subset (hguarded : state.Guarded) {updates : List Update}
    (hsublist : updates.Sublist state.updates) : State.Guarded { state with updates } where
  apart := hguarded.apart.sublist (hsublist.map _)
  present other hother := hguarded.present other (hsublist.subset hother)
  known other hother := hguarded.known other (hsublist.subset hother)
  seen other hother := hguarded.seen other (hsublist.subset hother)
  counted other hother := hguarded.counted other (hsublist.subset hother)

theorem State.createUser_eq_ok {password : String} {roleIds : List String} {actor : Actor}
    {after : State} (hok : state.createUser directory password roleIds actor = .ok after) :
    ∃ roles, after = { state with
      users := state.users.append (newUser password roles) (newUser_id password roles) } := by
  simp only [State.createUser] at hok
  split at hok
  next => cases hok
  next =>
    split at hok
    next => cases hok
    next roles _ => exact ⟨roles, (Except.ok.inj hok).symm⟩

theorem State.beginUpdate_eq_ok {id : ℕ} {input : UpdateInput} {actor : Actor} {after : State}
    (hok : state.beginUpdate directory id input actor = .ok after) :
    ∃ user roles, state.users.find? id = some user ∧
      after = { state with updates := updateOf user input roles :: state.updates } := by
  simp only [State.beginUpdate] at hok
  split at hok
  next => cases hok
  next =>
    split at hok
    next => cases hok
    next =>
      split at hok
      next => cases hok
      next user hfind =>
        split at hok
        next => cases hok
        next roles _ => exact ⟨user, roles, hfind, (Except.ok.inj hok).symm⟩

/-- A new update knows its user; one that takes a Super Admin away has to count first. -/
theorem updateOf_facts (user : User) (input : UpdateInput) (roles : Option (List Role)) :
    (updateOf user input roles).id = user.id ∧
      (updateOf user input roles).currentStatus = user.status ∧
      (updateOf user input roles).currentIsSuper = hasSuper user.roles ∧
      (updateOf user input roles).seen = 0 ∧
      ((updateOf user input roles).phase = .writing →
        (updateOf user input roles).takesAway = false) := by
  simp only [updateOf]
  split
  next => exact ⟨rfl, rfl, rfl, rfl, fun hphase => by cases hphase⟩
  next hkeeps => exact ⟨rfl, rfl, rfl, rfl, fun _ => Bool.eq_false_iff.mpr hkeeps⟩

/-- An update that takes nothing away leaves an active Super Admin one. -/
theorem Update.keeps_super {user : User} (hkeeps : update.takesAway = false)
    (hroles : hasSuper user.roles = update.currentIsSuper)
    (hstatus : user.status = update.currentStatus) (hsuper : user.isActiveSuper = true) :
    (update.apply user).isActiveSuper = true := by
  simp only [User.isActiveSuper, Bool.and_eq_true, decide_eq_true_eq] at hsuper
  obtain ⟨hactive, his⟩ := hsuper
  rw [hroles] at his
  simp only [Update.takesAway, his, Bool.true_and, Bool.or_eq_false_iff,
    Bool.not_eq_false'] at hkeeps
  obtain ⟨hnext, hnextActive⟩ := hkeeps
  simp only [User.isActiveSuper, Bool.and_eq_true, decide_eq_true_eq]
  constructor
  · simpa [Update.nextActive, Update.apply, hstatus] using hnextActive
  · cases hnew : update.roles with
    | none => simpa [Update.apply, hnew, hroles] using his
    | some roles => simpa [Update.nextIsSuper, Update.apply, hnew] using hnext

/-- The row that an update leaves of a row. -/
theorem mem_commit {user : User} :
    user ∈ (state.commit update).users.rows ↔
      ∃ old ∈ state.users.rows, user = if old.id = update.id then update.apply old else old :=
  @Log.mem_modify User (fun user => user.id) state.users update.id update.apply update.apply_id user

/-- Unless the update takes an active Super Admin away, active Super Admins stay what they are. -/
theorem State.Guarded.keeps (hguarded : state.Guarded) (hmem : update ∈ state.updates)
    (hkeeps : ¬ (update.takesAway = true ∧ update.currentStatus = .active)) {user : User}
    (huser : user ∈ state.users.rows) (hsuper : user.isActiveSuper = true) :
    ∃ later ∈ (state.commit update).users.rows, later.id = user.id ∧
      later.isActiveSuper = true := by
  refine ⟨_, mem_commit.mpr ⟨user, huser, rfl⟩, ?_⟩
  split
  next hid =>
    obtain ⟨hstatus, hroles⟩ := hguarded.known update hmem user huser hid
    have hactive : user.status = .active := by
      simp only [User.isActiveSuper, Bool.and_eq_true, decide_eq_true_eq] at hsuper
      exact hsuper.1
    have hnot : update.takesAway = false := by
      by_contra htakes
      exact hkeeps ⟨by simpa using htakes, hstatus ▸ hactive⟩
    exact ⟨rfl, Update.keeps_super hnot hroles hstatus hsuper⟩
  next => exact ⟨rfl, hsuper⟩

/-- Rows of other users stay. -/
theorem OtherSuper.commit (hother : state.OtherSuper update.id) :
    (state.commit update).HasSuper := by
  obtain ⟨user, huser, hne, hsuper⟩ := hother
  exact ⟨user, mem_commit.mpr ⟨user, huser, by rw [if_neg hne]⟩, hsuper⟩

theorem State.Guarded.createUser (hguarded : state.Guarded) (password : String)
    (roles : List Role) :
    State.Guarded { state with
      users := state.users.append (newUser password roles) (newUser_id password roles) } := by
  constructor
  case apart => exact hguarded.apart
  case present =>
    intro update hupdate
    obtain ⟨user, huser, hid⟩ := hguarded.present update hupdate
    exact ⟨user, List.mem_append_left _ huser, hid⟩
  case known =>
    intro update hupdate user huser hid
    cases List.mem_append.mp huser with
    | inl hold => exact hguarded.known update hupdate user hold hid
    | inr hnew =>
      -- Whoever holds a lock has locked a row that was there.
      obtain ⟨locked, hlocked, hlockedId⟩ := hguarded.present update hupdate
      have hbelow := state.users.below locked hlocked
      rw [List.mem_singleton.mp hnew, newUser_id] at hid
      omega
  case seen => exact hguarded.seen
  case counted =>
    intro update hupdate hwriting htakes hseen
    obtain ⟨user, huser, hne, hsuper⟩ := hguarded.counted update hupdate hwriting htakes hseen
    exact ⟨user, List.mem_append_left _ huser, hne, hsuper⟩

theorem State.Guarded.beginUpdate (hguarded : state.Guarded) {user : User}
    (huser : user ∈ state.users.rows) (hfree : ¬ state.Locked user.id) (input : UpdateInput)
    (roles : Option (List Role)) :
    State.Guarded { state with updates := updateOf user input roles :: state.updates } := by
  obtain ⟨hid, hstatus, hsuper, hseen, hcounts⟩ := updateOf_facts user input roles
  constructor
  case apart =>
    refine List.nodup_cons.mpr ⟨?_, hguarded.apart⟩
    intro hlocked
    obtain ⟨other, hother, hsame⟩ := List.mem_map.mp hlocked
    exact hfree ⟨other, hother, hsame.trans hid⟩
  case present =>
    intro update hupdate
    cases List.mem_cons.mp hupdate with
    | inl hnew => exact ⟨user, huser, hnew ▸ hid.symm⟩
    | inr hold => exact hguarded.present update hold
  case known =>
    intro update hupdate other hother hsame
    cases List.mem_cons.mp hupdate with
    | inl hnew =>
      subst hnew
      cases state.users.eq_of_serial_eq hother huser (hsame.trans hid)
      exact ⟨hstatus.symm, hsuper.symm⟩
    | inr hold => exact hguarded.known update hold other hother hsame
  case seen =>
    intro update hupdate
    cases List.mem_cons.mp hupdate with
    | inl hnew =>
      rw [hnew, hseen]
      exact Nat.zero_le _
    | inr hold => exact hguarded.seen update hold
  case counted =>
    intro update hupdate hwriting htakes
    cases List.mem_cons.mp hupdate with
    | inl hnew =>
      subst hnew
      rw [hcounts hwriting] at htakes
      cases htakes
    | inr hold => exact hguarded.counted update hold hwriting htakes

/-- An update that has found another active Super Admin goes on. -/
theorem State.Guarded.check (hguarded : state.Guarded) (hmem : update ∈ state.updates) :
    (state.check update).Guarded := by
  have hrest := hguarded.of_subset (state.updates.erase_sublist (a := update))
  rw [State.check]
  split
  case isFalse => exact hrest
  case isTrue hother =>
    have hcases : ∀ other, other ∈ { update with phase := .writing, seen := state.removals } ::
        state.updates.erase update →
        other = { update with phase := .writing, seen := state.removals } ∨
          other ∈ state.updates.erase update := fun other hmem => List.mem_cons.mp hmem
    constructor
    case apart =>
      exact ((List.perm_cons_erase hmem).map Update.id).nodup_iff.mp hguarded.apart
    case present =>
      intro other hmem'
      cases hcases other hmem' with
      | inl hnew =>
        subst hnew
        exact hguarded.present update hmem
      | inr hold => exact hrest.present other hold
    case known =>
      intro other hmem'
      cases hcases other hmem' with
      | inl hnew =>
        subst hnew
        exact hguarded.known update hmem
      | inr hold => exact hrest.known other hold
    case seen =>
      intro other hmem'
      cases hcases other hmem' with
      | inl hnew =>
        subst hnew
        exact Nat.le_refl _
      | inr hold => exact hrest.seen other hold
    case counted =>
      intro other hmem' hwriting htakes hseen
      cases hcases other hmem' with
      | inl hnew =>
        subst hnew
        exact hother
      | inr hold => exact hrest.counted other hold hwriting htakes hseen

/-- What the end of an update leaves of the others: their users are not its user. -/
theorem State.Guarded.commit (hguarded : state.Guarded) (hmem : update ∈ state.updates) :
    (state.commit update).Guarded := by
  have hne : ∀ other ∈ state.updates.erase update, other.id ≠ update.id := by
    intro other hother hsame
    have hnodup := ((List.perm_cons_erase hmem).map Update.id).nodup_iff.mp hguarded.apart
    exact (List.nodup_cons.mp hnodup).1 (hsame ▸ List.mem_map_of_mem hother)
  have hsubset : ∀ other ∈ state.updates.erase update, other ∈ state.updates :=
    fun other hother => List.mem_of_mem_erase hother
  constructor
  case apart => exact hguarded.apart.sublist (List.erase_sublist.map _)
  case present =>
    intro other hother
    obtain ⟨user, huser, hid⟩ := hguarded.present other (hsubset other hother)
    exact ⟨user, mem_commit.mpr ⟨user, huser, by rw [if_neg (hid ▸ hne other hother)]⟩, hid⟩
  case known =>
    intro other hother user huser hid
    obtain ⟨old, hold, heq⟩ := mem_commit.mp huser
    by_cases hupdated : old.id = update.id
    · rw [if_pos hupdated] at heq
      rw [heq, Update.apply_id, hupdated] at hid
      exact absurd hid.symm (hne other hother)
    · rw [if_neg hupdated] at heq
      exact hguarded.known other (hsubset other hother) user (heq ▸ hold) hid
  case seen =>
    intro other hother
    have hbefore := hguarded.seen other (hsubset other hother)
    show other.seen ≤ if _ then _ else _
    split
    next => exact hbefore.trans (Nat.le_succ _)
    next => exact hbefore
  case counted =>
    intro other hother hwriting htakes hseen
    have hbefore := hguarded.seen other (hsubset other hother)
    by_cases hremoves : update.takesAway = true ∧ update.currentStatus = .active
    · have hremovals : (state.commit update).removals = state.removals + 1 := if_pos hremoves
      omega
    · have hremovals : (state.commit update).removals = state.removals := if_neg hremoves
      obtain ⟨user, huser, hother', hsuper⟩ := hguarded.counted other (hsubset other hother)
        hwriting htakes (hseen.trans hremovals)
      obtain ⟨later, hlater, hid, hstill⟩ := hguarded.keeps hmem hremoves huser hsuper
      exact ⟨later, hlater, hid ▸ hother', hstill⟩

/-- One step of the administrators keeps what is known of the updates. -/
theorem State.Guarded.step (hguarded : state.Guarded) {event : Event} {after : State}
    (haccess : event.IsAccess) (hstep : step directory state event = some after) :
    after.Guarded := by
  cases event with
  | createUser password roleIds actor =>
    obtain ⟨roles, rfl⟩ := State.createUser_eq_ok (ok_of_toOption hstep)
    exact hguarded.createUser password roles
  | beginUpdate id input actor =>
    obtain ⟨hfree, hbegun⟩ := (Option.ite_none_left_eq_some).mp hstep
    obtain ⟨user, roles, hfind, rfl⟩ := State.beginUpdate_eq_ok (ok_of_toOption hbegun)
    obtain ⟨huser, rfl⟩ := Log.find?_eq_some.mp hfind
    exact hguarded.beginUpdate huser hfree input roles
  | check update =>
    obtain ⟨⟨hmem, _⟩, hafter⟩ := (Option.ite_none_right_eq_some).mp hstep
    exact Option.some.inj hafter ▸ hguarded.check hmem
  | commit update =>
    obtain ⟨⟨hmem, _⟩, hafter⟩ := (Option.ite_none_right_eq_some).mp hstep
    exact Option.some.inj hafter ▸ hguarded.commit hmem
  | login id password now => cases haccess
  | completeMfaLogin id now => cases haccess
  | advance login => cases haccess

/-- One steady step leaves an active Super Admin if there was one. -/
theorem State.HasSuper.step (hsuper : state.HasSuper) (hguarded : state.Guarded) {event : Event}
    {after : State} (hsteady : Steady state event)
    (hstep : Users.step directory state event = some after) : after.HasSuper := by
  obtain ⟨user, huser, hactive⟩ := hsuper
  cases event with
  | createUser password roleIds actor =>
    obtain ⟨roles, rfl⟩ := State.createUser_eq_ok (ok_of_toOption hstep)
    exact ⟨user, List.mem_append_left _ huser, hactive⟩
  | beginUpdate id input actor =>
    obtain ⟨_, hbegun⟩ := (Option.ite_none_left_eq_some).mp hstep
    obtain ⟨_, _, _, rfl⟩ := State.beginUpdate_eq_ok (ok_of_toOption hbegun)
    exact ⟨user, huser, hactive⟩
  | check update =>
    obtain ⟨_, hafter⟩ := (Option.ite_none_right_eq_some).mp hstep
    have husers : (state.check update).users = state.users := by
      rw [State.check]
      split <;> rfl
    exact Option.some.inj hafter ▸ ⟨user, husers ▸ huser, hactive⟩
  | commit update =>
    obtain ⟨⟨hmem, hwriting⟩, hafter⟩ := (Option.ite_none_right_eq_some).mp hstep
    rw [← Option.some.inj hafter]
    by_cases hremoves : update.takesAway = true ∧ update.currentStatus = .active
    · have hseen := hsteady.2 hremoves.1 hremoves.2
      exact OtherSuper.commit (hguarded.counted update hmem hwriting hremoves.1 hseen)
    · obtain ⟨later, hlater, _, hstill⟩ := hguarded.keeps hmem hremoves huser hactive
      exact ⟨later, hlater, hstill⟩
  | login id password now => cases hsteady.1
  | completeMfaLogin id now => cases hsteady.1
  | advance login => cases hsteady.1

/-! ## Barred users -/

/-- Whoever is barred is out, and no call under way will let a barred user in. -/
structure State.Sealed (state : State) : Prop where
  keepsOut : state.KeepsOut
  harmless : ∀ user ∈ state.users.rows, user.barred = true →
    ∀ login ∈ state.logins, login.memory.id = user.id → ¬ login.Threatens

theorem State.Sealed.createUser (hsealed : state.Sealed) (password : String)
    (roles : List Role) :
    State.Sealed { state with
      users := state.users.append (newUser password roles) (newUser_id password roles) } := by
  have hcases : ∀ user ∈ state.users.rows ++ [newUser password roles state.users.next],
      user.barred = true → user ∈ state.users.rows := by
    intro user huser hbarred
    cases List.mem_append.mp huser with
    | inl hold => exact hold
    | inr hnew =>
      rw [List.mem_singleton.mp hnew] at hbarred
      cases hbarred
  constructor
  case keepsOut =>
    constructor
    case inactive =>
      intro user huser hbarred
      exact hsealed.keepsOut.inactive user (hcases user huser hbarred) hbarred
    case shut => exact hsealed.keepsOut.shut
  case harmless =>
    intro user huser hbarred
    exact hsealed.harmless user (hcases user huser hbarred) hbarred

/-- The end of an update, when no call threatens to let in whom it bars. -/
theorem State.Sealed.commit (hsealed : state.Sealed)
    (hquiet : (∃ status ∈ update.status, status ≠ .active) →
      ∀ login ∈ state.logins, login.memory.id = update.id → ¬ login.Threatens) :
    (state.commit update).Sealed := by
  constructor
  case keepsOut =>
    constructor
    case inactive =>
      intro user huser hbarred
      obtain ⟨old, hold, heq⟩ := mem_commit.mp huser
      by_cases hid : old.id = update.id
      · rw [if_pos hid] at heq
        rw [heq] at hbarred ⊢
        cases hstatus : update.status with
        | none =>
          simp only [Update.apply, hstatus, Option.getD_none] at hbarred ⊢
          exact hsealed.keepsOut.inactive old hold hbarred
        | some status =>
          simp only [Update.apply, hstatus, Option.getD_some] at hbarred ⊢
          exact of_decide_eq_true hbarred
      · rw [if_neg hid] at heq
        exact hsealed.keepsOut.inactive user (heq ▸ hold) hbarred
    case shut =>
      intro session hsession
      obtain ⟨old, hold, rfl⟩ := List.mem_map.mp hsession
      rw [Session.revoke]
      split
      next => exact hsealed.keepsOut.shut old hold
      next => exact hsealed.keepsOut.shut old hold
  case harmless =>
    intro user huser hbarred login hlogin hsame
    obtain ⟨old, hold, heq⟩ := mem_commit.mp huser
    by_cases hid : old.id = update.id
    · rw [if_pos hid] at heq
      rw [heq] at hbarred hsame
      cases hstatus : update.status with
      | none =>
        simp only [Update.apply, hstatus] at hbarred
        exact hsealed.harmless old hold hbarred login hlogin hsame
      | some status =>
        simp only [Update.apply, hstatus] at hbarred
        exact hquiet ⟨status, hstatus, of_decide_eq_true hbarred⟩ login hlogin
          (hsame.trans hid)
    · rw [if_neg hid] at heq
      exact hsealed.harmless user (heq ▸ hold) hbarred login hlogin hsame

/-- A new call that does not threaten a barred user. -/
theorem State.Sealed.begin (hsealed : state.Sealed)
    (hnew : ∀ user ∈ state.users.rows, user.barred = true → login.memory.id = user.id →
      ¬ login.Threatens) :
    State.Sealed { state with logins := login :: state.logins } where
  keepsOut := ⟨hsealed.keepsOut.inactive, hsealed.keepsOut.shut⟩
  harmless user huser hbarred other hother hsame := by
    cases List.mem_cons.mp hother with
    | inl heq =>
      subst heq
      exact hnew user huser hbarred hsame
    | inr hold => exact hsealed.harmless user huser hbarred other hold hsame

theorem State.Sealed.erase (hsealed : state.Sealed) (login : Login) :
    State.Sealed { state with logins := state.logins.erase login } where
  keepsOut := ⟨hsealed.keepsOut.inactive, hsealed.keepsOut.shut⟩
  harmless user huser hbarred other hother :=
    hsealed.harmless user huser hbarred other (List.mem_of_mem_erase hother)

/-- A call that goes on threatens whom it threatened before. -/
theorem State.Sealed.goOn (hsealed : state.Sealed) {phase : LoginPhase}
    (hkeeps : ∀ user ∈ state.users.rows, user.barred = true → login.memory.id = user.id →
      ¬ Login.Threatens { login with phase }) :
    (state.goOn login phase).Sealed :=
  State.Sealed.begin (hsealed.erase login) hkeeps

/-- What a call writes leaves barred users inactive if it does not make them active. -/
theorem State.Sealed.write (hsealed : state.Sealed) {id : ℕ} {patch : Patch}
    (hpatch : ∀ user ∈ state.users.rows, user.barred = true → id = user.id →
      patch.status ≠ some .active) :
    State.Sealed { state with users := state.users.modify id patch.apply patch.apply_id } := by
  have hrows : ∀ user ∈ (state.users.modify id patch.apply patch.apply_id).rows,
      ∃ old ∈ state.users.rows, user.id = old.id ∧ user.barred = old.barred ∧
        (old.barred = true → user.status ≠ .active) := by
    intro user huser
    obtain ⟨old, hold, heq⟩ := Log.mem_modify.mp huser
    by_cases hid : old.id = id
    · rw [if_pos hid] at heq
      subst heq
      refine ⟨old, hold, rfl, rfl, ?_⟩
      intro hbarred
      have hnot := hpatch old hold hbarred hid.symm
      cases hstatus : patch.status with
      | none =>
        simp only [Patch.apply, hstatus, Option.getD_none]
        exact hsealed.keepsOut.inactive old hold hbarred
      | some status =>
        simp only [Patch.apply, hstatus, Option.getD_some]
        exact fun hactive => hnot (hstatus.trans (congrArg some hactive))
    · rw [if_neg hid] at heq
      subst heq
      exact ⟨user, hold, rfl, rfl, hsealed.keepsOut.inactive user hold⟩
  constructor
  case keepsOut =>
    constructor
    case inactive =>
      intro user huser hbarred
      obtain ⟨old, _, _, hsame, hinactive⟩ := hrows user huser
      exact hinactive (hsame ▸ hbarred)
    case shut => exact hsealed.keepsOut.shut
  case harmless =>
    intro user huser hbarred login hlogin hsame
    obtain ⟨old, hold, hid, hsameBarred, _⟩ := hrows user huser
    exact hsealed.harmless old hold (hsameBarred ▸ hbarred) login hlogin (hsame.trans hid)

/-- The patch of a call makes its user active only if the call threatens. -/
theorem Login.patch_threatens {row : User} (hphase : login.phase = .reloading)
    (hactive : (login.patch row).status = some .active) : login.Threatens := by
  refine .inr ?_
  rw [hphase]
  exact written?_eq_some hactive

theorem State.Sealed.advance (hsealed : state.Sealed) (hmem : login ∈ state.logins) :
    (state.advance login).Sealed := by
  have hharmless : ∀ user ∈ state.users.rows, user.barred = true → login.memory.id = user.id →
      ¬ login.Threatens := fun user huser hbarred => hsealed.harmless user huser hbarred login hmem
  rw [State.advance]
  cases hphase : login.phase with
  | reloading =>
    dsimp only
    split
    next => exact hsealed.erase login
    next row _ =>
      apply hsealed.goOn
      intro user huser hbarred hid hthreat
      apply hharmless user huser hbarred hid
      cases hthreat with
      | inl hopens => exact .inl hopens
      | inr hactive => exact Login.patch_threatens hphase hactive
  | writing patch =>
    have hwritten : State.Sealed { state with
        users := state.users.modify login.memory.id patch.apply patch.apply_id } := by
      apply hsealed.write
      intro user huser hbarred hid hactive
      apply hharmless user huser hbarred hid
      refine .inr ?_
      rw [hphase]
      exact hactive
    dsimp only
    split
    next hopens =>
      apply hwritten.goOn
      intro user huser hbarred hid _
      exact hwritten.harmless user huser hbarred login hmem hid (.inl hopens)
    next => exact hwritten.erase login
  | opening =>
    have hnobody : (state.users.find? login.memory.id).any (·.barred) = false := by
      apply Bool.eq_false_iff.mpr
      intro hany
      obtain ⟨user, hfind, hbarred⟩ := (Option.any_eq_true _ _).mp hany
      obtain ⟨huser, hid⟩ := Log.find?_eq_some.mp hfind
      apply hharmless user huser hbarred hid.symm
      refine .inr ?_
      rw [hphase]
      trivial
    constructor
    case keepsOut =>
      constructor
      case inactive => exact hsealed.keepsOut.inactive
      case shut =>
        intro session hsession
        cases List.mem_cons.mp hsession with
        | inl hnew => exact hnew ▸ hnobody
        | inr hold => exact hsealed.keepsOut.shut session hold
    case harmless => exact (hsealed.erase login).harmless

theorem State.login_eq_ok {id : ℕ} {password : String} {now : ℤ} {after : State}
    (hok : state.login id password now = .ok after) :
    ∃ user, state.users.find? id = some user ∧ user.status ≠ .disabled ∧
      (∀ lockedUntil ∈ user.lockedUntil, ¬ now < lockedUntil) ∧
      after = { state with
        logins :=
          { memory := if user.password = password then user.loggedIn else user.failedLogin now
            loadsPassword := true, opens := false, phase := .reloading } :: state.logins } := by
  simp only [State.login] at hok
  split at hok
  next => cases hok
  next user hfind =>
    split at hok
    next => cases hok
    next henabled =>
      split at hok
      next => cases hok
      next hfree =>
        refine ⟨user, hfind, henabled, ?_, (Except.ok.inj hok).symm⟩
        exact fun lockedUntil hlocked hnow => hfree ⟨lockedUntil, hlocked, hnow⟩

theorem State.completeMfaLogin_eq_ok {id : ℕ} {now : ℤ} {after : State}
    (hok : state.completeMfaLogin id now = .ok after) :
    ∃ user, state.users.find? id = some user ∧ user.status = .active ∧
      after = { state with
        logins :=
          { memory := { user with
              failedLoginAttempts := 0, lockedUntil := none, lastLoginAt := some now }
            loadsPassword := false, opens := true, phase := .reloading } :: state.logins } := by
  simp only [State.completeMfaLogin] at hok
  split at hok
  next => cases hok
  next user hfind =>
    split at hok
    next hactive => exact ⟨user, hfind, hactive, (Except.ok.inj hok).symm⟩
    next => cases hok

/-- A wrong password does not make a user active. -/
theorem User.failedLogin_inactive {user : User} (now : ℤ) (hinactive : user.status ≠ .active) :
    (user.failedLogin now).status ≠ .active := by
  rw [User.failedLogin]
  split
  next =>
    intro hactive
    cases hactive
  next => exact hinactive

theorem State.Sealed.step (hsealed : state.Sealed) {event : Event} {after : State}
    (hkeeps : KeepsBarred state event) (hstep : Users.step directory state event = some after) :
    after.Sealed := by
  cases event with
  | createUser password roleIds actor =>
    obtain ⟨roles, rfl⟩ := State.createUser_eq_ok (ok_of_toOption hstep)
    exact hsealed.createUser password roles
  | beginUpdate id input actor =>
    obtain ⟨_, hbegun⟩ := (Option.ite_none_left_eq_some).mp hstep
    obtain ⟨_, _, _, rfl⟩ := State.beginUpdate_eq_ok (ok_of_toOption hbegun)
    exact ⟨⟨hsealed.keepsOut.inactive, hsealed.keepsOut.shut⟩, hsealed.harmless⟩
  | check update =>
    obtain ⟨_, hafter⟩ := (Option.ite_none_right_eq_some).mp hstep
    rw [← Option.some.inj hafter, State.check]
    split
    next => exact ⟨⟨hsealed.keepsOut.inactive, hsealed.keepsOut.shut⟩, hsealed.harmless⟩
    next => exact ⟨⟨hsealed.keepsOut.inactive, hsealed.keepsOut.shut⟩, hsealed.harmless⟩
  | commit update =>
    obtain ⟨_, hafter⟩ := (Option.ite_none_right_eq_some).mp hstep
    exact Option.some.inj hafter ▸ hsealed.commit hkeeps
  | login id password now =>
    obtain ⟨user, hfind, henabled, hfree, rfl⟩ := State.login_eq_ok (ok_of_toOption hstep)
    obtain ⟨huser, _⟩ := Log.find?_eq_some.mp hfind
    apply hsealed.begin
    intro other hother hbarred hid
    -- The object in memory is of the user that was read.
    have hmemory : (if user.password = password then user.loggedIn
        else user.failedLogin now).id = user.id := by
      rw [User.failedLogin]
      split
      next => rfl
      next => split <;> rfl
    cases state.users.eq_of_serial_eq hother huser (hid.symm.trans hmemory)
    have hinactive := hsealed.keepsOut.inactive user huser hbarred
    have hlocked : user.status = .locked := by
      cases hstatus : user.status with
      | active => exact absurd hstatus hinactive
      | locked => rfl
      | disabled => exact absurd hstatus henabled
    have hwrong := hkeeps user hfind hbarred hlocked hfree
    intro hthreat
    cases hthreat with
    | inl hopens => cases hopens
    | inr hactive =>
      rw [if_neg hwrong] at hactive
      exact User.failedLogin_inactive now hinactive hactive
  | completeMfaLogin id now =>
    obtain ⟨user, hfind, hactive, rfl⟩ :=
      State.completeMfaLogin_eq_ok (ok_of_toOption hstep)
    obtain ⟨huser, _⟩ := Log.find?_eq_some.mp hfind
    apply hsealed.begin
    intro other hother hbarred hid
    cases state.users.eq_of_serial_eq hother huser hid.symm
    exact absurd hactive (hsealed.keepsOut.inactive user huser hbarred)
  | advance login =>
    obtain ⟨⟨hmem, _⟩, hafter⟩ := (Option.ite_none_right_eq_some).mp hstep
    exact Option.some.inj hafter ▸ hsealed.advance hmem

/-! ## Runs -/

theorem State.Opening.guarded (hopening : state.Opening) : state.Guarded := by
  constructor
  case apart =>
    rw [hopening.updates]
    exact List.nodup_nil
  case present => simp [hopening.updates]
  case known => simp [hopening.updates]
  case seen => simp [hopening.updates]
  case counted => simp [hopening.updates]

theorem State.Opening.sealed (hopening : state.Opening) : state.Sealed where
  keepsOut := hopening.keepsOut
  harmless := by simp [hopening.logins]

/-- While no two updates take a Super Admin away side by side, one stays once there is one; and
while no call threatens to let in whom an administrator bars, and the right password of a locked
one is not tried, whoever is barred stays inactive and gets no session. -/
theorem administrators_stay_in_control {start : State} (hopening : start.Opening) :
    (∀ middle later, ReachesUnder (step directory) Steady start middle → middle.HasSuper →
      ReachesUnder (step directory) Steady middle later → later.HasSuper) ∧
    ∀ state, ReachesUnder (step directory) KeepsBarred start state → state.KeepsOut := by
  constructor
  · intro middle later hbefore hsuper hafter
    have hguarded : middle.Guarded := hbefore.preserves State.Guarded
      (fun _ _ _ hguarded hsteady hstep => hguarded.step hsteady.1 hstep) hopening.guarded
    have hboth := hafter.preserves (fun state => state.Guarded ∧ state.HasSuper)
      (fun _ _ _ hinv hsteady hstep =>
        ⟨hinv.1.step hsteady.1 hstep, hinv.2.step hinv.1 hsteady hstep⟩) ⟨hguarded, hsuper⟩
    exact hboth.2
  · intro state hrun
    have hsealed : state.Sealed := hrun.preserves State.Sealed
      (fun _ _ _ hsealed hkeeps hstep => hsealed.step hkeeps hstep) hopening.sealed
    exact hsealed.keepsOut

instance (state : State) (event : Event) : Decidable (Steady state event) :=
  match event with
  | .createUser _ _ _ | .beginUpdate _ _ _ | .check _ => isTrue ⟨trivial, trivial⟩
  | .commit update =>
    inferInstanceAs (Decidable (True ∧
      (update.takesAway = true → update.currentStatus = .active →
        update.seen = state.removals)))
  | .login _ _ _ | .completeMfaLogin _ _ | .advance _ => isFalse fun hsteady => hsteady.1

instance (login : Login) : Decidable login.Threatens :=
  match hphase : login.phase with
  | .reloading =>
    decidable_of_iff (login.opens = true ∨ login.memory.status = .active)
      (by rw [Login.Threatens, hphase])
  | .writing patch =>
    decidable_of_iff (login.opens = true ∨ patch.status = some .active)
      (by rw [Login.Threatens, hphase])
  | .opening => isTrue (.inr (by rw [hphase]; trivial))

instance (state : State) (event : Event) : Decidable (KeepsBarred state event) :=
  match event with
  | .commit update =>
    inferInstanceAs (Decidable ((∃ status ∈ update.status, status ≠ .active) →
      ∀ login ∈ state.logins, login.memory.id = update.id → ¬ login.Threatens))
  | .login id password now =>
    inferInstanceAs (Decidable (∀ user ∈ state.users.find? id, user.barred = true →
      user.status = .locked → (∀ lockedUntil ∈ user.lockedUntil, ¬ now < lockedUntil) →
        user.password ≠ password))
  | .createUser _ _ _ | .beginUpdate _ _ _ | .check _ | .completeMfaLogin _ _ | .advance _ =>
    isTrue trivial

end

/-! ## Two Super Admins and an analyst -/

def superRole : Role := { id := "1", code := superAdmin }

def analystRole : Role := { id := "2", code := "analyst" }

def office : State where
  users := ((Log.empty.append (newUser "a" [superRole]) (newUser_id "a" [superRole])).append
    (newUser "b" [superRole]) (newUser_id "b" [superRole])).append
      (newUser "c" [analystRole]) (newUser_id "c" [analystRole])

theorem office_opening : office.Opening where
  updates := rfl
  logins := rfl
  keepsOut := ⟨by decide, by decide⟩

def officeStep : State → Event → Option State := step [superRole, analystRole]

/-- An update that disables a Super Admin, before and after it has counted. -/
def disabling (id : ℕ) (phase : UpdatePhase) : Update where
  id := id
  status := some .disabled
  password := none
  roles := none
  currentStatus := .active
  currentIsSuper := true
  phase := phase
  seen := 0

/-- A Super Admin begins to disable another. -/
def beginsDisabling (actor id : ℕ) : Event :=
  .beginUpdate id { status := some .disabled } { sub := actor, roles := [superAdmin] }

/-- A Super Admin sets the status of the analyst. -/
def bars (status : UserStatus) : List Event :=
  [.beginUpdate 3 { status := some status } { sub := 1, roles := [superAdmin] },
    .commit { disabling 3 .writing with status := some status, currentIsSuper := false }]

def analyst : User := newUser "c" [analystRole] 3

/-- A login whose save makes its user active again. -/
def letsIn (memory : User) (opens : Bool) : List Event :=
  let login : Login :=
    { memory := memory, loadsPassword := !opens, opens := opens, phase := .reloading }
  let patch : Patch :=
    { password := none, status := some .active, failedLoginAttempts := none
      lockedUntil := none, lastLoginAt := memory.lastLoginAt.map some }
  [.advance login, .advance { login with phase := .writing patch }] ++
    if opens then [.advance { login with phase := .opening }] else []

/-- One Super Admin disables the other and bars the analyst, whose wrong password is then
refused. -/
theorem administrators_stay_in_control_alone :
    (∃ later, ReachesUnder officeStep Steady office later ∧
      (later.users.rows.map User.isActiveSuper) = [true, false, false] ∧ later.HasSuper) ∧
    ∃ later, ReachesUnder officeStep KeepsBarred office later ∧
      (later.users.rows.map fun user => (user.barred, user.failedLoginAttempts)) =
        [(false, 0), (true, 0), (true, 0)] ∧ later.logins.length = 1 ∧ later.KeepsOut := by
  constructor
  · have hany : (runInputs (guardedStep officeStep Steady) office
        ([beginsDisabling 1 2, .check (disabling 2 .checking), .commit (disabling 2 .writing)] ++
          bars .locked)).any (fun later =>
            decide (later.users.rows.map User.isActiveSuper = [true, false, false])) := by
      decide
    obtain ⟨later, hrun, hfacts⟩ := (Option.any_eq_true _ _).mp hany
    have hreaches : ReachesUnder officeStep Steady office later := (Reaches.of_runInputs hrun).under
    have hsuper : office.HasSuper := by decide
    exact ⟨later, hreaches, of_decide_eq_true hfacts,
      (administrators_stay_in_control office_opening).1 office later .refl hsuper hreaches⟩
  · have hany : (runInputs (guardedStep officeStep KeepsBarred) office
        ([beginsDisabling 1 2, .check (disabling 2 .checking), .commit (disabling 2 .writing)] ++
          bars .locked ++ [.login 3 "wrong" 0])).any (fun later =>
            decide ((later.users.rows.map fun user => (user.barred, user.failedLoginAttempts)) =
              [(false, 0), (true, 0), (true, 0)] ∧ later.logins.length = 1)) := by
      decide
    obtain ⟨later, hrun, hfacts⟩ := (Option.any_eq_true _ _).mp hany
    have hreaches : ReachesUnder officeStep KeepsBarred office later :=
      (Reaches.of_runInputs hrun).under
    obtain ⟨hrows, hlogins⟩ := of_decide_eq_true hfacts
    exact ⟨later, hreaches, hrows, hlogins,
      (administrators_stay_in_control office_opening).2 later hreaches⟩

/-- Two Super Admins disable each other; a locked analyst comes back with the right password; and
a disabled one with a login that had read the account before. -/
theorem administrators_lose_control :
    (∃ later, ReachesUnder officeStep (fun _ event => event.IsAccess) office later ∧
      office.HasSuper ∧ ¬ later.HasSuper) ∧
    (∃ later, Reaches officeStep office later ∧
      ∃ user ∈ later.users.rows, user.barred = true ∧ user.status = .active) ∧
    ∃ later, Reaches officeStep office later ∧
      ∃ session ∈ later.sessions, session.barred = true := by
  refine ⟨?_, ?_, ?_⟩
  · have hany : (runInputs officeStep office
        [beginsDisabling 2 1, beginsDisabling 1 2, .check (disabling 1 .checking),
          .check (disabling 2 .checking), .commit (disabling 1 .writing),
          .commit (disabling 2 .writing)]).any (fun later => decide (¬ later.HasSuper)) := by
      decide
    obtain ⟨later, hrun, hfacts⟩ := (Option.any_eq_true _ _).mp hany
    refine ⟨later, .of_runInputs ?_ hrun, by decide, of_decide_eq_true hfacts⟩
    intro event hevent _
    simp only [List.mem_cons, List.not_mem_nil, or_false] at hevent
    rcases hevent with rfl | rfl | rfl | rfl | rfl | rfl <;> trivial
  · have hany : (runInputs officeStep office
        (bars .locked ++ [.login 3 "c" 0] ++ letsIn { analyst with barred := true } false)).any
          (fun later =>
            decide (∃ user ∈ later.users.rows, user.barred = true ∧ user.status = .active)) := by
      decide
    obtain ⟨later, hrun, hfacts⟩ := (Option.any_eq_true _ _).mp hany
    exact ⟨later, .of_runInputs hrun, of_decide_eq_true hfacts⟩
  · have hany : (runInputs officeStep office
        ([.completeMfaLogin 3 0] ++ bars .disabled ++
          letsIn { analyst with lastLoginAt := some 0 } true)).any
          (fun later => decide (∃ session ∈ later.sessions, session.barred = true)) := by
      decide
    obtain ⟨later, hrun, hfacts⟩ := (Option.any_eq_true _ _).mp hany
    exact ⟨later, .of_runInputs hrun, of_decide_eq_true hfacts⟩

end Finify.Admin.Users
