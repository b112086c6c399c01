/-
# Wallet PINs

`PINVerify` reads the stored PIN and the failure counter of an account, compares
in memory, and records the outcome by a second call of `walletpindetail`; a PIN
that is still stored in the legacy form is written back in the new one when it
matches.  `changePin` verifies and then writes.  Every call of `walletpindetail`
is one step, and any number of verifications are under way at once.
-/

import Finify.Foundations.Transition
import Mathlib.Data.Int.Notation

namespace Finify.Wallets.Pins

open Foundations

/-- A stored PIN: a bcrypt hash, told by its `$2` prefix, or a legacy HMAC.  Both comparisons are
exact, so a stored PIN is the PIN that matches it. -/
inductive Stored
  | bcrypt (pin : String)
  | hmac (pin : String)
  deriving DecidableEq

def Stored.pin : Stored → String
  | .bcrypt pin => pin
  | .hmac pin => pin

/-- What a profile row of either table holds of the PIN of its account. -/
structure Profile where
  pin : Option Stored
  failAttempt : Option ℕ
  status : ℤ
  deriving DecidableEq

/-- The rows of one MSISDN in `SW_TBL_PROFILE_CUST` and `SW_TBL_PROFILE_MERCHANT`. -/
structure Account where
  customer : Option Profile
  merchant : Option Profile
  deriving DecidableEq

/-! ## `walletpindetail` -/

/-- The actions of `walletpindetail` that write. -/
inductive Action
  | updateWalletPin (pin : Stored)
  | failedWalletPin
  | failAttemptReset

def Profile.apply (profile : Profile) : Action → Profile
  | .updateWalletPin pin => { profile with pin := some pin }
  | .failedWalletPin => { profile with failAttempt := some (profile.failAttempt.getD 0 + 1) }
  | .failAttemptReset => { profile with failAttempt := some 0 }

/-- The update goes to the customer row, and to the merchant row where there is none. -/
def Account.apply (account : Account) (action : Action) : Account :=
  match account.customer with
  | some customer => { account with customer := some (customer.apply action) }
  | none => { account with merchant := account.merchant.map (·.apply action) }

/-- The row that is read: the customer's before the merchant's. -/
def Account.standing (account : Account) : Option Profile := account.customer <|> account.merchant

/-- A row of the result of `walletpindetail`. -/
structure Detail where
  pin : Option Stored
  failedAttempt : ℕ
  accountStatus : ℤ

def Account.checkWalletPin (account : Account) : Option Detail :=
  account.standing.map fun profile =>
    { pin := profile.pin, failedAttempt := profile.failAttempt.getD 0
      accountStatus := profile.status }

/-- What is written is what is read. -/
@[simp] theorem Account.standing_apply (account : Account) (action : Action) :
    (account.apply action).standing = account.standing.map (·.apply action) := by
  obtain ⟨customer, merchant⟩ := account
  cases customer with
  | some customer => rfl
  | none =>
    cases merchant with
    | some merchant => rfl
    | none => rfl

/-- The stored PIN that `PINVerify` goes on to compare with, if it does. -/
def Account.compared? (account : Account) : Option Stored :=
  match account.checkWalletPin with
  | none => none
  | some detail => if detail.failedAttempt > 2 then none else detail.pin

/-! ## Verifications under way -/

/-- Where a verification stands: about to compare with what it read, to write a legacy PIN back in
the new form, to record the outcome, or to write the new PIN of a change. -/
inductive Phase
  | comparing (stored : Stored)
  | rehashing
  | recording (matched : Bool)
  | changing
  deriving DecidableEq

/-- A verification of a PIN, on its own or as the first half of `changePin`.  The PIN that is
valid since a change that returned before it started is remembered beside it. -/
structure Call where
  pin : String
  newPin : Option String
  expected : Option String
  phase : Phase
  deriving DecidableEq

/-- The outcome of a verification that started after a change had returned. -/
structure Verdict where
  pin : String
  expected : String
  accepted : Bool
  deriving DecidableEq

/-- The account, the verifications under way, and what has been observed: the PIN of the last
change, whether there was one, the comparisons made, the last first, and the verdicts. -/
structure State where
  account : Account
  calls : List Call := []
  current : String
  changed : Bool := false
  comparisons : List Bool := []
  verdicts : List Verdict := []
  deriving DecidableEq

/-- The PIN that a verification which starts now has to accept. -/
def State.expected (state : State) : Option String :=
  if state.changed then some state.current else none

/-- How many wrong PINs have been compared since the last right one. -/
def wrongRun : List Bool → ℕ
  | false :: earlier => wrongRun earlier + 1
  | _ => 0

/-- The verdict that a call leaves, if it started after a change. -/
def verdictOf (pin : String) (expected : Option String) (accepted : Bool) : List Verdict :=
  expected.toList.map fun expected => { pin, expected, accepted }

/-- `PINVerify` up to its first step: it reads the account, and goes on or is refused at once. -/
def State.start (state : State) (pin : String) (newPin : Option String) : State :=
  match state.account.compared? with
  | none => { state with verdicts := verdictOf pin state.expected false ++ state.verdicts }
  | some stored =>
    { state with
      calls := { pin, newPin, expected := state.expected, phase := .comparing stored } ::
        state.calls }

def State.goOn (state : State) (call : Call) (phase : Phase) : State :=
  { state with calls := { call with phase } :: state.calls.erase call }

def State.drop (state : State) (call : Call) : State :=
  { state with calls := state.calls.erase call }

/-- A PIN has been compared. -/
def State.compared (state : State) (call : Call) (matched : Bool) : State :=
  { state with
    comparisons := matched :: state.comparisons
    verdicts := verdictOf call.pin call.expected matched ++ state.verdicts }

/-- The comparison of `verifyPassword`.  A legacy PIN cannot be compared without the secret of
`AUTH_MODULE`: the call fails. -/
def State.compare (secret : Bool) (state : State) (call : Call) (stored : Stored) : State :=
  match stored with
  | .bcrypt pin =>
    if call.pin = pin then (state.compared call true).goOn call (.recording true)
    else (state.compared call false).goOn call (.recording false)
  | .hmac pin =>
    if secret then
      if call.pin = pin then (state.compared call true).goOn call .rehashing
      else (state.compared call false).goOn call (.recording false)
    else state.drop call

/-- The next step of a call. -/
def State.advance (secret : Bool) (state : State) (call : Call) : State :=
  match call.phase with
  | .comparing stored => state.compare secret call stored
  | .rehashing =>
    { state with account := state.account.apply (.updateWalletPin (.bcrypt call.pin)) }.goOn call
      (.recording true)
  | .recording false =>
    { state with account := state.account.apply .failedWalletPin }.drop call
  | .recording true =>
    match call.newPin with
    | none => { state with account := state.account.apply .failAttemptReset }.drop call
    | some _ =>
      { state with account := state.account.apply .failAttemptReset }.goOn call .changing
  | .changing =>
    match call.newPin with
    | none => state.drop call
    | some newPin =>
      { state with
        account := state.account.apply (.updateWalletPin (.bcrypt newPin))
        current := newPin
        changed := true }.drop call

/-- What happens on the account: a verification or a change starts, or one makes its next step. -/
inductive Event
  | start (pin : String) (newPin : Option String)
  | advance (call : Call)

def step (secret : Bool) (state : State) : Event → Option State
  | .start pin newPin => some (state.start pin newPin)
  | .advance call => if call ∈ state.calls then some (state.advance secret call) else none

/-- An account with a stored PIN before any of the calls. -/
def State.opened (account : Account) (stored : Stored) : State where
  account := account
  current := stored.pin

/-! ## What PINs promise -/

/-- At no time had more than three wrong PINs in a row been compared. -/
def Bounded (comparisons : List Bool) : Prop :=
  ∀ earlier, earlier <:+ comparisons → wrongRun earlier ≤ 3

theorem Bounded.cons {comparisons : List Bool} (hbounded : Bounded comparisons) {matched : Bool}
    (hrun : wrongRun (matched :: comparisons) ≤ 3) : Bounded (matched :: comparisons) := by
  intro earlier hsuffix
  cases List.suffix_cons_iff.mp hsuffix with
  | inl hall => exact hall ▸ hrun
  | inr hbefore => exact hbounded earlier hbefore

/-- The account holds the PIN that was set last. -/
def State.Sticks (state : State) : Prop :=
  ∃ profile stored, state.account.standing = some profile ∧ profile.pin = some stored ∧
    stored.pin = state.current

/-- At most three wrong PINs are compared in a row, the account holds the PIN that was set last,
and whoever starts after a change is accepted with the new PIN and with no other. -/
structure State.Kept (state : State) : Prop where
  bounded : Bounded state.comparisons
  sticks : state.Sticks
  told : ∀ verdict ∈ state.verdicts, verdict.accepted = decide (verdict.pin = verdict.expected)

end Finify.Wallets.Pins
