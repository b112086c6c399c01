/-
# Accounting configurations

`AccountingConfigService.create` and `provisionCurrency`, statement by statement.  Each runs
in a transaction of its own: what it has written is kept with the call until it commits.  An
update waits for the transaction that has its row, and reads the row again afterwards; an
insert waits for the transaction that could still break or restore the unique index of open
configurations.  What the host knows of zones, currencies and letters is a parameter.
-/

import Finify.Eod.Close
import Finify.Foundations.Tiling

namespace Finify.Eod.Configurations

open Finify.Foundations

/-! ## The table -/

/-- `sw_tbl_accounting_configuration`. -/
structure Row where
  id : ℕ
  reportingEntity : String
  currency : String
  baseCurrency : String
  businessTimezone : String
  cutoffTime : String
  masterWallet : ℤ
  strictSafeguarding : Bool
  effectiveFrom : Date
  effectiveTo : Option Date := none
  isActive : Bool := true
  createdBy : String
  approvedBy : String
  deriving DecidableEq

namespace Row

def key (row : Row) : String × String := (row.reportingEntity, row.currency)

/-- `effective_from` to `effective_to`. -/
def span (row : Row) : Span := ⟨row.effectiveFrom, row.effectiveTo⟩

/-- The row as a close of its entity reads it. -/
def configuration (row : Row) : Configuration :=
  { currency := row.currency
    masterWallet := row.masterWallet
    strictSafeguarding := row.strictSafeguarding
    effectiveFrom := row.effectiveFrom
    effectiveTo := row.effectiveTo
    isActive := row.isActive }

end Row

/-- `SW_TBL_WALLET`, as far as it is read and written here. -/
structure WalletRow where
  walletMsisdn : ℤ
  walletCode : ℕ
  amount : ℤ
  createdBy : String
  status : ℤ
  isDefault : Bool
  currency : String
  ownerMsisdn : ℤ
  ownerType : String
  walletPurpose : String
  deriving DecidableEq

/-- An administrator; `mayOperate` where the user is active and a super admin or has
`accounting.operate`. -/
structure Administrator where
  username : String
  mayOperate : Bool
  deriving DecidableEq

/-- What the host knows: `Intl.DateTimeFormat`, `Intl.NumberFormat`, `trim`, `toLowerCase`, and
of the database `lower` and the cast to a time. -/
structure Host where
  knowsTimeZone : String → Bool
  knowsCurrency : String → Bool
  trim : String → String
  toLowerCase : String → String
  lower : String → String
  isTime : String → Bool

/-- `trim().toLowerCase()`. -/
def Host.fold (host : Host) (text : String) : String := host.toLowerCase (host.trim text)

/-! ## Who reads configurations -/

def activeRows (rows : List Row) (key : String × String) : List Row :=
  rows.filter fun row => row.key = key ∧ row.isActive

/-- Those in force on a date. -/
def applicable (rows : List Row) (key : String × String) (date : Date) : List Row :=
  (activeRows rows key).filter fun row => row.span.Covers date

/-- The configuration that `sw_proc_accounting_close_eod` takes. -/
def closeConfiguration (rows : List Row) (entity currency : String) (date : Date) : Option Row :=
  latest Row.effectiveFrom (rows.filter fun row =>
    row.reportingEntity = entity ∧ row.currency = currency ∧ row.isActive ∧
      row.effectiveFrom ≤ date ∧ ∀ last ∈ row.effectiveTo, date ≤ last)

/-- The configuration that `sw_fn_assign_journal_business_context` takes. -/
def journalConfiguration (rows : List Row) (entity : Option String) (currency : String)
    (today : Date) : Option Row :=
  let entity := (entity.filter fun entity => entity ≠ "").getD "FINIFY_UK"
  latest Row.effectiveFrom (rows.filter fun row =>
    row.reportingEntity = entity ∧ row.currency = currency.toUpper ∧ row.isActive ∧
      row.effectiveFrom ≤ today ∧ ∀ last ∈ row.effectiveTo, today ≤ last)

/-- `activeCurrencies`. -/
def activeCurrencies (rows : List Row) (entity : String) (today : Date) : List Row :=
  (rows.filter fun row =>
    row.reportingEntity = entity ∧ row.isActive ∧ row.effectiveFrom ≤ today ∧
      ∀ last ∈ row.effectiveTo, today ≤ last).mergeSort fun first second =>
        first.currency ≤ second.currency

/-! ## The calls -/

/-- `CreateAccountingConfigDto`; a text that is no date has no `effectiveFrom`. -/
structure CreateAccountingConfigDto where
  reportingEntity : String := "FINIFY_UK"
  currency : String
  baseCurrency : String := "GBP"
  businessTimezone : String := "Europe/London"
  cutoffTime : String := "00:00:00"
  masterWallet : ℤ
  strictSafeguarding : Bool := true
  effectiveFrom : Option Date
  maker : String
  checker : String
  deriving DecidableEq

/-- `ProvisionCurrencyDto`. -/
structure ProvisionCurrencyDto where
  currency : String
  baseCurrency : String := "GBP"
  reportingEntity : String := "FINIFY_UK"
  businessTimezone : String := "Europe/London"
  cutoffTime : String := "00:00:00"
  effectiveFrom : Option Date
  requestedBy : String
  approvedBy : String
  deriving DecidableEq

/-- The exception of a call. -/
inductive Rejection
  | badRequest (message : String)
  | conflict (message : String)
  | notFound (message : String)
  deriving DecidableEq, Repr

section

variable (host : Host)

/-- The checks of `create` before its transaction. -/
def CreateAccountingConfigDto.check (dto : CreateAccountingConfigDto) : Except Rejection Unit :=
  if host.fold dto.maker = host.fold dto.checker then
    .error (.badRequest "Maker and checker must be different users")
  else if host.knowsTimeZone dto.businessTimezone then .ok ()
  else .error (.badRequest "businessTimezone must be a valid IANA timezone")

def CreateAccountingConfigDto.checkWallet (dto : CreateAccountingConfigDto)
    (wallets : List WalletRow) : Except Rejection Unit :=
  match wallets.find? fun wallet => wallet.walletMsisdn = dto.masterWallet with
  | none => .error (.notFound "Master wallet was not found")
  | some wallet =>
    if wallet.currency.toUpper ≠ dto.currency.toUpper ∨ wallet.status ≠ 0 then
      .error (.badRequest "Master wallet must be active and use the configured currency")
    else .ok ()

/-- `currency` of a provisioning. -/
def ProvisionCurrencyDto.currencyCode (dto : ProvisionCurrencyDto) : String :=
  (host.trim dto.currency).toUpper

/-- `baseCurrency` of a provisioning. -/
def ProvisionCurrencyDto.baseCurrencyCode (dto : ProvisionCurrencyDto) : String :=
  (host.trim dto.baseCurrency).toUpper

/-- The checks of `provisionCurrency` before its transaction. -/
def ProvisionCurrencyDto.check (dto : ProvisionCurrencyDto) : Except Rejection Unit :=
  if host.fold dto.requestedBy = host.fold dto.approvedBy then
    .error (.badRequest "Currency maker and checker must be different users")
  else if host.knowsTimeZone dto.businessTimezone && host.knowsCurrency (dto.currencyCode host) then
    .ok ()
  else .error (.badRequest "Currency or business timezone is invalid")

/-- The check for an existing configuration that has not ended. -/
def ProvisionCurrencyDto.checkExisting (dto : ProvisionCurrencyDto) (rows : List Row)
    (today : Date) : Except Rejection Unit :=
  if rows.any fun row => row.reportingEntity = dto.reportingEntity ∧
      row.currency = dto.currencyCode host ∧ row.isActive ∧ ∀ last ∈ row.effectiveTo, today ≤ last
  then .error (.conflict (dto.currencyCode host ++ " is already configured"))
  else .ok ()

/-- The wallets that a currency needs, by code and purpose. -/
def specifications : List (ℕ × String) :=
  [(105, "TEMPORARY_RESERVE"), (110, "SAFEGUARDING"), (113, "SYSTEM"), (114, "SYSTEM"),
    (115, "SYSTEM"), (116, "SYSTEM"), (117, "SYSTEM")]

def newWallet (dto : ProvisionCurrencyDto) (specification : ℕ × String) (identifier : ℤ) :
    WalletRow :=
  { walletMsisdn := identifier
    walletCode := specification.1
    amount := 0
    createdBy := dto.requestedBy
    status := 0
    isDefault := false
    currency := dto.currencyCode host
    ownerMsisdn := identifier
    ownerType := "SYSTEM"
    walletPurpose := specification.2 }

/-- Find the wallets of the specifications or make them, each with the identifier that the
sequence gives it; the second list has those made. -/
def findOrCreate (dto : ProvisionCurrencyDto) (wallets : List WalletRow) (identifier : ℕ → ℤ) :
    List (ℕ × String) → Except Rejection (List WalletRow × List WalletRow)
  | [] => .ok ([], [])
  | specification :: rest =>
    match wallets.filter fun wallet => wallet.ownerType = "SYSTEM" ∧
        wallet.walletCode = specification.1 ∧ wallet.currency.toUpper = dto.currencyCode host ∧
        wallet.status = 0 with
    | [wallet] => do
        let (found, made) ← findOrCreate dto wallets identifier rest
        return (wallet :: found, made)
    | _ :: _ :: _ =>
      .error (.conflict ("Multiple active wallet-code " ++ toString specification.1 ++
        " accounts exist for " ++ dto.currencyCode host))
    | [] => do
        let wallet := newWallet host dto specification (identifier specification.1)
        let (found, made) ← findOrCreate dto wallets identifier rest
        return (wallet :: found, wallet :: made)

/-- The checks of `provisionCurrency` after the existing configurations, and the wallets. -/
def ProvisionCurrencyDto.examine (dto : ProvisionCurrencyDto) (rows : List Row) (today : Date)
    (administrators : List Administrator) (walletTypes : List ℕ) (wallets : List WalletRow)
    (identifier : ℕ → ℤ) : Except Rejection (List WalletRow × List WalletRow) :=
  let authorized := (administrators.filter fun user => user.mayOperate = true ∧
    host.lower user.username ∈ [host.fold dto.requestedBy, host.fold dto.approvedBy]).map
      fun user => host.toLowerCase user.username
  if host.fold dto.requestedBy ∉ authorized then
    .error (.badRequest "Currency maker is not an active accounting operator")
  else if host.fold dto.approvedBy ∉ authorized then
    .error (.badRequest "Currency checker is not an active accounting operator")
  else if dto.baseCurrencyCode host ≠ dto.currencyCode host ∧
      applicable rows (dto.reportingEntity, dto.baseCurrencyCode host) today = [] then
    .error (.badRequest ("Base currency " ++ dto.baseCurrencyCode host ++
      " is not actively configured"))
  else if ∃ specification ∈ specifications, specification.1 ∉ walletTypes then
    .error (.badRequest "One or more required system wallet types are not configured")
  else findOrCreate host dto wallets identifier specifications

end

/-- A call of one of the two operations. -/
inductive Request
  | create (dto : CreateAccountingConfigDto)
  | provision (dto : ProvisionCurrencyDto)
  deriving DecidableEq

/-- How far a call has come: nothing yet; its wallet or currency is locked; the update has
found the open row, if any; the open row is closed and the insert is next; inserted. -/
inductive Phase
  | begun
  | locked
  | matched (target : Option ℕ)
  | ready (target : Option ℕ)
  | inserted (target : Option ℕ)
  deriving DecidableEq

/-- A call under way with the wallets it has found or made. -/
structure Call where
  request : Request
  phase : Phase := .begun
  wallets : List WalletRow := []
  created : List WalletRow := []
  deriving DecidableEq

namespace Call

variable (host : Host) (call : Call)

/-- The entity and currency of the call. -/
def key : String × String :=
  match call.request with
  | .create dto => (dto.reportingEntity, dto.currency.toUpper)
  | .provision dto => (dto.reportingEntity, dto.currencyCode host)

/-- `effectiveFrom` of the call. -/
def effectiveFrom : Option Date :=
  match call.request with
  | .create dto => dto.effectiveFrom
  | .provision dto => dto.effectiveFrom

/-- The call has the advisory lock of its currency, which only provisionings take. -/
def hasLock : Bool :=
  match call.request, call.phase with
  | .provision _, .begun => false
  | .provision _, _ => true
  | .create _, _ => false

/-- The row that the call has closed, until it commits. -/
def closed : Option ℕ :=
  match call.phase with
  | .ready target | .inserted target => target
  | _ => none

/-- The call has inserted its row. -/
def hasInserted : Bool :=
  match call.phase with
  | .inserted _ => true
  | _ => false

def row (effectiveFrom : Date) (id : ℕ) : Row :=
  match call.request with
  | .create dto =>
    { id := id
      reportingEntity := dto.reportingEntity
      currency := dto.currency.toUpper
      baseCurrency := dto.baseCurrency.toUpper
      businessTimezone := dto.businessTimezone
      cutoffTime := dto.cutoffTime
      masterWallet := dto.masterWallet
      strictSafeguarding := dto.strictSafeguarding
      effectiveFrom := effectiveFrom
      createdBy := dto.maker
      approvedBy := dto.checker }
  | .provision dto =>
    { id := id
      reportingEntity := dto.reportingEntity
      currency := dto.currencyCode host
      baseCurrency := dto.baseCurrencyCode host
      businessTimezone := dto.businessTimezone
      cutoffTime := dto.cutoffTime
      masterWallet := ((call.wallets.find? fun wallet => wallet.walletCode = 110).map
        WalletRow.walletMsisdn).getD 0
      strictSafeguarding := true
      effectiveFrom := effectiveFrom
      createdBy := dto.requestedBy
      approvedBy := dto.approvedBy }

end Call

/-- `CK_ACCOUNTING_CONFIG_CURRENCY`, the length of the entity and the cast of the cutoff. -/
def Row.isAccepted (host : Host) (row : Row) : Bool :=
  isCurrency row.currency && isCurrency row.baseCurrency &&
    decide (row.reportingEntity.length ≤ 32) && host.isTime row.cutoffTime

/-- `SET effective_to=$3::date-1,is_active=true`. -/
def Row.endBefore (date : Date) (row : Row) : Row :=
  { row with effectiveTo := some (date - 1), isActive := true }

/-! ## The transactions -/

/-- The committed tables and the calls under way. -/
structure State where
  configurations : Log Row.id
  wallets : List WalletRow
  calls : List Call := []

/-- What happens: a call begins, one of its statements runs, it commits or fails; or others
change wallets. -/
inductive Event
  | create (dto : CreateAccountingConfigDto)
  | provision (dto : ProvisionCurrencyDto)
  | lockWallet (call : Call)
  | lockCurrency (call : Call) (today : Date)
  | matchOpen (call : Call)
  | closeOpen (call : Call)
  | examine (call : Call) (today : Date) (administrators : List Administrator)
      (walletTypes : List ℕ) (identifier : ℕ → ℤ)
  | insert (call : Call)
  | commit (call : Call)
  | fail (call : Call)
  | others (wallets : List WalletRow)

namespace State

variable (host : Host) (state : State) (call : Call)

/-- The call goes on, or ends. -/
def put (next : Option Call) : State :=
  { state with calls := next.toList ++ state.calls.erase call }

def openRow (key : String × String) : Option Row :=
  (activeRows state.configurations.rows key).find? fun row => row.effectiveTo = none

/-- `FOR UPDATE` of the master wallet, and its check. -/
def lockWallet : Option State :=
  match call.phase, call.request with
  | .begun, .create dto =>
    match dto.checkWallet state.wallets with
    | .ok _ => some (state.put call (some { call with phase := .locked }))
    | .error _ => some (state.put call none)
  | _, _ => none

/-- The advisory lock of the currency, and the existing configurations. -/
def lockCurrency (today : Date) : Option State :=
  match call.phase, call.request with
  | .begun, .provision dto =>
    if ∃ other ∈ state.calls, other.key host = call.key host ∧ other.hasLock = true then none
    else
      match dto.checkExisting host state.configurations.rows today with
      | .ok _ => some (state.put call (some { call with phase := .locked }))
      | .error _ => some (state.put call none)
  | _, _ => none

/-- The rows that the update of `create` finds when it starts. -/
def matchOpen : Option State :=
  match call.phase, call.request with
  | .locked, .create _ =>
    some (state.put call (some
      { call with phase := .matched ((state.openRow (call.key host)).map Row.id) }))
  | _, _ => none

/-- The update gets its row, once no other transaction has it, and reads it again. -/
def closeOpen : Option State :=
  match call.phase with
  | .matched none => some (state.put call (some { call with phase := .ready none }))
  | .matched (some id) =>
    if ∃ other ∈ state.calls, other.closed = some id then none
    else
      match state.configurations.find? id, call.effectiveFrom with
      | some row, some date =>
        if row.isActive ∧ row.effectiveTo = none then
          -- CK_ACCOUNTING_CONFIG_PERIOD
          if row.effectiveFrom ≤ date - 1 then
            some (state.put call (some { call with phase := .ready (some id) }))
          else some (state.put call none)
        else some (state.put call (some { call with phase := .ready none }))
      | _, _ => some (state.put call none)
  | _ => none

/-- The remaining checks of `provisionCurrency` and its wallets. -/
def examine (today : Date) (administrators : List Administrator) (walletTypes : List ℕ)
    (identifier : ℕ → ℤ) : Option State :=
  match call.phase, call.request with
  | .locked, .provision dto =>
    match dto.examine host state.configurations.rows today administrators walletTypes
        state.wallets identifier with
    | .ok result => some (state.put call (some
        { call with phase := .ready none, wallets := result.1, created := result.2 }))
    | .error _ => some (state.put call none)
  | _, _ => none

/-- The insert, which waits for transactions that have inserted for the same key or closed its
open row. -/
def insert : Option State :=
  match call.phase, call.effectiveFrom with
  | .ready _, none => some (state.put call none)
  | .ready target, some date =>
    if ∃ other ∈ state.calls.erase call, other.key host = call.key host ∧
        (other.hasInserted = true ∨ ∃ row ∈ state.openRow (call.key host),
          other.closed = some row.id) then none
    else if (∀ row ∈ state.openRow (call.key host), target = some row.id) ∧
        (call.row host date 0).isAccepted host = true then
      some (state.put call (some { call with phase := .inserted target }))
    else some (state.put call none)
  | _, _ => none

/-- The rows of the table with the writes of a call. -/
def written (target : Option ℕ) (date : Date) : Log Row.id :=
  (match target with
    | none => state.configurations
    | some id => state.configurations.modify id (Row.endBefore date) fun _ => rfl).append
      (call.row host date) fun _ => by
        unfold Call.row
        split <;> rfl

def commit : Option State :=
  match call.phase, call.effectiveFrom with
  | .inserted target, some date =>
    some (({ state with
      configurations := state.written host call target date
      wallets := state.wallets ++ call.created } : State).put call none)
  | _, _ => none

end State

def step (host : Host) (state : State) : Event → Option State
  | .create dto =>
    match dto.check host with
    | .ok _ => some { state with calls := { request := .create dto } :: state.calls }
    | .error _ => some state
  | .provision dto =>
    match dto.check host with
    | .ok _ => some { state with calls := { request := .provision dto } :: state.calls }
    | .error _ => some state
  | .lockWallet call => if call ∈ state.calls then state.lockWallet call else none
  | .lockCurrency call today =>
    if call ∈ state.calls then state.lockCurrency host call today else none
  | .matchOpen call => if call ∈ state.calls then state.matchOpen host call else none
  | .closeOpen call => if call ∈ state.calls then state.closeOpen call else none
  | .examine call today administrators walletTypes identifier =>
    if call ∈ state.calls then
      state.examine host call today administrators walletTypes identifier
    else none
  | .insert call => if call ∈ state.calls then state.insert host call else none
  | .commit call => if call ∈ state.calls then state.commit host call else none
  | .fail call => if call ∈ state.calls then some (state.put call none) else none
  | .others wallets => some { state with wallets := wallets }

end Finify.Eod.Configurations
