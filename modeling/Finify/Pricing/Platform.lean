/-
# Creating, pricing and posting a payment

`TransactionRequestService.create` takes a request only where source and destination are wallets
of its currency.  The pricing services look up the charge and commission wallets of that currency,
and `transactionprocess` publishes a message that names them.  The consumer posts published
messages, and settles and reverses transactions.  Steps of the services may come in any order.
-/

import Finify.Foundations.Text
import Finify.Pricing.Acceptance
import Finify.Pricing.Registry

namespace Finify.Pricing

open Finify.Foundations Finify.Posting

/-! ## The tables -/

/-- What `SW_TBL_WALLET` says of a wallet beside its amount and status. -/
structure WalletCard where
  walletMsisdn : ℤ
  walletCode : ℤ
  currency : String
  deriving DecidableEq, Repr

/-- `/^[A-Z]{3}$/`. -/
def isCode (currency : String) : Bool :=
  currency.length = 3 && currency.toList.all Char.isUpper

/-- `trim().toUpperCase()`. -/
def normalized (currency : String) : String := (trim currency).toUpper

/-- The tables and the published messages. -/
structure Platform where
  db : Db
  cards : Table WalletCard.walletMsisdn
  walletTypes : List ℤ
  messages : List Message

namespace Platform

variable (platform : Platform)

/-! ## Creating a request -/

/-- What `create` reads of a `CreateTransactionDto`. -/
structure CreateTransactionDto where
  sourceAccount : ℤ
  destinationAccount : ℤ
  amount : PaymentAmount
  currency : Option String := none

/-- `create`, with the id that `generateTransactionID` draws. -/
def create (dto : CreateTransactionDto) (transactionId : ℤ) : Except String Platform :=
  match platform.db.wallets.find? dto.sourceAccount,
      platform.db.wallets.find? dto.destinationAccount, platform.cards.find? dto.sourceAccount,
      platform.cards.find? dto.destinationAccount with
  | some source, some destination, some sourceCard, some destinationCard =>
    if source.status ≠ some 0 ∨ destination.status ≠ some 0 then
      .error "Source and destination wallets must be active"
    else
      let sourceCurrency := normalized sourceCard.currency
      let destinationCurrency := normalized destinationCard.currency
      let requestedCurrency := normalized
        ((dto.currency.filter (· ≠ "")).getD sourceCurrency)
      if ¬ isCode requestedCurrency then
        .error "A valid ISO transaction currency is required"
      else if sourceCurrency ≠ requestedCurrency ∨ destinationCurrency ≠ requestedCurrency then
        .error
          "Normal transfers require source, destination, and transaction currencies to match"
      else
        match platform.db.requests.insert?
          { transactionId := transactionId
            sourceWalletId := some dto.sourceAccount
            destWalletId := some dto.destinationAccount
            amount := some (moneyToNumeric dto.amount.cents)
            currency := some requestedCurrency } with
        | some requests => .ok { platform with db := { platform.db with requests := requests } }
        | none => .error "The transaction ID is taken"
  | _, _, _, _ => .error "Source and destination wallets must exist"

/-! ## Pricing it -/

def Holds (wallet : ℤ) (currency : String) : Prop :=
  ∃ card ∈ platform.cards.find? wallet, card.currency = currency

def systemWallets (code : ℤ) (currency : String) : List WalletCard :=
  platform.cards.rows.filter fun card =>
    card.walletCode = code ∧ card.currency = normalized currency

/-- What a look-up returns of a wallet, once its type is found. -/
def typed (card : WalletCard) : Except String SystemWallet :=
  if card.walletCode ∈ platform.walletTypes then .ok ⟨card.walletMsisdn, card.walletCode⟩
  else .error ("Wallet type " ++ toString card.walletCode ++ " not found")

/-- `resolveSystemWallet` of the charge service. -/
def resolveSystemWallet (code : ℤ) (currency : String) : Except String SystemWallet :=
  match platform.systemWallets code currency with
  | [] => .error ("System wallet " ++ toString code ++ " not found for " ++ normalized currency)
  | [card] => platform.typed card
  | _ => .error ("Multiple system wallets found for wallet code " ++ toString code ++ " and " ++
      normalized currency)

/-- `systemWallet` of the commission service. -/
def systemWallet (code : ℤ) (currency : String) : Except String SystemWallet :=
  match platform.systemWallets code currency with
  | [card] => platform.typed card
  | _ => .error ("Exactly one system wallet is required for code " ++ toString code ++ " and " ++
      normalized currency)

/-- A look-up that a cached configuration may answer: it names a wallet that was looked up
before, by the same code and currency, and no wallet changes these. -/
def cachedOr (cached : Option ℤ) (resolve : ℤ → String → Except String SystemWallet) (code : ℤ)
    (currency : String) : Except String SystemWallet :=
  match cached.bind fun msisdn => (platform.systemWallets code currency).find? fun card =>
    card.walletMsisdn = msisdn with
  | some card => .ok ⟨card.walletMsisdn, card.walletCode⟩
  | none => resolve code currency

/-- Flows and configurations with the wallets of the platform. -/
def tariff (rules : Tariff) (cachedCharge cachedCommission : Option ℤ) : Tariff :=
  { rules with
    chargeWallet := platform.cachedOr cachedCharge platform.resolveSystemWallet
    commissionWallet := platform.cachedOr cachedCommission platform.systemWallet }

/-- `TransactionRequestService.update`. -/
def update (transactionId status : ℤ) (fee commission : Option ℤ) : Platform :=
  { platform with
    db := platform.db.updateRequest transactionId
      (fun request =>
        { request with
          transactionStatus := some status
          transactionFee := fee <|> request.transactionFee
          transactionComm := commission <|> request.transactionComm })
      fun _ => rfl }

def Prices (payment : Payment) : Prop :=
  ∃ request ∈ platform.db.requests.find? payment.transactionId,
    request.sourceWalletId = some payment.sourceAccount ∧
      request.destWalletId = some payment.destinationAccount ∧
      request.currency = some payment.currency

instance (payment : Payment) : Decidable (platform.Prices payment) :=
  inferInstanceAs (Decidable (∃ request ∈ platform.db.requests.find? payment.transactionId, _))

/-- `transactionprocess` from pricing on: the request is updated and the message published. -/
def submit (payment : Payment) (rules : Tariff) (cachedCharge cachedCommission : Option ℤ) :
    Option Platform :=
  if platform.Prices payment then
    match (platform.tariff rules cachedCharge cachedCommission).message payment with
    | .ok message =>
      let updated := platform.update payment.transactionId 2 (some message.chargeAmount)
        (some message.commissionAmount)
      some { updated with messages := platform.messages ++ [message] }
    | .error _ => none
  else none

/-! ## Runs -/

/-- A wallet service opens a wallet, in a currency that it has checked. -/
def openWallet (card : WalletCard) : Option Platform :=
  if isCode card.currency then
    match platform.db.wallets.insert? { walletMsisdn := card.walletMsisdn, amount := 0 },
        platform.cards.insert? card with
    | some wallets, some cards =>
      some { platform with db := { platform.db with wallets := wallets }, cards := cards }
    | _, _ => none
  else none

/-- A call that the consumer makes: what posts first carries a published message. -/
def Delivered (call : Call) : Prop :=
  call.operation? = some .direct ∨ call.operation? = some .reserve →
    ∃ message ∈ platform.messages, call.payload = message.payload

instance (call : Call) : Decidable (platform.Delivered call) :=
  inferInstanceAs (Decidable (_ → _))

/-- What happens to the tables.  Amounts and statuses of wallets also change otherwise, and so
does the status of a request. -/
inductive Event
  | openWallet (card : WalletCard)
  | changeWallet (msisdn amount : ℤ) (status : Option ℤ)
  | create (dto : CreateTransactionDto) (transactionId : ℤ)
  | submit (payment : Payment) (rules : Tariff) (cachedCharge cachedCommission : Option ℤ)
  | update (transactionId status : ℤ) (fee commission : Option ℤ)
  | deliver (call : Call)

def step (platform : Platform) : Event → Option Platform
  | .openWallet card => platform.openWallet card
  | .changeWallet msisdn amount status =>
    some { platform with
      db := { platform.db with
        wallets := platform.db.wallets.modify msisdn
          (fun wallet => { wallet with amount := amount, status := status }) fun _ => rfl } }
  | .create dto transactionId => (platform.create dto transactionId).toOption
  | .submit payment rules cachedCharge cachedCommission =>
    platform.submit payment rules cachedCharge cachedCommission
  | .update transactionId status fee commission =>
    some (platform.update transactionId status fee commission)
  | .deliver call =>
    if platform.Delivered call then
      (platform.db.directFinifyTransaction call).map fun (_, after) =>
        { platform with db := after }
    else none

/-- Wallets in codes of currencies, and nothing requested. -/
structure Opening : Prop where
  empty : platform.db.Initial
  requests : platform.db.requests.rows = []
  messages : platform.messages = []
  codes : ∀ card ∈ platform.cards.rows, isCode card.currency

end Platform

/-! ## Codes -/

theorem toUpper_of_isCode {currency : String} (hcode : isCode currency) :
    currency.toUpper = currency :=
  toUpper_of_capitals (List.all_eq_true.mp (Bool.and_eq_true_iff.mp hcode).2)

theorem not_isBlank_of_isUpper {letter : Char} (hupper : letter.isUpper) :
    isBlank letter = false := by
  have hrange : 65 ≤ letter.val ∧ letter.val ≤ 90 := of_decide_eq_true hupper
  have hlow : 65 ≤ letter.toNat := UInt32.le_iff_toNat_le.mp hrange.1
  have hhigh : letter.toNat ≤ 90 := UInt32.le_iff_toNat_le.mp hrange.2
  simp only [isBlank, List.contains_eq_mem, List.mem_cons, List.not_mem_nil, or_false,
    Bool.or_eq_false_iff, Bool.and_eq_false_iff, decide_eq_false_iff_not]
  omega

/-- A code is not changed by trimming it. -/
theorem normalized_of_isCode {currency : String} (hcode : isCode currency) :
    normalized currency = currency := by
  have hcapitals : ∀ letter ∈ currency.toList, letter.isUpper :=
    List.all_eq_true.mp (Bool.and_eq_true_iff.mp hcode).2
  have hkept : ∀ letters : List Char, (∀ letter ∈ letters, letter.isUpper) →
      letters.dropWhile isBlank = letters := by
    intro letters hletters
    cases letters with
    | nil => rfl
    | cons letter letters =>
      rw [List.dropWhile_cons_of_neg]
      simp [not_isBlank_of_isUpper (hletters letter List.mem_cons_self)]
  have htrim : trim currency = currency := by
    rw [trim, hkept _ hcapitals, hkept, List.reverse_reverse, String.ofList_toList]
    intro letter hletter
    exact hcapitals letter (List.mem_reverse.mp hletter)
  rw [normalized, htrim, toUpper_of_isCode hcode]

/-! ## The wallets of a message -/

namespace Platform

variable {platform : Platform}

theorem mem_systemWallets {code : ℤ} {currency : String} {card : WalletCard}
    (hcard : card ∈ platform.systemWallets code currency) :
    platform.Holds card.walletMsisdn (normalized currency) := by
  obtain ⟨hmem, hfacts⟩ := List.mem_filter.mp hcard
  exact ⟨card, Table.find?_key hmem, (of_decide_eq_true hfacts).2⟩

theorem typed_eq_ok {card : WalletCard} {wallet : SystemWallet}
    (htyped : platform.typed card = .ok wallet) : wallet.walletMsisdn = card.walletMsisdn := by
  unfold typed at htyped
  split at htyped
  · cases htyped
    rfl
  · cases htyped

theorem resolveSystemWallet_holds {code : ℤ} {currency : String} {wallet : SystemWallet}
    (hwallet : platform.resolveSystemWallet code currency = .ok wallet) :
    platform.Holds wallet.walletMsisdn (normalized currency) := by
  unfold resolveSystemWallet at hwallet
  split at hwallet
  · cases hwallet
  · rename_i card hcards
    rw [typed_eq_ok hwallet]
    exact mem_systemWallets (by rw [hcards]; exact List.mem_singleton_self card)
  · cases hwallet

theorem systemWallet_holds {code : ℤ} {currency : String} {wallet : SystemWallet}
    (hwallet : platform.systemWallet code currency = .ok wallet) :
    platform.Holds wallet.walletMsisdn (normalized currency) := by
  unfold systemWallet at hwallet
  split at hwallet
  · rename_i card hcards
    rw [typed_eq_ok hwallet]
    exact mem_systemWallets (by rw [hcards]; exact List.mem_singleton_self card)
  · cases hwallet

/-- A cached look-up is one of a wallet in the currency too. -/
theorem cachedOr_holds {cached : Option ℤ} {resolve : ℤ → String → Except String SystemWallet}
    {code : ℤ} {currency : String} {wallet : SystemWallet}
    (hresolve : resolve code currency = .ok wallet →
      platform.Holds wallet.walletMsisdn (normalized currency))
    (hwallet : platform.cachedOr cached resolve code currency = .ok wallet) :
    platform.Holds wallet.walletMsisdn (normalized currency) := by
  unfold cachedOr at hwallet
  split at hwallet
  · rename_i card hcard
    cases hwallet
    obtain ⟨msisdn, _, hfound⟩ := Option.bind_eq_some_iff.mp hcard
    exact mem_systemWallets (List.mem_of_find?_eq_some hfound)
  · exact hresolve hwallet

end Platform

/-- The wallet of a charge is one that was looked up in the currency of the request. -/
theorem Tariff.charge_wallet {tariff : Tariff} {request : PriceRequest} {result : ChargeResult}
    (hcharge : tariff.charge request = .ok result) :
    ∃ code, tariff.chargeWallet code request.currency = .ok result.wallet := by
  unfold Tariff.charge at hcharge
  split at hcharge
  · cases hcharge
  · split at hcharge
    · obtain ⟨simulation, _, hcharge⟩ := bind_eq_ok hcharge
      obtain ⟨wallet, hwallet, hcharge⟩ := bind_eq_ok hcharge
      cases hcharge
      exact ⟨_, hwallet⟩
    · unfold Tariff.legacyCharge at hcharge
      obtain ⟨configuration, _, hcharge⟩ := bind_eq_ok hcharge
      obtain ⟨wallet, hwallet, hcharge⟩ := bind_eq_ok hcharge
      obtain ⟨detail, _, hcharge⟩ := bind_eq_ok hcharge
      obtain ⟨charge, _, hcharge⟩ := bind_eq_ok hcharge
      split at hcharge
      · cases hcharge
      · cases hcharge
        exact ⟨_, hwallet⟩

/-- The wallet of a commission is one that was looked up in the currency of the request. -/
theorem Tariff.commission_wallet {tariff : Tariff} {request : PriceRequest}
    {result : CommissionResult} (hcommission : tariff.commission request = .ok result) :
    ∃ code, tariff.commissionWallet code request.currency = .ok result.wallet := by
  unfold Tariff.commission at hcommission
  split at hcommission
  · cases hcommission
  · split at hcommission
    · obtain ⟨simulation, _, hcommission⟩ := bind_eq_ok hcommission
      obtain ⟨wallet, hwallet, hcommission⟩ := bind_eq_ok hcommission
      cases hcommission
      exact ⟨_, hwallet⟩
    · unfold Tariff.legacyCommission at hcommission
      obtain ⟨configuration, _, hcommission⟩ := bind_eq_ok hcommission
      obtain ⟨wallet, hwallet, hcommission⟩ := bind_eq_ok hcommission
      obtain ⟨detail, _, hcommission⟩ := bind_eq_ok hcommission
      obtain ⟨commission, _, hcommission⟩ := bind_eq_ok hcommission
      split at hcommission
      · cases hcommission
      · cases hcommission
        exact ⟨_, hwallet⟩

end Finify.Pricing
