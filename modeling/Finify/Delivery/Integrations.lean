/-
# Merchant integrations

`upsert` locks the merchant before it reads its configuration, and `setActive` is
one statement that waits for it: calls for one merchant take effect one after the
other.  A configuration, its authentication, the channel of the merchant and a
history row are written in one transaction; activation is not a new version.
-/

import Finify.Foundations.Table

namespace Finify.Delivery.Integrations

open Foundations

inductive Channel | api | kafka
  deriving DecidableEq

inductive CallbackAuthType | apiKey | hmac | none
  deriving DecidableEq

inductive AuthType | none | loginBearer
  deriving DecidableEq

/-- What the service has encrypted, as what its key opens it to. -/
structure Ciphertext (α : Type) where
  content : α
  deriving DecidableEq

/-- The environment: whether it is production, whether a key for secrets is configured, and the
keyed digest of a body. -/
structure Setting where
  production : Bool
  hasKey : Bool
  hmac : String → String → String

/-- A text that is neither missing nor empty. -/
def truthy (text : Option String) : Bool := text.any fun text => decide (text ≠ "")

/-! ## Requests -/

/-- `IntegrationAuthDto`; mappings and headers stand for their JSON. -/
structure AuthInput where
  type : AuthType := .none
  loginUrl : Option String := none
  loginMethod : Option String := none
  loginMapping : Option String := none
  loginHeaders : Option String := none
  tokenPath : Option String := none
  expiresInPath : Option String := none
  tokenPrefix : Option String := none
  finalHeader : Option String := none
  secrets : Option (List (String × String)) := none
  deriving DecidableEq

/-- `UpsertMerchantIntegrationDto`. -/
structure UpsertInput where
  channel : Channel
  active : Option Bool := none
  apiUrl : Option String := none
  apiMethod : Option String := none
  kafkaTopic : Option String := none
  kafkaMessageKeySource : Option String := none
  requestMapping : String := "[]"
  responseMapping : Option String := none
  auth : Option AuthInput := none
  timeoutMs : Option ℕ := none
  maxRetries : Option ℕ := none
  callbackAuthType : Option CallbackAuthType := none
  callbackSecret : Option String := none
  changedBy : Option String := none
  deriving DecidableEq

/-- `validate`. -/
def validate (dto : UpsertInput) : Except String Unit :=
  if dto.channel = .api ∧ truthy dto.apiUrl = false then
    .error "apiUrl is required for API integrations"
  else if dto.channel = .kafka ∧ truthy dto.kafkaTopic = false then
    .error "kafkaTopic is required for KAFKA integrations"
  else if ∃ auth ∈ dto.auth, auth.type = .loginBearer ∧
      (truthy auth.loginUrl = false ∨ truthy auth.tokenPath = false) then
    .error "LOGIN_BEARER requires loginUrl and tokenPath"
  else .ok ()

/-! ## Rows -/

/-- `sw_tbl_merchant_integration_auth`. -/
structure Auth where
  authType : AuthType
  loginUrl : Option String
  loginMethod : String
  loginMapping : String
  loginHeaders : String
  tokenPath : Option String
  expiresInPath : Option String
  tokenPrefix : String
  finalHeader : String
  secretsCiphertext : Option (Ciphertext (List (String × String)))
  deriving DecidableEq

/-- `sw_tbl_merchant_integration_config` with its authentication. -/
structure Config where
  merchantMsisdn : ℕ
  version : ℕ
  isActive : Bool
  apiUrl : Option String
  apiMethod : String
  kafkaTopic : Option String
  kafkaMessageKeySource : Option String
  requestMapping : String
  responseMapping : String
  timeoutMs : ℕ
  maxRetries : ℕ
  callbackAuthType : CallbackAuthType
  callbackSecretCiphertext : Option (Ciphertext String)
  auth : Auth
  deriving DecidableEq

/-- `SW_TBL_PROFILE_MERCHANT`. -/
structure Merchant where
  msisdn : ℕ
  integrationChannel : Option Channel
  deriving DecidableEq

/-- What the history keeps of a request: its secrets are left out. -/
structure Snapshot where
  dto : UpsertInput
  hasCallbackSecret : Bool
  auth : AuthInput
  hasSecrets : Bool
  deriving DecidableEq

/-- `sw_tbl_merchant_integration_config_history`. -/
structure HistoryRow where
  merchantMsisdn : ℕ
  version : ℕ
  integrationChannel : Channel
  configuration : Snapshot
  changedBy : Option String
  deriving DecidableEq

structure State where
  merchants : Table fun merchant : Merchant => merchant.msisdn
  configs : Table fun config : Config => config.merchantMsisdn
  history : List HistoryRow

/-! ## Saving a configuration -/

/-- The columns of the authentication that a request gives. -/
def AuthInput.row (auth : AuthInput)
    (secretsCiphertext : Option (Ciphertext (List (String × String)))) : Auth where
  authType := auth.type
  loginUrl := auth.loginUrl
  loginMethod := auth.loginMethod.getD "POST"
  loginMapping := auth.loginMapping.getD "[]"
  loginHeaders := auth.loginHeaders.getD "\x7b\x7d"
  tokenPath := auth.tokenPath
  expiresInPath := auth.expiresInPath
  tokenPrefix := auth.tokenPrefix.getD "Bearer"
  finalHeader := auth.finalHeader.getD "Authorization"
  secretsCiphertext := secretsCiphertext

/-- The columns that a request gives. -/
def UpsertInput.row (dto : UpsertInput) (merchantMsisdn version : ℕ)
    (callbackCiphertext : Option (Ciphertext String))
    (authCiphertext : Option (Ciphertext (List (String × String)))) : Config where
  merchantMsisdn := merchantMsisdn
  version := version
  isActive := dto.active.getD false
  apiUrl := dto.apiUrl
  apiMethod := dto.apiMethod.getD "POST"
  kafkaTopic := dto.kafkaTopic
  kafkaMessageKeySource := dto.kafkaMessageKeySource
  requestMapping := dto.requestMapping
  responseMapping := dto.responseMapping.getD "\x7b\x7d"
  timeoutMs := dto.timeoutMs.getD 10000
  maxRetries := dto.maxRetries.getD 3
  callbackAuthType := dto.callbackAuthType.getD .apiKey
  callbackSecretCiphertext := callbackCiphertext
  auth := (dto.auth.getD {}).row authCiphertext

/-- The constraints and the widths of the two tables. -/
def Config.Fits (config : Config) : Prop :=
  config.apiMethod ∈ ["POST", "PUT", "PATCH"] ∧ 1000 ≤ config.timeoutMs ∧
    config.timeoutMs ≤ 120000 ∧ config.maxRetries ≤ 10 ∧
    (∀ topic ∈ config.kafkaTopic, topic.length ≤ 255) ∧
    config.auth.loginMethod ∈ ["POST", "PUT", "PATCH"] ∧
    config.auth.tokenPrefix.length ≤ 32 ∧ config.auth.finalHeader.length ≤ 100

instance (config : Config) : Decidable config.Fits :=
  inferInstanceAs (Decidable (_ ∧ _ ∧ _ ∧ _ ∧ _ ∧ _ ∧ _ ∧ _))

/-- The secret of a request, encrypted, or else the one that is stored. -/
def callbackCiphertext (dto : UpsertInput) (existing : Option Config) :
    Option (Ciphertext String) :=
  if truthy dto.callbackSecret then dto.callbackSecret.map fun secret => { content := secret }
  else existing.bind fun config => config.callbackSecretCiphertext

def authCiphertext (dto : UpsertInput) (existing : Option Config) :
    Option (Ciphertext (List (String × String))) :=
  match dto.auth.bind fun auth => auth.secrets with
  | some secrets => some { content := secrets }
  | none => existing.bind fun config => config.auth.secretsCiphertext

/-- The request has secrets that have to be encrypted. -/
def UpsertInput.encrypts (dto : UpsertInput) : Bool :=
  truthy dto.callbackSecret || (dto.auth.bind fun auth => auth.secrets).isSome

/-- `historySnapshot`. -/
def historySnapshot (dto : UpsertInput) (hasCallbackSecret hasAuthSecrets : Bool) : Snapshot where
  dto := { dto with callbackSecret := none, auth := none }
  hasCallbackSecret := hasCallbackSecret
  auth :=
    match dto.auth with
    | some auth => { auth with secrets := none }
    | none => {}
  hasSecrets := dto.auth.isSome && hasAuthSecrets

def Merchant.choose (channel : Channel) (merchant : Merchant) : Merchant :=
  { merchant with integrationChannel := some channel }

theorem Merchant.choose_msisdn (channel : Channel) (merchant : Merchant) :
    (merchant.choose channel).msisdn = merchant.msisdn := rfl

/-- `ON CONFLICT (merchant_msisdn) DO UPDATE`. -/
def Config.over (config old : Config) : Config :=
  { config with merchantMsisdn := old.merchantMsisdn }

theorem Config.over_merchantMsisdn (config old : Config) :
    (config.over old).merchantMsisdn = old.merchantMsisdn := rfl

/-- The row and its history are written. -/
def State.save (state : State) (dto : UpsertInput) (config : Config) : State where
  merchants := state.merchants.modify config.merchantMsisdn (Merchant.choose dto.channel)
    (Merchant.choose_msisdn dto.channel)
  configs := state.configs.upsert config config.over config.over_merchantMsisdn
  history := state.history ++
    [{ merchantMsisdn := config.merchantMsisdn, version := config.version
       integrationChannel := dto.channel
       configuration := historySnapshot dto config.callbackSecretCiphertext.isSome
         config.auth.secretsCiphertext.isSome
       changedBy := dto.changedBy }]

/-- The row that a request makes of what is stored. -/
def State.newConfig (state : State) (merchantMsisdn : ℕ) (dto : UpsertInput) : Config :=
  let existing := state.configs.find? merchantMsisdn
  dto.row merchantMsisdn (existing.elim 0 (fun config => config.version) + 1)
    (callbackCiphertext dto existing) (authCiphertext dto existing)

/-- An active integration that waits for authenticated callbacks and has no secret for them. -/
def Config.lacksSecret (channel : Channel) (config : Config) : Bool :=
  decide (channel = .kafka) && config.isActive && decide (config.callbackAuthType ≠ .none) &&
    config.callbackSecretCiphertext.isNone

def State.upsert (setting : Setting) (state : State) (merchantMsisdn : ℕ) (dto : UpsertInput) :
    Except String State :=
  match validate dto with
  | .error message => .error message
  | .ok _ =>
    match state.merchants.find? merchantMsisdn with
    | none => .error ("Merchant " ++ toString merchantMsisdn ++ " was not found")
    | some _ =>
      let config := state.newConfig merchantMsisdn dto
      if dto.encrypts = true ∧ setting.hasKey = false then
        .error ("INTEGRATION_SECRET_KEY must be configured with at least 32 characters " ++
          "before storing or using secrets")
      else if config.lacksSecret dto.channel = true then
        .error ("An active KAFKA integration using API_KEY or HMAC callback authentication " ++
          "requires callbackSecret")
      else if config.Fits then .ok (state.save dto config)
      else .error "The configuration violates a constraint of its table"

def Config.activated (active : Bool) (config : Config) : Config := { config with isActive := active }

theorem Config.activated_merchantMsisdn (active : Bool) (config : Config) :
    (config.activated active).merchantMsisdn = config.merchantMsisdn := rfl

def State.setActive (state : State) (merchantMsisdn : ℕ) (active : Bool) : Except String State :=
  match state.configs.find? merchantMsisdn with
  | none =>
    .error ("No integration configuration exists for merchant " ++ toString merchantMsisdn)
  | some _ =>
    .ok { state with
      configs := state.configs.modify merchantMsisdn (Config.activated active)
        (Config.activated_merchantMsisdn active) }

inductive Event
  | upsert (merchantMsisdn : ℕ) (dto : UpsertInput)
  | setActive (merchantMsisdn : ℕ) (active : Bool)

/-- One call; one that throws rolls back. -/
def step (setting : Setting) (state : State) : Event → Option State
  | .upsert merchantMsisdn dto => (state.upsert setting merchantMsisdn dto).toOption
  | .setActive merchantMsisdn active => (state.setActive merchantMsisdn active).toOption

/-! ## Callbacks -/

/-- What a callback is checked by. -/
structure Callback where
  integrationKey : Option String
  finifySignature : Option String
  rawBody : String

/-- `decryptString`. -/
def decryptString (setting : Setting) (encrypted : Option (Ciphertext String)) : Option String :=
  if setting.hasKey then encrypted.map fun ciphertext => ciphertext.content else none

/-- `verifyApiKey`. -/
def verifyApiKey (setting : Setting) (provided : Option String)
    (encryptedExpected : Option (Ciphertext String)) : Bool :=
  let expected := decryptString setting encryptedExpected
  truthy provided && truthy expected && decide (provided = expected)

/-- `signature.replace(/^sha256=/i, '')`. -/
def stripScheme (signature : String) : String :=
  if ((signature.toList.take 7).map Char.toLower) = "sha256=".toList then
    String.ofList (signature.toList.drop 7)
  else signature

/-- `verifyHmac`. -/
def verifyHmac (setting : Setting) (rawBody : String) (signature : Option String)
    (encryptedSecret : Option (Ciphertext String)) : Bool :=
  let secret := decryptString setting encryptedSecret
  truthy signature && truthy secret &&
    secret.any fun secret =>
      signature.any fun signature => decide (stripScheme signature = setting.hmac secret rawBody)

/-- `authorize` lets the callback pass. -/
def authorize (setting : Setting) (config : Config) (callback : Callback) : Bool :=
  match config.callbackAuthType with
  | .none => !setting.production
  | .apiKey =>
    verifyApiKey setting callback.integrationKey config.callbackSecretCiphertext
  | .hmac =>
    verifyHmac setting callback.rawBody callback.finifySignature config.callbackSecretCiphertext

/-! ## What an active integration promises -/

/-- What `get` shows of a configuration. -/
structure PublicConfig where
  channel : Channel
  config : Config
  hasCallbackSecret : Bool
  hasSecrets : Bool
  deriving DecidableEq

/-- `publicConfig`: secrets are shown as being there or not. -/
def Config.publicConfig (config : Config) (channel : Channel) : PublicConfig where
  channel := channel
  config := { config with
    callbackSecretCiphertext := none
    auth := { config.auth with secretsCiphertext := none } }
  hasCallbackSecret := config.callbackSecretCiphertext.isSome
  hasSecrets := config.auth.secretsCiphertext.isSome

/-- What a history row says of the configuration, read with the defaults of the columns. -/
def HistoryRow.publicConfig (row : HistoryRow) : PublicConfig where
  channel := row.integrationChannel
  config :=
    { row.configuration.dto.row row.merchantMsisdn row.version none none with
      auth := row.configuration.auth.row none }
  hasCallbackSecret := row.configuration.hasCallbackSecret
  hasSecrets := row.configuration.hasSecrets

def State.channel? (state : State) (merchantMsisdn : ℕ) : Option Channel :=
  (state.merchants.find? merchantMsisdn).bind fun merchant => merchant.integrationChannel

/-- A payment can be carried to its end. -/
structure Config.Carries (setting : Setting) (channel : Option Channel) (config : Config) :
    Prop where
  reached : channel = some .api ∧ truthy config.apiUrl = true ∨
    channel = some .kafka ∧ truthy config.kafkaTopic = true ∧
      ∃ callback, authorize setting config callback = true
  secret : channel = some .kafka → config.callbackAuthType ≠ .none →
    config.callbackSecretCiphertext.isSome = true
  login : config.auth.authType = .loginBearer →
    truthy config.auth.loginUrl = true ∧ truthy config.auth.tokenPath = true

def HistoryRow.savedActive (row : HistoryRow) : Bool := row.configuration.dto.active.getD false

/-- The row is of the current version of the configuration. -/
def HistoryRow.IsOf (row : HistoryRow) (config : Config) : Prop :=
  row.merchantMsisdn = config.merchantMsisdn ∧ row.version = config.version

/-- Every active integration can carry a payment and is what the history row of its version says,
and the versions of a merchant count from one. -/
structure State.Kept (setting : Setting) (state : State) : Prop where
  carries : ∀ config ∈ state.configs.rows, config.isActive = true →
    config.Carries setting (state.channel? config.merchantMsisdn)
  described : ∀ config ∈ state.configs.rows, config.isActive = true →
    ∃ row ∈ state.history, row.IsOf config ∧
      ∃ channel, state.channel? config.merchantMsisdn = some channel ∧
        row.publicConfig = config.publicConfig channel
  versions : ∀ config ∈ state.configs.rows,
    ((state.history.filter fun row => row.merchantMsisdn = config.merchantMsisdn).map
      fun row => row.version) = List.range' 1 config.version

end Finify.Delivery.Integrations
