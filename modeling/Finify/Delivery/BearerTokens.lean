/-
# Bearer tokens

Calls of `dispatch` read the configuration of a merchant, find a token in the memory of the process
or log in for one, and send their request with it, again after failures.  Between any two of these
moments other calls move and configurations change.  A token is remembered with the configuration
and the payment that its login was performed for, and with the lifetime that the login announced.
-/

import Finify.Delivery.Integrations
import Finify.Delivery.MerchantResponses
import Finify.Foundations.Transition

namespace Finify.Delivery.BearerTokens

open Foundations
open Credit.Conditions (Number Value segments)
open FieldMapping (Fields Mapping MappedRequest MappingContext Runtime)
open Integrations (Config Ciphertext Setting truthy)

/-- The language, the secrets' key, and what stored JSON and URLs stand for. -/
structure Environment where
  runtime : Runtime
  setting : Setting
  callbackUrl : String
  /-- The mappings that stored JSON stands for. -/
  readMappings : String → List Mapping
  /-- The headers that stored JSON stands for. -/
  readHeaders : String → Fields
  /-- `buildUrl`, which throws where the result is no URL. -/
  buildUrl : String → Fields → Fields → Option String

/-- What `dispatch` is called with besides the configuration. -/
structure Payment where
  message : Fields
  transaction : Fields
  correlationId : String
  idempotencyKey : String

/-- `decryptObject`. -/
def decryptObject (setting : Setting) :
    Option (Ciphertext (List (String × String))) → Option Fields
  | none => some []
  | some ciphertext =>
    if setting.hasKey then
      some (ciphertext.content.map fun entry => (entry.1, Value.text entry.2))
    else none

section Dispatch

variable (environment : Environment)

/-- The context of `dispatch`. -/
def Environment.context (config : Config) (payment : Payment) : Option MappingContext :=
  (decryptObject environment.setting config.auth.secretsCiphertext).map fun secret =>
    { message := payment.message
      transaction := payment.transaction
      system :=
        [("correlationId", .text payment.correlationId),
          ("idempotencyKey", .text payment.idempotencyKey),
          ("callbackUrl", .text environment.callbackUrl),
          ("configurationVersion", .number (.finite config.version))]
      secret := secret }

/-- What `map` makes of stored mappings, where it does not throw. -/
def Environment.mapped (mappings : String) (context : MappingContext) : Option MappedRequest :=
  (FieldMapping.map environment.runtime (environment.readMappings mappings) context).toOption

/-- The URL of the request, where it can be built. -/
def Environment.requestUrl (config : Config) (context : MappingContext) : Option String := do
  let apiUrl ← config.apiUrl.filter (· ≠ "")
  let mapped ← environment.mapped config.requestMapping context
  environment.buildUrl apiUrl mapped.path mapped.query

/-- The fields of the first object with those of the second over them. -/
def spread (first second : Fields) : Fields :=
  second.foldl (fun fields entry => assign entry.1 entry.2 fields) first

/-- A login. -/
structure LoginRequest where
  url : String
  method : String
  headers : Fields
  body : Fields

/-- The login that `bearerHeader` performs. -/
def Environment.loginRequest (config : Config) (context : MappingContext) :
    Option LoginRequest := do
  let loginUrl ← config.auth.loginUrl.filter (· ≠ "")
  let _ ← config.auth.tokenPath.filter (· ≠ "")
  let mapped ← environment.mapped config.auth.loginMapping context
  let url ← environment.buildUrl loginUrl mapped.path mapped.query
  some
    { url := url
      method := config.auth.loginMethod
      headers :=
        spread (spread [("content-type", .text "application/json"),
            ("accept", .text "application/json")] (environment.readHeaders config.auth.loginHeaders))
          mapped.headers
      body := mapped.body }

/-- The token in the answer to a login: a text that is not empty. -/
def Environment.readToken (config : Config) (body : Value) : Option String := do
  let path ← config.auth.tokenPath
  match MerchantResponses.readBody environment.runtime.toLanguage body path with
  | .text token => if token = "" then none else some token
  | _ => none

/-- What stands at the path of the lifetime, where one is configured. -/
def Environment.lifetime (config : Config) (body : Value) : Option Value :=
  (config.auth.expiresInPath.filter (· ≠ "")).map fun path =>
    MerchantResponses.readBody environment.runtime.toLanguage body path

/-- `expirySeconds`; `Number` can throw. -/
def Environment.expirySeconds (config : Config) (body : Value) : Option ℚ :=
  match environment.lifetime config body with
  | none => some 300
  | some value =>
    (value.toNumber environment.runtime.toLanguage).map fun number =>
      match number with
      | .finite seconds => if 0 < seconds then seconds else 300
      | _ => 300

/-- The seconds that a login announces: a number, or a text of one. -/
def Environment.announced (config : Config) (body : Value) : Option ℚ :=
  match environment.lifetime config body with
  | some (.number (.finite seconds)) => some seconds
  | some (.text text) =>
    match environment.runtime.readNumber text with
    | .finite seconds => some seconds
    | _ => none
  | _ => none

end Dispatch

/-! ## State -/

/-- `CachedToken`, with the configuration and the context of the login that gave it, when it did,
and the seconds that it announced. -/
structure CachedToken where
  value : String
  expiresAt : ℚ
  config : Config
  context : MappingContext
  obtainedAt : ℕ
  announced : Option ℚ

/-- The announced lifetime of a token has not ended. -/
def CachedToken.Lasts (token : CachedToken) (time : ℕ) : Prop :=
  ∀ seconds ∈ token.announced, (time : ℚ) < token.obtainedAt + seconds * 1000

/-- Where a call of `dispatch` stands. -/
inductive Phase
  | configured
  | login (context : MappingContext)
  | sent (context : MappingContext) (token : CachedToken) (attempts : ℕ)

/-- A call of `dispatch` with the configuration that it was given. -/
structure Call where
  config : Config
  phase : Phase

/-- A request that has been sent with a bearer header. -/
structure Request where
  url : String
  config : Config
  context : MappingContext
  header : String × String
  token : CachedToken
  time : ℕ

/-- The database, the clock, the tokens of the process by their configuration, the calls, and the
requests that have been sent. -/
structure State where
  integrations : Integrations.State
  now : ℕ := 0
  tokens : ℕ → Option CachedToken := fun _ => none
  calls : ℕ → Option Call := fun _ => none
  requests : List Request := []

/-- What happens. -/
inductive Event
  | configure (event : Integrations.Event)
  | read (id msisdn : ℕ)
  | dispatch (id : ℕ) (payment : Payment)
  | answer (id : ℕ) (ok : Bool) (body : Value)
  | retry (id : ℕ)
  | drop (id : ℕ)
  | restart
  | wait (milliseconds : ℕ)

/-- A token of a configuration that `bearerHeader` takes from memory. -/
def State.live (state : State) (config : Config) : Option CachedToken :=
  (state.tokens config.merchantMsisdn).filter fun token => (state.now : ℚ) + 30000 < token.expiresAt

def bearerHeader (config : Config) (token : CachedToken) : String × String :=
  (config.auth.finalHeader,
    String.ofList (Credit.Conditions.trim (config.auth.tokenPrefix ++ " " ++ token.value)))

/-- The request is sent, unless its URL cannot be built. -/
def State.send (environment : Environment) (state : State) (id : ℕ) (config : Config)
    (context : MappingContext) (token : CachedToken) (attempts : ℕ) : State :=
  match environment.requestUrl config context with
  | none => { state with calls := Function.update state.calls id none }
  | some url =>
    { state with
      calls := Function.update state.calls id
        (some { config := config, phase := .sent context token attempts })
      requests := state.requests ++
        [{ url := url, config := config, context := context
           header := bearerHeader config token, token := token, time := state.now }] }

/-- `getRuntimeConfig` of an active integration over HTTP. -/
def State.read (state : State) (id msisdn : ℕ) : Option State := do
  let config ← state.integrations.configs.find? msisdn
  if config.isActive ∧ state.integrations.channel? msisdn = some .api ∧ state.calls id = none then
    some { state with
      calls := Function.update state.calls id (some { config := config, phase := .configured }) }
  else none

/-- `dispatch` up to its request or its login. -/
def State.dispatch (environment : Environment) (state : State) (id : ℕ) (payment : Payment) :
    Option State := do
  let call ← state.calls id
  let context ← environment.context call.config payment
  match call.phase with
  | .configured =>
    if call.config.auth.authType = .loginBearer ∧ truthy call.config.apiUrl = true ∧
        (environment.mapped call.config.requestMapping context).isSome then
      match state.live call.config with
      | some token => some (state.send environment id call.config context token 1)
      | none =>
        (environment.loginRequest call.config context).map fun _ =>
          { state with
            calls := Function.update state.calls id
              (some { call with phase := .login context }) }
    else none
  | _ => none

/-- `bearerHeader` with the answer to its login, and the request. -/
def State.answer (environment : Environment) (state : State) (id : ℕ) (ok : Bool)
    (body : Value) : Option State := do
  let call ← state.calls id
  match call.phase with
  | .login context =>
    if ok && MerchantResponses.isObject body then do
      let value ← environment.readToken call.config body
      let seconds ← environment.expirySeconds call.config body
      let token : CachedToken :=
        { value := value
          expiresAt := state.now + seconds * 1000
          config := call.config
          context := context
          obtainedAt := state.now
          announced := environment.announced call.config body }
      some ({ state with
        tokens := Function.update state.tokens call.config.merchantMsisdn (some token) }.send
          environment id call.config context token 1)
    else none
  | _ => none

/-- `fetchWithRetries` sends the request again. -/
def State.retry (environment : Environment) (state : State) (id : ℕ) : Option State := do
  let call ← state.calls id
  match call.phase with
  | .sent context token attempts =>
    if attempts ≤ call.config.maxRetries then
      some (state.send environment id call.config context token (attempts + 1))
    else none
  | _ => none

/-- One event; a call that throws is dropped, and a new process remembers nothing. -/
def step (environment : Environment) (state : State) : Event → Option State
  | .configure event =>
    (Integrations.step environment.setting state.integrations event).map fun integrations =>
      { state with integrations := integrations }
  | .read id msisdn => state.read id msisdn
  | .dispatch id payment => state.dispatch environment id payment
  | .answer id ok body => state.answer environment id ok body
  | .retry id => state.retry environment id
  | .drop id => some { state with calls := Function.update state.calls id none }
  | .restart => some { state with tokens := fun _ => none, calls := fun _ => none }
  | .wait milliseconds => some { state with now := state.now + milliseconds }

end Finify.Delivery.BearerTokens
