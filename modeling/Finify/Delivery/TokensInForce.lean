/-
# Tokens and the credentials in force

The memory of tokens knows configurations but not their versions, and not the payment that a login
was performed for: a token outlives a change of the credentials, and is sent with payments that log
in differently.  A request that is sent again keeps its header for as long as it is tried.
-/

import Finify.Delivery.BearerTokens

namespace Finify.Delivery.BearerTokens

open Foundations
open Credit.Conditions (Value)
open FieldMapping (Fields Mapping MappingContext readPath)
open Integrations (Config)

/-! ## What a bearer header promises -/

def payment (context : MappingContext) : MappingContext :=
  { context with system := [], secret := [] }

/-- A login for a configuration and a context is one for another: it has the same URL, mapping,
headers and secrets, and reads the same of the payment. -/
structure SameLogin (environment : Environment) (config : Config) (context : MappingContext)
    (token : CachedToken) : Prop where
  loginUrl : token.config.auth.loginUrl = config.auth.loginUrl
  loginMapping : token.config.auth.loginMapping = config.auth.loginMapping
  loginHeaders : token.config.auth.loginHeaders = config.auth.loginHeaders
  secrets : token.config.auth.secretsCiphertext = config.auth.secretsCiphertext
  reads : ∀ mapping ∈ environment.readMappings config.auth.loginMapping,
    mapping.source ≠ "literalValue" →
      readPath environment.runtime.toLanguage (payment token.context).toFields mapping.source =
        readPath environment.runtime.toLanguage (payment context).toFields mapping.source

/-- The header of a request holds a token of the login in force, whose lifetime lasts. -/
structure Request.Belongs (environment : Environment) (request : Request) : Prop where
  header : request.header = bearerHeader request.config request.token
  login : SameLogin environment request.config request.context request.token
  lasts : request.token.Lasts request.time

/-- The headers of all requests hold tokens of the login in force. -/
def State.Kept (environment : Environment) (state : State) : Prop :=
  ∀ request ∈ state.requests, request.Belongs environment

/-- The lifetime that a login announced is one. -/
def CachedToken.IsLasting (token : CachedToken) : Prop := ∀ seconds ∈ token.announced, 0 < seconds

/-- A token that is found in memory is of the same login, no request is sent with a token whose
announced lifetime is not positive, and none is sent again after the end of its token. -/
def Orderly (environment : Environment) (state : State) : Event → Prop
  | .dispatch id payment =>
    ∀ call ∈ state.calls id, ∀ context ∈ environment.context call.config payment,
      ∀ token ∈ state.live call.config, (environment.requestUrl call.config context).isSome →
        SameLogin environment call.config context token ∧ token.IsLasting
  | .answer id _ body =>
    ∀ call ∈ state.calls id, ∀ context, call.phase = .login context →
      (environment.requestUrl call.config context).isSome →
        ∀ seconds ∈ environment.announced call.config body, 0 < seconds
  | .retry id =>
    ∀ call ∈ state.calls id, ∀ context token attempts,
      call.phase = .sent context token attempts →
        (environment.requestUrl call.config context).isSome → token.Lasts state.now
  | _ => True

/-- What holds of the memory and of the calls that have sent a request. -/
structure State.Sound (environment : Environment) (state : State) : Prop where
  kept : state.Kept environment
  cached : ∀ msisdn, ∀ token ∈ state.tokens msisdn,
    token.obtainedAt ≤ state.now ∧
      ∀ seconds ∈ token.announced, 0 < seconds →
        token.expiresAt = token.obtainedAt + seconds * 1000
  sent : ∀ id, ∀ call ∈ state.calls id, ∀ context token attempts,
    call.phase = .sent context token attempts →
      SameLogin environment call.config context token

variable {environment : Environment} {state after : State}

/-! ## Sending -/

section Sending

variable {id attempts : ℕ} {config : Config} {context : MappingContext} {token : CachedToken}

/-- The request that is sent belongs where its token does. -/
theorem kept_send :
    (state.send environment id config context token attempts).Kept environment ↔
      state.Kept environment ∧ ((environment.requestUrl config context).isSome →
        SameLogin environment config context token ∧ token.Lasts state.now) := by
  unfold State.send
  cases environment.requestUrl config context with
  | none =>
    show state.Kept environment ↔ _
    exact (and_iff_left fun h => absurd h Bool.false_ne_true).symm
  | some url =>
    unfold State.Kept
    dsimp only
    rw [List.forall_mem_append, List.forall_mem_singleton]
    apply and_congr_right
    intro _
    constructor
    · exact fun hbelongs _ => ⟨hbelongs.login, hbelongs.lasts⟩
    · intro hholds
      obtain ⟨hlogin, hlasts⟩ := hholds rfl
      exact ⟨rfl, hlogin, hlasts⟩

theorem send_tokens : (state.send environment id config context token attempts).tokens =
    state.tokens := by
  unfold State.send
  cases environment.requestUrl config context <;> rfl

theorem send_now : (state.send environment id config context token attempts).now = state.now := by
  unfold State.send
  cases environment.requestUrl config context <;> rfl

theorem mem_calls_send {other : ℕ} {call : Call}
    (hcall : call ∈ (state.send environment id config context token attempts).calls other) :
    call ∈ state.calls other ∨
      ((environment.requestUrl config context).isSome ∧
        call = { config := config, phase := .sent context token attempts }) := by
  unfold State.send at hcall
  by_cases hother : other = id
  · subst hother
    cases hurl : environment.requestUrl config context with
    | none =>
      rw [hurl] at hcall
      dsimp only at hcall
      rw [Function.update_self] at hcall
      cases hcall
    | some url =>
      rw [hurl] at hcall
      dsimp only at hcall
      rw [Function.update_self] at hcall
      cases hcall
      exact Or.inr ⟨rfl, rfl⟩
  · left
    cases hurl : environment.requestUrl config context with
    | none | some url =>
      rw [hurl] at hcall
      dsimp only at hcall
      rwa [Function.update_of_ne hother] at hcall

/-- A request with a token that belongs. -/
theorem State.Sound.send (hsound : state.Sound environment)
    (hholds : (environment.requestUrl config context).isSome →
      SameLogin environment config context token ∧ token.Lasts state.now) :
    (state.send environment id config context token attempts).Sound environment where
  kept := kept_send.mpr ⟨hsound.kept, hholds⟩
  cached := by
    intro msisdn other hother
    rw [send_tokens] at hother
    rw [send_now]
    exact hsound.cached msisdn other hother
  sent := by
    intro other call hcall context' token' attempts' hphase
    rcases mem_calls_send hcall with hcall | ⟨hurl, rfl⟩
    · exact hsound.sent other call hcall context' token' attempts' hphase
    · cases hphase
      exact (hholds hurl).1

end Sending

/-! ## What a step does -/

/-- A dispatch sends with a token from memory, or logs in. -/
theorem dispatch_eq_some {id : ℕ} {payment : Payment}
    (hstep : state.dispatch environment id payment = some after) :
    ∃ call context, state.calls id = some call ∧
      environment.context call.config payment = some context ∧
      ((∃ token, state.live call.config = some token ∧
          after = state.send environment id call.config context token 1) ∨
        (state.live call.config = none ∧
          after = { state with
            calls := Function.update state.calls id
              (some { call with phase := .login context }) })) := by
  obtain ⟨call, hcall, hstep⟩ := Option.bind_eq_some_iff.mp hstep
  obtain ⟨context, hcontext, hstep⟩ := Option.bind_eq_some_iff.mp hstep
  refine ⟨call, context, hcall, hcontext, ?_⟩
  cases hphase : call.phase with
  | configured =>
    rw [hphase] at hstep
    dsimp only at hstep
    split at hstep
    · cases hlive : state.live call.config with
      | some token =>
        rw [hlive] at hstep
        exact Or.inl ⟨token, rfl, (Option.some.inj hstep).symm⟩
      | none =>
        rw [hlive] at hstep
        obtain ⟨_, _, rfl⟩ := Option.map_eq_some_iff.mp hstep
        exact Or.inr ⟨rfl, rfl⟩
    · cases hstep
  | login | sent =>
    rw [hphase] at hstep
    cases hstep

/-- An answer puts a token into memory and sends with it. -/
theorem answer_eq_some {id : ℕ} {ok : Bool} {body : Value}
    (hstep : state.answer environment id ok body = some after) :
    ∃ call context value seconds, state.calls id = some call ∧ call.phase = .login context ∧
      environment.expirySeconds call.config body = some seconds ∧
      ∃ token : CachedToken,
        token = { value := value, expiresAt := state.now + seconds * 1000, config := call.config
                  context := context, obtainedAt := state.now
                  announced := environment.announced call.config body } ∧
        after = { state with
          tokens := Function.update state.tokens call.config.merchantMsisdn (some token) }.send
            environment id call.config context token 1 := by
  obtain ⟨call, hcall, hstep⟩ := Option.bind_eq_some_iff.mp hstep
  cases hphase : call.phase with
  | configured | sent =>
    rw [hphase] at hstep
    cases hstep
  | login context =>
    rw [hphase] at hstep
    dsimp only at hstep
    split at hstep
    · obtain ⟨value, _, hstep⟩ := Option.bind_eq_some_iff.mp hstep
      obtain ⟨seconds, hseconds, hstep⟩ := Option.bind_eq_some_iff.mp hstep
      exact ⟨call, context, value, seconds, hcall, hphase, hseconds, _, rfl,
        (Option.some.inj hstep).symm⟩
    · cases hstep

/-- A request that is sent again keeps its token. -/
theorem retry_eq_some {id : ℕ} (hstep : state.retry environment id = some after) :
    ∃ call context token attempts, state.calls id = some call ∧
      call.phase = .sent context token attempts ∧
      after = state.send environment id call.config context token (attempts + 1) := by
  obtain ⟨call, hcall, hstep⟩ := Option.bind_eq_some_iff.mp hstep
  cases hphase : call.phase with
  | configured | login =>
    rw [hphase] at hstep
    cases hstep
  | sent context token attempts =>
    rw [hphase] at hstep
    dsimp only at hstep
    split at hstep
    · exact ⟨call, context, token, attempts, hcall, hphase, (Option.some.inj hstep).symm⟩
    · cases hstep

/-- The seconds that a login announces are those that its token is kept for. -/
theorem expirySeconds_of_announced {config : Config} {body : Value} {seconds announced : ℚ}
    (hseconds : environment.expirySeconds config body = some seconds)
    (hannounced : environment.announced config body = some announced) (hpos : 0 < announced) :
    seconds = announced := by
  unfold Environment.announced at hannounced
  unfold Environment.expirySeconds at hseconds
  cases hvalue : environment.lifetime config body with
  | none =>
    rw [hvalue] at hannounced
    cases hannounced
  | some value =>
    rw [hvalue] at hannounced hseconds
    have hkept : ∀ number : Credit.Conditions.Number, number = .finite announced →
        value.toNumber environment.runtime.toLanguage = some number → seconds = announced := by
      intro number hnumber hto
      dsimp only at hseconds
      rw [hto, hnumber, Option.map_some] at hseconds
      exact (Option.some.inj hseconds).symm.trans (if_pos hpos)
    cases value with
    | number number =>
      cases number with
      | finite found =>
        cases hannounced
        exact hkept _ rfl rfl
      | infinite | nan => cases hannounced
    | text text =>
      dsimp only at hannounced
      cases hread : environment.runtime.readNumber text with
      | finite found =>
        rw [hread] at hannounced
        cases hannounced
        exact hkept _ rfl (congrArg some hread)
      | infinite | nan =>
        rw [hread] at hannounced
        cases hannounced
    | _ => cases hannounced

theorem SameLogin.self {token : CachedToken} :
    SameLogin environment token.config token.context token :=
  ⟨rfl, rfl, rfl, rfl, fun _ _ _ => rfl⟩

/-- A token of a login that has just answered lasts if what it announces is a lifetime. -/
theorem lasts_iff_now {token : CachedToken} :
    token.Lasts token.obtainedAt ↔ token.IsLasting := by
  apply forall₂_congr
  intro seconds _
  constructor <;> intro h <;> linarith

/-- A token that is found in memory lasts if what its login announced was a lifetime. -/
theorem State.Sound.lasts_iff (hsound : state.Sound environment) {config : Config}
    {token : CachedToken} (hlive : state.live config = some token) :
    token.Lasts state.now ↔ token.IsLasting := by
  obtain ⟨hmem, hexpires⟩ := Option.filter_eq_some_iff.mp hlive
  rw [decide_eq_true_eq] at hexpires
  obtain ⟨hobtained, hends⟩ := hsound.cached _ token hmem
  have hobtained' : (token.obtainedAt : ℚ) ≤ state.now := by exact_mod_cast hobtained
  apply forall₂_congr
  intro seconds hseconds
  constructor
  · intro hlasts
    linarith
  · intro hpos
    have := hends seconds hseconds hpos
    linarith

/-! ## Steps and runs -/

/-- The property is kept by a step exactly if it is orderly. -/
theorem State.Sound.kept_iff (hsound : state.Sound environment) {event : Event}
    (hstep : step environment state event = some after) :
    after.Kept environment ↔ Orderly environment state event := by
  have hkept := hsound.kept
  cases event with
  | configure event =>
    obtain ⟨_, _, rfl⟩ := Option.map_eq_some_iff.mp hstep
    exact iff_of_true hkept trivial
  | read id msisdn =>
    obtain ⟨config, _, hstep⟩ := Option.bind_eq_some_iff.mp hstep
    split at hstep
    · cases hstep
      exact iff_of_true hkept trivial
    · cases hstep
  | dispatch id payment =>
    obtain ⟨call, context, hcall, hcontext, ⟨token, hlive, rfl⟩ | ⟨hlive, rfl⟩⟩ :=
      dispatch_eq_some hstep
    · rw [kept_send, and_iff_right hkept, hsound.lasts_iff hlive]
      constructor
      · intro hholds other hother found hfound stored hstored hurl
        cases hcall.symm.trans hother
        cases hcontext.symm.trans hfound
        cases hlive.symm.trans hstored
        exact hholds hurl
      · intro horderly hurl
        exact horderly call hcall context hcontext token hlive hurl
    · refine iff_of_true hkept ?_
      intro other hother found _ stored hstored
      cases hcall.symm.trans hother
      cases hlive.symm.trans hstored
  | answer id ok body =>
    obtain ⟨call, context, value, seconds, hcall, hphase, _, token, htoken, rfl⟩ :=
      answer_eq_some hstep
    rw [kept_send]
    have hobtained : token.obtainedAt = state.now := by rw [htoken]
    have hlogin : SameLogin environment call.config context token := by
      have hself : SameLogin environment token.config token.context token := SameLogin.self
      rwa [htoken] at hself ⊢
    have hannounced : token.announced = environment.announced call.config body := by rw [htoken]
    have hlasts : token.Lasts state.now ↔
        ∀ seconds ∈ environment.announced call.config body, 0 < seconds := by
      rw [← hobtained, lasts_iff_now, CachedToken.IsLasting, hannounced]
    constructor
    · rintro ⟨_, hholds⟩ other hother found hfound hurl
      cases hcall.symm.trans hother
      cases hphase.symm.trans hfound
      exact hlasts.mp (hholds hurl).2
    · intro horderly
      refine ⟨hkept, fun hurl => ⟨hlogin, hlasts.mpr ?_⟩⟩
      exact horderly call hcall context hphase hurl
  | retry id =>
    obtain ⟨call, context, token, attempts, hcall, hphase, rfl⟩ := retry_eq_some hstep
    rw [kept_send, and_iff_right hkept]
    have hlogin := hsound.sent id call hcall context token attempts hphase
    constructor
    · intro hholds other hother found stored count hfound hurl
      cases hcall.symm.trans hother
      cases hphase.symm.trans hfound
      exact (hholds hurl).2
    · intro horderly hurl
      exact ⟨hlogin, horderly call hcall context token attempts hphase hurl⟩
  | drop id | restart | wait milliseconds =>
    cases hstep
    exact iff_of_true hkept trivial

/-- A call that has not sent a request moves, or ends. -/
theorem State.Sound.move (hsound : state.Sound environment) (id : ℕ) (next : Option Call)
    (hnext : ∀ call ∈ next, ∀ context token attempts,
      call.phase ≠ .sent context token attempts) :
    { state with calls := Function.update state.calls id next }.Sound environment where
  kept := hsound.kept
  cached := hsound.cached
  sent := by
    intro other call hcall context token attempts hphase
    by_cases hother : other = id
    · subst hother
      dsimp only at hcall
      rw [Function.update_self] at hcall
      exact absurd hphase (hnext call hcall context token attempts)
    · dsimp only at hcall
      rw [Function.update_of_ne hother] at hcall
      exact hsound.sent other call hcall context token attempts hphase

/-- A token that its login has just given is put into memory. -/
theorem State.Sound.remember (hsound : state.Sound environment) (msisdn : ℕ)
    {token : CachedToken} (hobtained : token.obtainedAt = state.now)
    (hexpires : ∀ seconds ∈ token.announced, 0 < seconds →
      token.expiresAt = token.obtainedAt + seconds * 1000) :
    { state with tokens := Function.update state.tokens msisdn (some token) }.Sound
      environment where
  kept := hsound.kept
  cached := by
    intro other stored hstored
    dsimp only at hstored ⊢
    by_cases hother : other = msisdn
    · subst hother
      rw [Function.update_self] at hstored
      cases hstored
      exact ⟨hobtained.le, hexpires⟩
    · rw [Function.update_of_ne hother] at hstored
      exact hsound.cached other stored hstored
  sent := hsound.sent

/-- Orderly steps preserve what holds of the memory and of the calls. -/
theorem State.Sound.step (hsound : state.Sound environment) {event : Event}
    (horderly : Orderly environment state event)
    (hstep : step environment state event = some after) : after.Sound environment := by
  have hkept := (hsound.kept_iff hstep).mpr horderly
  cases event with
  | configure event =>
    obtain ⟨_, _, rfl⟩ := Option.map_eq_some_iff.mp hstep
    exact ⟨hkept, hsound.cached, hsound.sent⟩
  | read id msisdn =>
    obtain ⟨config, _, hstep⟩ := Option.bind_eq_some_iff.mp hstep
    split at hstep
    · cases hstep
      exact hsound.move id _ (by rintro _ ⟨⟩ _ _ _ ⟨⟩)
    · cases hstep
  | dispatch id payment =>
    obtain ⟨call, context, hcall, hcontext, ⟨token, hlive, rfl⟩ | ⟨hlive, rfl⟩⟩ :=
      dispatch_eq_some hstep
    · exact hsound.send (kept_send.mp hkept).2
    · exact hsound.move id _ (by rintro _ ⟨⟩ _ _ _ ⟨⟩)
  | answer id ok body =>
    obtain ⟨call, context, value, seconds, hcall, hphase, hseconds, token, htoken, rfl⟩ :=
      answer_eq_some hstep
    have hobtained : token.obtainedAt = state.now := by rw [htoken]
    have hexpires : ∀ announced ∈ token.announced, 0 < announced →
        token.expiresAt = token.obtainedAt + announced * 1000 := by
      intro announced hannounced hpos
      rw [htoken] at hannounced ⊢
      rw [← expirySeconds_of_announced hseconds hannounced hpos]
    exact (hsound.remember call.config.merchantMsisdn hobtained hexpires).send
      (kept_send.mp hkept).2
  | retry id =>
    obtain ⟨call, context, token, attempts, hcall, hphase, rfl⟩ := retry_eq_some hstep
    exact hsound.send (kept_send.mp hkept).2
  | drop id =>
    cases hstep
    exact hsound.move id none (by rintro _ ⟨⟩)
  | restart =>
    cases hstep
    exact ⟨hsound.kept, by rintro _ _ ⟨⟩, by rintro _ _ ⟨⟩⟩
  | wait milliseconds =>
    cases hstep
    refine ⟨hsound.kept, ?_, hsound.sent⟩
    intro msisdn token htoken
    obtain ⟨hobtained, hends⟩ := hsound.cached msisdn token htoken
    exact ⟨hobtained.trans (Nat.le_add_right _ _), hends⟩

/-- A process that has just started. -/
structure State.Opening (state : State) : Prop where
  tokens : state.tokens = fun _ => none
  calls : state.calls = fun _ => none
  requests : state.requests = []

theorem State.Opening.sound (hopening : state.Opening) : state.Sound environment where
  kept := by
    intro request hrequest
    rw [hopening.requests] at hrequest
    cases hrequest
  cached := by
    intro msisdn token htoken
    rw [hopening.tokens] at htoken
    cases htoken
  sent := by
    intro id call hcall
    rw [hopening.calls] at hcall
    cases hcall

/-- In every run of orderly steps the headers of all requests hold tokens of the login in force
whose lifetime lasts, and a further step keeps this exactly if it is orderly. -/
theorem tokens_in_force (environment : Environment) {start state : State}
    (hopening : start.Opening)
    (hrun : ReachesUnder (step environment) (Orderly environment) start state) :
    state.Kept environment ∧ ∀ event after, step environment state event = some after →
      (after.Kept environment ↔ Orderly environment state event) := by
  have hsound : state.Sound environment :=
    hrun.preserves (State.Sound environment)
      (fun _ _ _ hbefore horderly hstep => hbefore.step horderly hstep) hopening.sound
  exact ⟨hsound.kept, fun _ _ hstep => hsound.kept_iff hstep⟩

/-! ## Two versions, two payments -/

/-- Stored mappings are read as none, or as the one that logs in with the source of a payment. -/
def sandbox : Environment where
  runtime :=
    { Credit.Conditions.plain with
      lower := id
      fixed := fun value => toString value.num
      stringify := fun _ => some .undefined }
  setting := { production := true, hasKey := true, hmac := fun secret body => secret ++ body }
  callbackUrl := "http://localhost:5003/v1/merchant-confirmations"
  readMappings text :=
    if text = "[]" then [] else [{ source := "message.Source", target := "account" }]
  readHeaders _ := []
  buildUrl base _ _ := some base

/-- A merchant without a configuration. -/
def soleMerchant : State where
  integrations :=
    { merchants := .single { msisdn := 7, integrationChannel := none }
      configs := .empty
      history := [] }

/-- An active API integration that logs in with a password and with the given mapping. -/
def loginBearer (password mapping : String) : Event :=
  .configure (.upsert 7
    { channel := .api
      active := some true
      apiUrl := some "https://merchant.example.com/payments"
      auth := some
        { type := .loginBearer
          loginUrl := some "https://merchant.example.com/auth/login"
          loginMapping := some mapping
          tokenPath := some "token"
          secrets := some [("password", password)] } })

def paymentFrom (source : String) : Payment where
  message := [("Source", .text source)]
  transaction := []
  correlationId := "correlation"
  idempotencyKey := "key"

def tokenBody : Value := .object [("token", .text "token")]

theorem eq_of_is {first second : String} {value : Value} (hfirst : value.is first = true)
    (hsecond : value.is second = true) : first = second := by
  cases value with
  | text found => exact (of_decide_eq_true hfirst).symm.trans (of_decide_eq_true hsecond)
  | _ => cases hfirst

/-- What the login mapping of the sandbox reads of a request. -/
def sourceOf (context : MappingContext) : Value :=
  readPath sandbox.runtime.toLanguage (payment context).toFields "message.Source"

/-- A change of the password is followed by a request with the token of the old one, and a payment
from one wallet is sent with a token that another has logged in for. -/
theorem token_outlives_credentials :
    (∃ state, Reaches (step sandbox) soleMerchant state ∧ ¬ state.Kept sandbox ∧
      ∃ request ∈ state.requests, request.config.version = 2 ∧ request.token.config.version = 1 ∧
        request.token.config.auth.secretsCiphertext ≠ request.config.auth.secretsCiphertext) ∧
    ∃ state, Reaches (step sandbox) soleMerchant state ∧ ¬ state.Kept sandbox ∧
      ∃ request ∈ state.requests, request.config.auth.loginMapping = "[Source]" ∧
        (sourceOf request.token.context).is "447700000001" = true ∧
        (sourceOf request.context).is "447700000002" = true := by
  constructor
  · have hany : (runInputs (step sandbox) soleMerchant
        [loginBearer "first" "[]", .read 1 7, .dispatch 1 (paymentFrom "447700000001"),
          .answer 1 true tokenBody, loginBearer "second" "[]", .read 2 7,
          .dispatch 2 (paymentFrom "447700000002")]).any (fun state =>
            state.requests.any fun request =>
              decide (request.config.version = 2 ∧ request.token.config.version = 1 ∧
                request.token.config.auth.secretsCiphertext ≠
                  request.config.auth.secretsCiphertext)) = true := by
      decide +kernel
    obtain ⟨state, hrun, hfacts⟩ := (Option.any_eq_true _ _).mp hany
    obtain ⟨request, hrequest, hfacts⟩ := List.any_eq_true.mp hfacts
    have hversions := of_decide_eq_true hfacts
    refine ⟨state, Reaches.of_runInputs hrun, ?_, request, hrequest, hversions⟩
    intro hkept
    exact hversions.2.2 (hkept request hrequest).login.secrets
  · have hany : (runInputs (step sandbox) soleMerchant
        [loginBearer "first" "[Source]", .read 1 7, .dispatch 1 (paymentFrom "447700000001"),
          .answer 1 true tokenBody, .read 2 7,
          .dispatch 2 (paymentFrom "447700000002")]).any (fun state =>
            state.requests.any fun request =>
              decide (request.config.auth.loginMapping = "[Source]" ∧
                (sourceOf request.token.context).is "447700000001" = true ∧
                (sourceOf request.context).is "447700000002" = true)) = true := by
      decide +kernel
    obtain ⟨state, hrun, hfacts⟩ := (Option.any_eq_true _ _).mp hany
    obtain ⟨request, hrequest, hfacts⟩ := List.any_eq_true.mp hfacts
    obtain ⟨hmapping, hfirst, hsecond⟩ := of_decide_eq_true hfacts
    refine ⟨state, Reaches.of_runInputs hrun, ?_, request, hrequest, hmapping, hfirst, hsecond⟩
    intro hkept
    have hread := (hkept request hrequest).login.reads
      { source := "message.Source", target := "account" }
      (by rw [hmapping]; exact List.mem_singleton_self _) (by decide)
    have hsame : sourceOf request.token.context = sourceOf request.context := hread
    rw [hsame] at hfirst
    exact absurd (eq_of_is hfirst hsecond) (by decide)

/-- No token is found in memory, none announces its lifetime, and no request is sent again. -/
def Quiet (state : State) : Event → Bool
  | .dispatch id _ => (state.calls id).all fun call => (state.live call.config).isNone
  | .answer id _ body =>
    (state.calls id).all fun call => (sandbox.announced call.config body).isNone
  | .retry _ => false
  | _ => true

theorem orderly_of_quiet {event : Event} (hquiet : Quiet state event = true) :
    Orderly sandbox state event := by
  cases event with
  | dispatch id payment =>
    intro call hcall context _ token htoken
    have hnone : (state.calls id).all (fun call => (state.live call.config).isNone) = true :=
      hquiet
    rw [hcall, Option.all_some, htoken] at hnone
    cases hnone
  | answer id ok body =>
    intro call hcall context _ _ seconds hseconds
    have hnone : (state.calls id).all
        (fun call => (sandbox.announced call.config body).isNone) = true := hquiet
    rw [hcall, Option.all_some, hseconds] at hnone
    cases hnone
  | retry id => cases hquiet
  | _ => trivial

/-- A merchant is logged in at for one payment. -/
theorem tokens_in_force_first :
    ∃ state, ReachesUnder (step sandbox) (Orderly sandbox) soleMerchant state ∧
      state.requests.length = 1 ∧ state.Kept sandbox := by
  have hany : (runInputs (guardedStep (step sandbox) fun state event => Quiet state event = true)
      soleMerchant [loginBearer "first" "[Source]", .read 1 7,
        .dispatch 1 (paymentFrom "447700000001"), .answer 1 true tokenBody]).any (fun state =>
          decide (state.requests.length = 1)) = true := by
    decide
  obtain ⟨state, hrun, hfacts⟩ := (Option.any_eq_true _ _).mp hany
  have hreaches : ReachesUnder (step sandbox) (Orderly sandbox) soleMerchant state :=
    (Reaches.of_runInputs hrun).under.mono fun _ _ => orderly_of_quiet
  exact ⟨state, hreaches, of_decide_eq_true hfacts,
    (tokens_in_force sandbox ⟨rfl, rfl, rfl⟩ hreaches).1⟩

end Finify.Delivery.BearerTokens
