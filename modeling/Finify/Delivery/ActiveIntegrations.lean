/-
# Active integrations are complete

A version that is saved as active is checked when it is saved, and what it was
checked for stays until the next version.  It is what its history row says, unless
secrets are carried over that the row does not mention; and an activation that is
no version leaves the history behind.
-/

import Finify.Delivery.Integrations
import Finify.Foundations.Transition

namespace Finify.Delivery.Integrations

open Foundations

section

variable {setting : Setting} {state : State} {config : Config} {dto : UpsertInput}

/-! ## The guard -/

/-- An active version is not left to unauthenticated callbacks in production, and gives its
authentication if secrets are stored; and only a version that was saved as active is activated. -/
def Orderly (setting : Setting) (state : State) : Event → Prop
  | .upsert merchantMsisdn dto =>
    dto.active = some true →
      (dto.channel = .kafka → dto.callbackAuthType = some .none → setting.production = false) ∧
        (dto.auth = none → ∀ config ∈ state.configs.find? merchantMsisdn,
          config.auth.secretsCiphertext = none)
  | .setActive merchantMsisdn active =>
    active = true → ∀ config ∈ state.configs.find? merchantMsisdn, ∀ row ∈ state.history,
      row.IsOf config → row.savedActive = true

/-! ## What is kept -/

/-- The versions of each merchant count from one, and the history row of a version that was saved
as active says what the configuration is once it is active. -/
structure State.Sound (setting : Setting) (state : State) : Prop where
  unsaved : ∀ msisdn, state.configs.find? msisdn = none →
    ∀ row ∈ state.history, row.merchantMsisdn ≠ msisdn
  versions : ∀ msisdn config, state.configs.find? msisdn = some config →
    ((state.history.filter fun row => row.merchantMsisdn = msisdn).map fun row => row.version) =
      List.range' 1 config.version
  recorded : ∀ msisdn config, state.configs.find? msisdn = some config →
    ∃ row ∈ state.history, row.IsOf config ∧ (row.savedActive = true →
      ∃ channel, state.channel? msisdn = some channel ∧
        row.publicConfig = (config.activated true).publicConfig channel ∧
        config.Carries setting (some channel))
  active : ∀ msisdn config, state.configs.find? msisdn = some config → config.isActive = true →
    ∀ row ∈ state.history, row.IsOf config → row.savedActive = true
  secrets : ∀ msisdn config, state.configs.find? msisdn = some config →
    ∀ ciphertext ∈ config.callbackSecretCiphertext,
      ciphertext.content ≠ "" ∧ setting.hasKey = true

theorem Config.merchantMsisdn_of_find? {msisdn : ℕ}
    (hfind : state.configs.find? msisdn = some config) : config.merchantMsisdn = msisdn :=
  (Table.find?_eq_some.mp hfind).2

/-- A version of a merchant has one history row. -/
theorem State.Sound.row_unique (hsound : state.Sound setting) {msisdn : ℕ}
    (hfind : state.configs.find? msisdn = some config) {row other : HistoryRow}
    (hrow : row ∈ state.history) (hother : other ∈ state.history) (hof : row.IsOf config)
    (hotherOf : other.IsOf config) : row = other := by
  have hmsisdn := Config.merchantMsisdn_of_find? hfind
  have hnodup : ((state.history.filter fun row => row.merchantMsisdn = msisdn).map
      fun row => row.version).Nodup := by
    rw [hsound.versions msisdn config hfind]
    exact List.nodup_range'
  apply List.inj_on_of_nodup_map hnodup
  · exact List.mem_filter.mpr ⟨hrow, by simpa using hof.1.trans hmsisdn⟩
  · exact List.mem_filter.mpr ⟨hother, by simpa using hotherOf.1.trans hmsisdn⟩
  · exact hof.2.trans hotherOf.2.symm

theorem Config.activated_of_active (hactive : config.isActive = true) :
    config.activated true = config := by
  cases config
  cases hactive
  rfl

/-- What is known of the configurations is what active ones promise. -/
theorem State.Sound.kept (hsound : state.Sound setting) : state.Kept setting := by
  have hfacts : ∀ config ∈ state.configs.rows, config.isActive = true →
      ∃ row ∈ state.history, row.IsOf config ∧ ∃ channel,
        state.channel? config.merchantMsisdn = some channel ∧
          row.publicConfig = config.publicConfig channel ∧ config.Carries setting (some channel) := by
    intro config hconfig hactive
    have hfind := Table.find?_key hconfig
    obtain ⟨row, hrow, hof, hsaved⟩ := hsound.recorded _ config hfind
    obtain ⟨channel, hchannel, hpublic, hcarries⟩ :=
      hsaved (hsound.active _ config hfind hactive row hrow hof)
    rw [Config.activated_of_active hactive] at hpublic
    exact ⟨row, hrow, hof, channel, hchannel, hpublic, hcarries⟩
  constructor
  case carries =>
    intro config hconfig hactive
    obtain ⟨_, _, _, channel, hchannel, _, hcarries⟩ := hfacts config hconfig hactive
    rw [hchannel]
    exact hcarries
  case described =>
    intro config hconfig hactive
    obtain ⟨row, hrow, hof, channel, hchannel, hpublic, _⟩ := hfacts config hconfig hactive
    exact ⟨row, hrow, hof, channel, hchannel, hpublic⟩
  case versions =>
    intro config hconfig
    exact hsound.versions _ config (Table.find?_key hconfig)

/-! ## Callbacks -/

theorem stripScheme_append (digest : String) : stripScheme ("sha256=" ++ digest) = digest := by
  have hlist : ("sha256=" ++ digest).toList = "sha256=".toList ++ digest.toList :=
    String.toList_append
  rw [stripScheme, hlist]
  have htake : ("sha256=".toList ++ digest.toList).take 7 = "sha256=".toList :=
    List.take_left' rfl
  have hdrop : ("sha256=".toList ++ digest.toList).drop 7 = digest.toList := List.drop_left' rfl
  rw [htake, hdrop, if_pos (by decide), String.ofList_toList]

/-- A callback with the stored secret passes. -/
theorem exists_callback {ciphertext : Ciphertext String}
    (hsecret : config.callbackSecretCiphertext = some ciphertext) (hcontent : ciphertext.content ≠ "")
    (hkey : setting.hasKey = true) (htype : config.callbackAuthType ≠ .none) :
    ∃ callback, authorize setting config callback = true := by
  have hopened : decryptString setting (some ciphertext) = some ciphertext.content := by
    rw [decryptString, if_pos hkey]
    rfl
  cases hcallback : config.callbackAuthType with
  | none => exact absurd hcallback htype
  | apiKey =>
    refine ⟨{ integrationKey := some ciphertext.content, finifySignature := none, rawBody := "" },
      ?_⟩
    simp [authorize, hcallback, verifyApiKey, hsecret, hopened, truthy, hcontent]
  | hmac =>
    let signature := "sha256=" ++ setting.hmac ciphertext.content ""
    refine ⟨{ integrationKey := none, finifySignature := some signature, rawBody := "" }, ?_⟩
    have hsignature : signature ≠ "" := by
      intro hempty
      have hlength := congrArg String.length hempty
      rw [String.length_append] at hlength
      simp at hlength
    simp [authorize, hcallback, verifyHmac, hsecret, hopened, truthy, hcontent, hsignature,
      signature, stripScheme_append]

/-! ## Saving -/

theorem State.upsert_eq_ok {msisdn : ℕ} {after : State}
    (hok : state.upsert setting msisdn dto = .ok after) :
    validate dto = .ok () ∧ (state.merchants.find? msisdn).isSome = true ∧
      (dto.encrypts = true → setting.hasKey = true) ∧
      (state.newConfig msisdn dto).lacksSecret dto.channel = false ∧
      after = state.save dto (state.newConfig msisdn dto) := by
  simp only [State.upsert] at hok
  cases hvalid : validate dto with
  | error message =>
    rw [hvalid] at hok
    cases hok
  | ok _ =>
    rw [hvalid] at hok
    cases hmerchant : state.merchants.find? msisdn with
    | none =>
      rw [hmerchant] at hok
      cases hok
    | some merchant =>
      rw [hmerchant] at hok
      dsimp only at hok
      split at hok
      next => cases hok
      next hkey =>
        split at hok
        next => cases hok
        next hlacks =>
          split at hok
          next =>
            refine ⟨rfl, rfl, ?_, by simpa using hlacks, (Except.ok.inj hok).symm⟩
            intro hencrypts
            by_contra hnone
            exact hkey ⟨hencrypts, by simpa using hnone⟩
          next => cases hok

theorem State.setActive_eq_ok {msisdn : ℕ} {active : Bool} {after : State}
    (hok : state.setActive msisdn active = .ok after) :
    after = { state with
      configs := state.configs.modify msisdn (Config.activated active)
        (Config.activated_merchantMsisdn active) } := by
  simp only [State.setActive] at hok
  split at hok
  next => cases hok
  next => exact (Except.ok.inj hok).symm

theorem State.find?_save (state : State) (dto : UpsertInput) (config : Config) (msisdn : ℕ) :
    (state.save dto config).configs.find? msisdn =
      if msisdn = config.merchantMsisdn then some config else state.configs.find? msisdn := by
  rw [State.save, Table.find?_upsert]
  split
  next hsame =>
    subst hsame
    cases hfind : state.configs.find? config.merchantMsisdn with
    | none => rfl
    | some old =>
      have hold := Config.merchantMsisdn_of_find? hfind
      rw [Option.elim_some, Config.over, hold]
  next => rfl

theorem State.channel?_save (dto : UpsertInput)
    (hmerchant : (state.merchants.find? config.merchantMsisdn).isSome) (msisdn : ℕ) :
    (state.save dto config).channel? msisdn =
      if msisdn = config.merchantMsisdn then some dto.channel else state.channel? msisdn := by
  rw [State.channel?, State.save, Table.find?_modify]
  split
  next hsame =>
    subst hsame
    obtain ⟨merchant, hfind⟩ := Option.isSome_iff_exists.mp hmerchant
    rw [hfind]
    rfl
  next => rfl

def newRow (dto : UpsertInput) (config : Config) : HistoryRow where
  merchantMsisdn := config.merchantMsisdn
  version := config.version
  integrationChannel := dto.channel
  configuration := historySnapshot dto config.callbackSecretCiphertext.isSome
    config.auth.secretsCiphertext.isSome
  changedBy := dto.changedBy

theorem mem_history_save {row : HistoryRow} :
    row ∈ (state.save dto config).history ↔ row ∈ state.history ∨ row = newRow dto config := by
  rw [State.save, List.mem_append, List.mem_singleton, newRow]

theorem State.filter_history_save (msisdn : ℕ) :
    ((state.save dto config).history.filter fun row => row.merchantMsisdn = msisdn) =
      (state.history.filter fun row => row.merchantMsisdn = msisdn) ++
        if config.merchantMsisdn = msisdn then [newRow dto config] else [] := by
  rw [State.save, List.filter_append]
  congr 1
  by_cases hsame : config.merchantMsisdn = msisdn
  · rw [if_pos hsame]
    exact List.filter_eq_self.mpr fun row hrow => by
      rw [List.mem_singleton.mp hrow]
      simpa using hsame
  · rw [if_neg hsame]
    apply List.filter_eq_nil_iff.mpr
    intro row hrow
    rw [List.mem_singleton.mp hrow]
    simpa using hsame

/-- What was checked when the request was validated. -/
theorem validate_eq_ok (hvalid : validate dto = .ok ()) :
    (dto.channel = .api → truthy dto.apiUrl = true) ∧
      (dto.channel = .kafka → truthy dto.kafkaTopic = true) ∧
      ∀ auth ∈ dto.auth, auth.type = .loginBearer →
        truthy auth.loginUrl = true ∧ truthy auth.tokenPath = true := by
  simp only [validate] at hvalid
  split at hvalid
  next => cases hvalid
  next hurl =>
    split at hvalid
    next => cases hvalid
    next htopic =>
      split at hvalid
      next => cases hvalid
      next hlogin =>
        refine ⟨?_, ?_, ?_⟩
        · intro hchannel
          by_contra hmissing
          exact hurl ⟨hchannel, by simpa using hmissing⟩
        · intro hchannel
          by_contra hmissing
          exact htopic ⟨hchannel, by simpa using hmissing⟩
        · intro auth hauth htype
          constructor
          · by_contra hmissing
            exact hlogin ⟨auth, hauth, htype, .inl (by simpa using hmissing)⟩
          · by_contra hmissing
            exact hlogin ⟨auth, hauth, htype, .inr (by simpa using hmissing)⟩

/-- A stored secret is not empty, and there is a key that opens it. -/
theorem State.Sound.newSecret (hsound : state.Sound setting) {msisdn : ℕ}
    (hkey : dto.encrypts = true → setting.hasKey = true) :
    ∀ ciphertext ∈ (state.newConfig msisdn dto).callbackSecretCiphertext,
      ciphertext.content ≠ "" ∧ setting.hasKey = true := by
  intro ciphertext hciphertext
  simp only [State.newConfig, UpsertInput.row, callbackCiphertext] at hciphertext
  split at hciphertext
  next hgiven =>
    obtain ⟨secret, hsecret, rfl⟩ := Option.map_eq_some_iff.mp hciphertext
    refine ⟨?_, hkey (by rw [UpsertInput.encrypts, hgiven, Bool.true_or])⟩
    simpa [hsecret, truthy] using hgiven
  next =>
    obtain ⟨old, hold, hstored⟩ := Option.bind_eq_some_iff.mp hciphertext
    exact hsound.secrets msisdn old hold ciphertext hstored

/-- A version that is saved as active can carry a payment, unless it is left to unauthenticated
callbacks in production. -/
theorem State.Sound.newConfig_carries (hsound : state.Sound setting) {msisdn : ℕ}
    (hvalid : validate dto = .ok ()) (hkey : dto.encrypts = true → setting.hasKey = true)
    (hlacks : (state.newConfig msisdn dto).lacksSecret dto.channel = false)
    (hactive : dto.active = some true)
    (hopen : dto.channel = .kafka → dto.callbackAuthType = some .none →
      setting.production = false) :
    (state.newConfig msisdn dto).Carries setting (some dto.channel) := by
  obtain ⟨hurl, htopic, hlogin⟩ := validate_eq_ok hvalid
  have hsecret : dto.channel = .kafka → (state.newConfig msisdn dto).callbackAuthType ≠ .none →
      (state.newConfig msisdn dto).callbackSecretCiphertext.isSome = true := by
    intro hkafka hauthenticated
    have hisActive : (state.newConfig msisdn dto).isActive = true := by
      simp [State.newConfig, UpsertInput.row, hactive]
    by_contra hmissing
    simp [Config.lacksSecret, hkafka, hisActive, hauthenticated] at hlacks
    simp [hlacks] at hmissing
  constructor
  case reached =>
    cases hchannel : dto.channel with
    | api => exact .inl ⟨rfl, hurl hchannel⟩
    | kafka =>
      refine .inr ⟨rfl, htopic hchannel, ?_⟩
      by_cases hnone : (state.newConfig msisdn dto).callbackAuthType = .none
      · have hgiven : dto.callbackAuthType = some .none := by
          simp only [State.newConfig, UpsertInput.row] at hnone
          cases htype : dto.callbackAuthType with
          | none =>
            rw [htype] at hnone
            cases hnone
          | some type =>
            rw [htype] at hnone
            exact congrArg some hnone
        refine ⟨{ integrationKey := none, finifySignature := none, rawBody := "" }, ?_⟩
        simp [authorize, hnone, hopen hchannel hgiven]
      · obtain ⟨ciphertext, hstored⟩ := Option.isSome_iff_exists.mp (hsecret hchannel hnone)
        obtain ⟨hcontent, hhasKey⟩ := hsound.newSecret hkey ciphertext hstored
        exact exists_callback hstored hcontent hhasKey hnone
  case secret =>
    intro hkafka
    exact hsecret (Option.some.inj hkafka)
  case login =>
    intro htype
    cases hauth : dto.auth with
    | none => simp [State.newConfig, UpsertInput.row, AuthInput.row, hauth] at htype
    | some auth =>
      simp only [State.newConfig, UpsertInput.row, AuthInput.row, hauth,
        Option.getD_some] at htype ⊢
      exact hlogin auth hauth htype

/-- The history row of a request says what the request made of the configuration, if it does not
carry over secrets without giving its authentication. -/
theorem State.newRow_publicConfig {msisdn : ℕ} (hactive : dto.active = some true)
    (hgiven : dto.auth = none → ∀ old ∈ state.configs.find? msisdn,
      old.auth.secretsCiphertext = none) :
    (newRow dto (state.newConfig msisdn dto)).publicConfig =
      ((state.newConfig msisdn dto).activated true).publicConfig dto.channel := by
  have hsecrets : (dto.auth.isSome &&
      (authCiphertext dto (state.configs.find? msisdn)).isSome) =
        (authCiphertext dto (state.configs.find? msisdn)).isSome := by
    cases hauth : dto.auth with
    | some auth => rfl
    | none =>
      have hnone : authCiphertext dto (state.configs.find? msisdn) = none := by
        rw [authCiphertext, hauth]
        apply Option.bind_eq_none_iff.mpr
        exact hgiven hauth
      rw [hnone]
      rfl
  have hauth : (historySnapshot dto (state.newConfig msisdn dto).callbackSecretCiphertext.isSome
      (state.newConfig msisdn dto).auth.secretsCiphertext.isSome).auth.row none =
        { (state.newConfig msisdn dto).auth with secretsCiphertext := none } := by
    cases hauth : dto.auth <;>
      simp [historySnapshot, State.newConfig, UpsertInput.row, AuthInput.row, hauth]
  simp only [HistoryRow.publicConfig, Config.publicConfig, newRow, hauth]
  simp [historySnapshot, State.newConfig, UpsertInput.row, AuthInput.row, Config.activated,
    hactive, hsecrets]

/-- The versions that are stored are below the next one. -/
theorem State.Sound.version_lt (hsound : state.Sound setting) (dto : UpsertInput) {msisdn : ℕ}
    {row : HistoryRow} (hrow : row ∈ state.history)
    (hmsisdn : row.merchantMsisdn = msisdn) : row.version < (state.newConfig msisdn dto).version := by
  cases hfind : state.configs.find? msisdn with
  | none => exact absurd hmsisdn (hsound.unsaved msisdn hfind row hrow)
  | some old =>
    have hmem : row.version ∈ List.range' 1 old.version := by
      rw [← hsound.versions msisdn old hfind]
      exact List.mem_map_of_mem (List.mem_filter.mpr ⟨hrow, by simpa using hmsisdn⟩)
    have hversion : (state.newConfig msisdn dto).version = old.version + 1 := by
      simp only [State.newConfig, UpsertInput.row, hfind, Option.elim_some]
    have hrange := List.mem_range'_1.mp hmem
    omega

/-- The row of the new version is the row that is added. -/
theorem State.Sound.isOf_save (hsound : state.Sound setting) {msisdn : ℕ} {row : HistoryRow}
    (hrow : row ∈ (state.save dto (state.newConfig msisdn dto)).history)
    (hof : row.IsOf (state.newConfig msisdn dto)) :
    row = newRow dto (state.newConfig msisdn dto) := by
  cases mem_history_save.mp hrow with
  | inl hold =>
    have hlt := hsound.version_lt dto hold hof.1
    exact absurd hof.2 hlt.ne
  | inr hnew => exact hnew

theorem State.Sound.upsert (hsound : state.Sound setting) {msisdn : ℕ} {after : State}
    (horderly : Orderly setting state (.upsert msisdn dto))
    (hok : state.upsert setting msisdn dto = .ok after) : after.Sound setting := by
  obtain ⟨hvalid, hmerchant, hkey, hlacks, rfl⟩ := State.upsert_eq_ok hok
  have hmsisdn : (state.newConfig msisdn dto).merchantMsisdn = msisdn := rfl
  have hfind := state.find?_save dto (state.newConfig msisdn dto)
  have hmerchant' : (state.merchants.find?
      (state.newConfig msisdn dto).merchantMsisdn).isSome = true := hmerchant
  have hchannel := State.channel?_save dto hmerchant'
  rw [hmsisdn] at hfind hchannel
  constructor
  case unsaved =>
    intro other hnone row hrow
    rw [hfind] at hnone
    split at hnone
    next => cases hnone
    next hne =>
      cases mem_history_save.mp hrow with
      | inl hold => exact hsound.unsaved other hnone row hold
      | inr hnew =>
        rw [hnew]
        exact Ne.symm hne
  case versions =>
    intro other config hconfig
    rw [hfind] at hconfig
    rw [State.filter_history_save, List.map_append]
    split at hconfig
    next hsame =>
      subst hsame
      rw [← Option.some.inj hconfig, if_pos hmsisdn]
      cases hold : state.configs.find? other with
      | none =>
        have hnothing : (state.history.filter fun row => row.merchantMsisdn = other) = [] := by
          apply List.filter_eq_nil_iff.mpr
          intro row hrow
          simpa using hsound.unsaved other hold row hrow
        rw [hnothing]
        simp [newRow, State.newConfig, UpsertInput.row, hold]
      | some old =>
        rw [hsound.versions other old hold]
        simp only [List.map_cons, List.map_nil, newRow, State.newConfig, UpsertInput.row, hold,
          Option.elim_some]
        rw [List.range'_1_concat, Nat.add_comm old.version 1]
    next hne =>
      rw [if_neg (fun hsame => hne hsame.symm), List.map_nil, List.append_nil]
      exact hsound.versions other config hconfig
  case recorded =>
    intro other config hconfig
    rw [hfind] at hconfig
    split at hconfig
    next hsame =>
      subst hsame
      rw [← Option.some.inj hconfig]
      refine ⟨newRow dto (state.newConfig other dto), mem_history_save.mpr (.inr rfl),
        ⟨rfl, rfl⟩, ?_⟩
      intro hsaved
      have hactive : dto.active = some true := by
        cases hgiven : dto.active with
        | none => simp [HistoryRow.savedActive, newRow, historySnapshot, hgiven] at hsaved
        | some active =>
          simpa [HistoryRow.savedActive, newRow, historySnapshot, hgiven] using hsaved
      obtain ⟨hopen, hgiven⟩ := horderly hactive
      refine ⟨dto.channel, by rw [hchannel, if_pos rfl],
        State.newRow_publicConfig hactive hgiven, ?_⟩
      exact hsound.newConfig_carries hvalid hkey hlacks hactive hopen
    next hne =>
      obtain ⟨row, hrow, hof, hsaved⟩ := hsound.recorded other config hconfig
      rw [hchannel, if_neg hne]
      exact ⟨row, mem_history_save.mpr (.inl hrow), hof, hsaved⟩
  case active =>
    intro other config hconfig hactive row hrow hof
    rw [hfind] at hconfig
    split at hconfig
    next hsame =>
      rw [← Option.some.inj hconfig] at hof hactive
      rw [hsound.isOf_save hrow hof]
      exact hactive
    next hne =>
      cases mem_history_save.mp hrow with
      | inl hold => exact hsound.active other config hconfig hactive row hold hof
      | inr hnew =>
        rw [hnew] at hof
        exact absurd ((Config.merchantMsisdn_of_find? hconfig).symm.trans hof.1.symm) hne
  case secrets =>
    intro other config hconfig
    rw [hfind] at hconfig
    split at hconfig
    next =>
      rw [← Option.some.inj hconfig]
      exact hsound.newSecret hkey
    next => exact hsound.secrets other config hconfig

theorem State.Sound.setActive (hsound : state.Sound setting) {msisdn : ℕ} {active : Bool}
    {after : State} (horderly : Orderly setting state (.setActive msisdn active))
    (hok : state.setActive msisdn active = .ok after) : after.Sound setting := by
  have hafter := State.setActive_eq_ok hok
  -- Every configuration comes from one that differs in its activity at most.
  have hfind : ∀ other config, after.configs.find? other = some config →
      ∃ old, state.configs.find? other = some old ∧
        ((other = msisdn ∧ config = old.activated active) ∨ config = old) := by
    intro other config hconfig
    rw [hafter, Table.find?_modify] at hconfig
    split at hconfig
    next hsame =>
      obtain ⟨old, hold, hnew⟩ := Option.map_eq_some_iff.mp hconfig
      exact ⟨old, hold, .inl ⟨hsame, hnew.symm⟩⟩
    next => exact ⟨config, hconfig, .inr rfl⟩
  have hhistory : after.history = state.history := by rw [hafter]
  have hchannel : ∀ other, after.channel? other = state.channel? other := by
    intro other
    rw [hafter]
    rfl
  constructor
  case unsaved =>
    intro other hnone
    rw [hhistory]
    apply hsound.unsaved other
    rw [hafter, Table.find?_modify] at hnone
    split at hnone
    next => exact Option.map_eq_none_iff.mp hnone
    next => exact hnone
  case versions =>
    intro other config hconfig
    rw [hhistory]
    obtain ⟨old, hold, hcases⟩ := hfind other config hconfig
    have hversion : config.version = old.version := by
      cases hcases with
      | inl hnew => rw [hnew.2, Config.activated]
      | inr hsame => rw [hsame]
    rw [hversion]
    exact hsound.versions other old hold
  case recorded =>
    intro other config hconfig
    rw [hhistory, hchannel]
    obtain ⟨old, hold, hcases⟩ := hfind other config hconfig
    obtain ⟨row, hrow, hof, hsaved⟩ := hsound.recorded other old hold
    cases hcases with
    | inl hnew =>
      rw [hnew.2]
      refine ⟨row, hrow, hof, ?_⟩
      intro hwas
      obtain ⟨channel, hsame, hpublic, hcarries⟩ := hsaved hwas
      exact ⟨channel, hsame, hpublic, hcarries.reached, hcarries.secret, hcarries.login⟩
    | inr hsame =>
      rw [hsame]
      exact ⟨row, hrow, hof, hsaved⟩
  case active =>
    intro other config hconfig hactive row hrow hof
    rw [hhistory] at hrow
    obtain ⟨old, hold, hcases⟩ := hfind other config hconfig
    cases hcases with
    | inl hnew =>
      obtain ⟨hmsisdn, rfl⟩ := hnew
      rw [hmsisdn] at hold
      exact horderly hactive old hold row hrow hof
    | inr hsame =>
      rw [hsame] at hactive hof
      exact hsound.active other old hold hactive row hrow hof
  case secrets =>
    intro other config hconfig
    obtain ⟨old, hold, hcases⟩ := hfind other config hconfig
    have hsecret : config.callbackSecretCiphertext = old.callbackSecretCiphertext := by
      cases hcases with
      | inl hnew => rw [hnew.2, Config.activated]
      | inr hsame => rw [hsame]
    rw [hsecret]
    exact hsound.secrets other old hold

/-- One orderly call keeps what is known. -/
theorem State.Sound.step (hsound : state.Sound setting) {event : Event} {after : State}
    (horderly : Orderly setting state event)
    (hstep : Integrations.step setting state event = some after) : after.Sound setting := by
  cases event with
  | upsert msisdn dto => exact hsound.upsert horderly (ok_of_toOption hstep)
  | setActive msisdn active => exact hsound.setActive horderly (ok_of_toOption hstep)

/-! ## What a call that is not orderly leaves -/

theorem State.Sound.orderly_upsert (hsound : state.Sound setting) {msisdn : ℕ} {after : State}
    (hok : state.upsert setting msisdn dto = .ok after) (hkept : after.Kept setting) :
    Orderly setting state (.upsert msisdn dto) := by
  obtain ⟨_, hmerchant, _, _, rfl⟩ := State.upsert_eq_ok hok
  have hfind : (state.save dto (state.newConfig msisdn dto)).configs.find? msisdn =
      some (state.newConfig msisdn dto) := by
    rw [State.find?_save]
    exact if_pos rfl
  have hmem := (Table.find?_eq_some.mp hfind).1
  intro hactive
  have hisActive : (state.newConfig msisdn dto).isActive = true := by
    simp [State.newConfig, UpsertInput.row, hactive]
  constructor
  · intro hkafka htype
    have hcarries := hkept.carries _ hmem hisActive
    have hchannel : (state.save dto (state.newConfig msisdn dto)).channel?
        (state.newConfig msisdn dto).merchantMsisdn = some .kafka := by
      rw [State.channel?_save dto hmerchant, if_pos rfl, hkafka]
    rw [hchannel] at hcarries
    cases hcarries.reached with
    | inl hapi => cases hapi.1
    | inr hreached =>
      obtain ⟨_, callback, hpasses⟩ := hreached.2
      simpa [authorize, State.newConfig, UpsertInput.row, htype] using hpasses
  · intro hauth old hold
    obtain ⟨row, hrow, hof, channel, _, hpublic⟩ := hkept.described _ hmem hisActive
    rw [hsound.isOf_save hrow hof] at hpublic
    have hsecrets := congrArg PublicConfig.hasSecrets hpublic
    have hcarried : (state.newConfig msisdn dto).auth.secretsCiphertext =
        old.auth.secretsCiphertext := by
      simp [State.newConfig, UpsertInput.row, AuthInput.row, authCiphertext, hauth,
        Option.mem_def.mp hold]
    simp only [HistoryRow.publicConfig, newRow, historySnapshot, hauth, Option.isSome_none,
      Bool.false_and, Config.publicConfig, hcarried] at hsecrets
    exact Option.isNone_iff_eq_none.mp (Option.isSome_eq_false_iff.mp hsecrets.symm)

theorem State.Sound.orderly_setActive (hsound : state.Sound setting) {msisdn : ℕ} {active : Bool}
    {after : State} (hok : state.setActive msisdn active = .ok after)
    (hkept : after.Kept setting) : Orderly setting state (.setActive msisdn active) := by
  intro hactive config hconfig row hrow hof
  subst hactive
  have hafter := State.setActive_eq_ok hok
  have hfind : after.configs.find? msisdn = some (config.activated true) := by
    rw [hafter]
    exact Table.find?_modify_of_find? hconfig _ (Config.activated_merchantMsisdn true)
  obtain ⟨other, hother, hotherOf, channel, _, hpublic⟩ :=
    hkept.described _ (Table.find?_eq_some.mp hfind).1 rfl
  rw [hafter] at hother
  rw [hsound.row_unique hconfig hrow hother hof hotherOf]
  exact congrArg (fun shown => shown.config.isActive) hpublic

/-- Nothing is configured yet. -/
structure State.Opening (state : State) : Prop where
  configs : state.configs.rows = []
  history : state.history = []

theorem State.Opening.sound (hopening : state.Opening) : state.Sound setting := by
  have hnone : ∀ msisdn config, state.configs.find? msisdn ≠ some config := by
    intro msisdn config hfind
    have hmem := (Table.find?_eq_some.mp hfind).1
    rw [hopening.configs] at hmem
    cases hmem
  constructor
  case unsaved => simp [hopening.history]
  case versions => exact fun msisdn config hfind => absurd hfind (hnone msisdn config)
  case recorded => exact fun msisdn config hfind => absurd hfind (hnone msisdn config)
  case active => exact fun msisdn config hfind => absurd hfind (hnone msisdn config)
  case secrets => exact fun msisdn config hfind => absurd hfind (hnone msisdn config)

/-- In every orderly run active integrations can carry a payment and are what the history says of
their version, and the first call that is not orderly breaks that. -/
theorem active_integrations_carry_payments {start : State} (hopening : start.Opening)
    (hrun : ReachesUnder (step setting) (Orderly setting) start state) :
    state.Kept setting ∧ ∀ event after, step setting state event = some after →
      (after.Kept setting ↔ Orderly setting state event) := by
  have hsound : state.Sound setting := hrun.preserves (fun state => state.Sound setting)
    (fun _ _ _ hsound horderly hstep => hsound.step horderly hstep) hopening.sound
  refine ⟨hsound.kept, ?_⟩
  intro event after hstep
  constructor
  · intro hkept
    cases event with
    | upsert msisdn dto => exact hsound.orderly_upsert (ok_of_toOption hstep) hkept
    | setActive msisdn active => exact hsound.orderly_setActive (ok_of_toOption hstep) hkept
  · intro horderly
    exact (hsound.step horderly hstep).kept

instance (row : HistoryRow) (config : Config) : Decidable (row.IsOf config) :=
  inferInstanceAs (Decidable (_ ∧ _))

instance (state : State) (event : Event) : Decidable (Orderly setting state event) :=
  match event with
  | .upsert merchantMsisdn dto =>
    inferInstanceAs (Decidable (dto.active = some true →
      (dto.channel = .kafka → dto.callbackAuthType = some .none → setting.production = false) ∧
        (dto.auth = none → ∀ config ∈ state.configs.find? merchantMsisdn,
          config.auth.secretsCiphertext = none)))
  | .setActive merchantMsisdn active =>
    inferInstanceAs (Decidable (active = true →
      ∀ config ∈ state.configs.find? merchantMsisdn, ∀ row ∈ state.history,
        row.IsOf config → row.savedActive = true))

end

/-! ## One merchant -/

/-- Digests spell the secret and the body. -/
def sandbox (production : Bool) : Setting where
  production := production
  hasKey := true
  hmac secret body := secret ++ ":" ++ body

def soleMerchant : State where
  merchants := .single { msisdn := 7, integrationChannel := none }
  configs := .empty
  history := []

/-- A Kafka integration, with what is given of its callbacks. -/
def kafkaInput (active : Bool) (callbackAuthType : Option CallbackAuthType)
    (callbackSecret : Option String) : UpsertInput where
  channel := .kafka
  active := some active
  kafkaTopic := some "merchant.payment.requests"
  callbackAuthType := callbackAuthType
  callbackSecret := callbackSecret

/-- An active API integration with or without its login. -/
def apiInput (auth : Option AuthInput) : UpsertInput where
  channel := .api
  active := some true
  apiUrl := some "https://merchant.example.com/payments"
  auth := auth

def loginInput : AuthInput where
  type := .loginBearer
  loginUrl := some "https://merchant.example.com/auth/login"
  tokenPath := some "data.access_token"
  secrets := some [("username", "merchant-user")]

/-- A version is saved as active, switched off and on, and followed by another. -/
theorem active_integrations_carry_payments_versions :
    ∃ state, ReachesUnder (step (sandbox true)) (Orderly (sandbox true)) soleMerchant state ∧
      (state.configs.rows.map fun config => (config.version, config.isActive)) = [(2, true)] ∧
      state.Kept (sandbox true) := by
  have hany : (runInputs (guardedStep (step (sandbox true)) (Orderly (sandbox true))) soleMerchant
      [.upsert 7 (kafkaInput true (some .hmac) (some "secret")), .setActive 7 false,
        .setActive 7 true, .upsert 7 (apiInput (some loginInput))]).any (fun state =>
          decide ((state.configs.rows.map fun config => (config.version, config.isActive)) =
            [(2, true)])) := by
    decide
  obtain ⟨state, hrun, hfacts⟩ := (Option.any_eq_true _ _).mp hany
  have hreaches := (Reaches.of_runInputs hrun).under
  exact ⟨state, hreaches, of_decide_eq_true hfacts,
    (active_integrations_carry_payments ⟨rfl, rfl⟩ hreaches).1⟩

/-- An integration without a secret is activated on its own; one that is left to unauthenticated
callbacks is active in production; and secrets stay stored that the history does not mention. -/
theorem active_integrations_incomplete :
    (∃ state, Reaches (step (sandbox false)) soleMerchant state ∧ ¬ state.Kept (sandbox false) ∧
      ∃ config ∈ state.configs.rows, config.isActive = true ∧
        ∀ callback, authorize (sandbox false) config callback = false) ∧
    (∃ state, Reaches (step (sandbox true)) soleMerchant state ∧ ¬ state.Kept (sandbox true) ∧
      ∃ config ∈ state.configs.rows, config.isActive = true ∧
        ∀ callback, authorize (sandbox true) config callback = false) ∧
    ∃ state, Reaches (step (sandbox false)) soleMerchant state ∧
      ∃ config ∈ state.configs.rows, config.isActive = true ∧
        config.auth.secretsCiphertext.isSome = true ∧
        ∀ row ∈ state.history, row.IsOf config → row.publicConfig.hasSecrets = false := by
  have hunkept : ∀ {setting : Setting} {state : State} {config : Config},
      config ∈ state.configs.rows → config.isActive = true →
      state.channel? config.merchantMsisdn = some .kafka →
      (∀ callback, authorize setting config callback = false) → ¬ state.Kept setting := by
    intro setting state config hmem hactive hchannel hrefused hkept
    cases (hkept.carries config hmem hactive).reached with
    | inl hapi =>
      rw [hchannel] at hapi
      cases hapi.1
    | inr hreached =>
      obtain ⟨_, callback, hpasses⟩ := hreached.2
      rw [hrefused callback] at hpasses
      cases hpasses
  refine ⟨?_, ?_, ?_⟩
  · have hany : (runInputs (step (sandbox false)) soleMerchant
        [.upsert 7 (kafkaInput false none none), .setActive 7 true]).any (fun state =>
          decide (∃ config ∈ state.configs.rows, config.isActive = true ∧
            state.channel? config.merchantMsisdn = some .kafka ∧
            config.callbackAuthType = .apiKey ∧ config.callbackSecretCiphertext = none)) := by
      decide
    obtain ⟨state, hrun, hfacts⟩ := (Option.any_eq_true _ _).mp hany
    obtain ⟨config, hmem, hactive, hchannel, htype, hsecret⟩ := of_decide_eq_true hfacts
    have hrefused : ∀ callback, authorize (sandbox false) config callback = false := by
      intro callback
      simp [authorize, htype, verifyApiKey, hsecret, decryptString, truthy]
    exact ⟨state, .of_runInputs hrun, hunkept hmem hactive hchannel hrefused, config, hmem, hactive,
      hrefused⟩
  · have hany : (runInputs (step (sandbox true)) soleMerchant
        [.upsert 7 (kafkaInput true (some .none) none)]).any (fun state =>
          decide (∃ config ∈ state.configs.rows, config.isActive = true ∧
            state.channel? config.merchantMsisdn = some .kafka ∧
            config.callbackAuthType = .none)) := by
      decide
    obtain ⟨state, hrun, hfacts⟩ := (Option.any_eq_true _ _).mp hany
    obtain ⟨config, hmem, hactive, hchannel, htype⟩ := of_decide_eq_true hfacts
    have hrefused : ∀ callback, authorize (sandbox true) config callback = false := by
      intro callback
      simp [authorize, htype, sandbox]
    exact ⟨state, .of_runInputs hrun, hunkept hmem hactive hchannel hrefused, config, hmem, hactive,
      hrefused⟩
  · have hany : (runInputs (step (sandbox false)) soleMerchant
        [.upsert 7 (apiInput (some loginInput)), .upsert 7 (apiInput none)]).any (fun state =>
          decide (∃ config ∈ state.configs.rows, config.isActive = true ∧
            config.auth.secretsCiphertext.isSome = true ∧
            ∀ row ∈ state.history, row.IsOf config → row.publicConfig.hasSecrets = false)) := by
      decide
    obtain ⟨state, hrun, hfacts⟩ := (Option.any_eq_true _ _).mp hany
    obtain ⟨config, hmem, hactive, hsecrets, hhidden⟩ := of_decide_eq_true hfacts
    exact ⟨state, .of_runInputs hrun, config, hmem, hactive, hsecrets, hhidden⟩

end Finify.Delivery.Integrations
