/-
# Responses of merchants

The first field that carries an approving or a rejecting value decides on a payment: flags before
status texts before codes, and the outer object before those nested in it, or the one field that
the merchant's configuration names.  The HTTP status never decides, and a response without such a
value leaves the funds reserved.
-/

import Finify.Delivery.FieldMapping

namespace Finify.Delivery.MerchantResponses

open Credit.Conditions (Language Number Value field trim)
open FieldMapping (Fields)

/-- `MerchantConfirmationDecision`. -/
inductive Decision
  | approved
  | rejected
  | unknown
  deriving DecidableEq, Repr

/-- `MerchantConfirmation`. -/
structure Confirmation where
  decision : Decision
  code : Option String := none
  message : Option String := none
  deriving DecidableEq, Repr

section Interpretation

variable (language : Language) (upper : String → String)

/-- `APPROVED_VALUES`. -/
def approvedValues : List String :=
  ["APPROVED", "SUCCESS", "SUCCESSFUL", "CONFIRMED", "COMPLETED", "OK", "00", "0", "200"]

/-- `REJECTED_VALUES`. -/
def rejectedValues : List String :=
  ["REJECTED", "DECLINED", "DENIED", "FAILED", "FAILURE", "CANCELLED", "CANCELED"]

/-- `collectCandidates`. -/
def collectCandidates : Value → List Fields
  | .object fields =>
    fields :: ["data", "result", "response"].filterMap fun key =>
      match (Value.object fields).property language key with
      | .object nested => some nested
      | _ => none
  | _ => []

/-- The values of the keys, candidate after candidate. -/
def values (candidates : List Fields) (keys : List String) : List Value :=
  candidates.flatMap fun candidate =>
    keys.map fun key => (Value.object candidate).property language key

/-- `readString`. -/
def readString (candidates : List Fields) (keys : List String) : Option String :=
  (values language candidates keys).findSome? fun value =>
    match value with
    | .text text => some text
    | .number number => some (language.numeral number)
    | _ => none

def readFlag : Value → Option Bool
  | .boolean flag => some flag
  | .text text =>
    if ["TRUE", "FALSE"].contains (upper text) then some (upper text = "TRUE") else none
  | _ => none

/-- `readBoolean`. -/
def readBoolean (candidates : List Fields) (keys : List String) : Option Bool :=
  (values language candidates keys).findSome? (readFlag upper)

def decideText (text : Option String) : Option Decision :=
  (text.map fun text => upper (String.ofList (trim text))).bind fun normalized =>
    if normalized = "" then none
    else if approvedValues.contains normalized then some .approved
    else if rejectedValues.contains normalized then some .rejected
    else none

def flagKeys : List String := ["approved", "confirmed", "success", "accepted"]

def statusKeys : List String := ["status", "transactionStatus", "decision", "result"]

def codeKeys : List String := ["responseCode", "response_code", "code", "statusCode"]

def messageKeys : List String := ["message", "responseMessage", "description", "detail"]

/-- `interpretMerchantConfirmation`. -/
def interpretMerchantConfirmation (httpStatus : ℕ) (body : Value) : Confirmation :=
  let candidates := collectCandidates language body
  let code := readString language candidates codeKeys
  let message := readString language candidates messageKeys
  let status := readString language candidates statusKeys
  match readBoolean language upper candidates flagKeys with
  | some true => { decision := .approved, code := code, message := message }
  | some false => { decision := .rejected, code := code, message := message }
  | none =>
    match [status, code].findSome? (decideText upper) with
    | some decision => { decision := decision, code := code, message := message }
    | none =>
      if httpStatus ≥ 500 ∨ httpStatus = 408 ∨ httpStatus = 429 then
        { decision := .unknown, code := code
          message := message <|> some ("Merchant API returned HTTP " ++ toString httpStatus) }
      else
        { decision := .unknown, code := code
          message :=
            message <|> some "Merchant response did not contain an explicit decision" }

/-- `ResponseMappingDto`; the values are only checked to be arrays. -/
structure ResponseMapping where
  decisionPath : Option String := none
  approvedValues : Option (List Value) := none
  rejectedValues : Option (List Value) := none
  codePath : Option String := none
  messagePath : Option String := none
  externalReferencePath : Option String := none

/-- What `interpretResponse` returns. -/
structure Interpreted extends Confirmation where
  externalReference : Option String := none
  deriving DecidableEq, Repr

def configured (path : Option String) : Option String := path.filter (· ≠ "")

/-- `typeof body === 'object' && body !== null`. -/
def isObject : Value → Bool
  | .object _ | .array _ | .date _ => true
  | _ => false

/-- `readPath` of a body. -/
def readBody (body : Value) (path : String) : Value :=
  (Credit.Conditions.segments path).foldl (FieldMapping.child language) body

/-- `String` of what stands at a path, where something does; it can throw. -/
def textAt (body : Value) (path : String) : Option (Option String) :=
  let value := readBody language body path
  if value.isMissing then some none else (value.toText language).map some

/-- `stringPath` of a path that may not be configured. -/
def stringPath (body : Value) (path : Option String) : Option (Option String) :=
  match configured path with
  | none => some none
  | some path => textAt language body path

/-- The values of a list in upper case; only texts have one. -/
def upperCases (items : Option (List Value)) : Option (List String) :=
  (items.getD []).mapM fun item =>
    match item with
    | .text text => some (upper text)
    | _ => none

def decideListed (approved rejected : List String) (value : Option String) : Decision :=
  match value with
  | none | some "" => .unknown
  | some value =>
    if approved.contains value then .approved
    else if rejected.contains value then .rejected
    else .unknown

/-- `interpretResponse`. -/
def interpretResponse (mapping : ResponseMapping) (httpStatus : ℕ) (body : Value) :
    Option Interpreted :=
  match (configured mapping.decisionPath).filter fun _ => isObject body with
  | some decisionPath => do
      let value ← textAt language body decisionPath
      let approved ← upperCases upper mapping.approvedValues
      let rejected ← upperCases upper mapping.rejectedValues
      let code ← stringPath language body mapping.codePath
      let message ← stringPath language body mapping.messagePath
      let externalReference ← stringPath language body mapping.externalReferencePath
      some
        { decision := decideListed approved rejected (value.map upper)
          code := code, message := message
          externalReference := externalReference }
  | none =>
    some { interpretMerchantConfirmation language upper httpStatus body with
      externalReference := none }

end Interpretation

/-- What `processSpecialMerchant` does with the funds that it has reserved. -/
inductive Step
  | settle
  | reverse
  | keepReserved
  deriving DecidableEq, Repr

/-- The handling of a response of the API channel in `processSpecialMerchant`; without one, and
where it is ambiguous, the call throws. -/
def handle : Option Interpreted → Step
  | none => .keepReserved
  | some result =>
    match result.decision with
    | .approved => .settle
    | .rejected => .reverse
    | .unknown => .keepReserved

/-! ## Signals -/

/-- What a field says of a payment. -/
inductive Signal
  | approving
  | rejecting
  deriving DecidableEq, Repr

def Signal.decision : Signal → Decision
  | .approving => .approved
  | .rejecting => .rejected

section Signals

variable {language : Language} {upper : String → String}

def flagSignal (upper : String → String) (value : Value) : Option Signal :=
  (readFlag upper value).map fun flag => if flag then .approving else .rejecting

def listSignal (approving rejecting : List String) (text : Option String) : Option Signal :=
  (text.filter (· ≠ "")).bind fun text =>
    if approving.contains text then some .approving
    else if rejecting.contains text then some .rejecting
    else none

/-- What a status text or a code says. -/
def textSignal (upper : String → String) (text : Option String) : Option Signal :=
  listSignal approvedValues rejectedValues (text.map fun text => upper (String.ofList (trim text)))

/-- What the fields say that are interpreted where no path is configured, in their order. -/
def signals (language : Language) (upper : String → String) (body : Value) :
    List (Option Signal) :=
  (values language (collectCandidates language body) flagKeys).map (flagSignal upper) ++
    [statusKeys, codeKeys].map fun keys =>
      textSignal upper (readString language (collectCandidates language body) keys)

/-- What the fields say that are interpreted; converting the configured one can throw. -/
def heard (language : Language) (upper : String → String) (mapping : ResponseMapping)
    (body : Value) : Option (List (Option Signal)) :=
  match (configured mapping.decisionPath).filter fun _ => isObject body with
  | some decisionPath => do
      let value ← textAt language body decisionPath
      let approved ← upperCases upper mapping.approvedValues
      let rejected ← upperCases upper mapping.rejectedValues
      some [listSignal approved rejected (value.map upper)]
  | none => some (signals language upper body)

/-- The decision of the first field that says something. -/
def decideFirst (said : List (Option Signal)) : Decision :=
  ((said.findSome? id).map Signal.decision).getD .unknown

theorem decideText_eq (text : Option String) :
    decideText upper text = (textSignal upper text).map Signal.decision := by
  unfold decideText textSignal listSignal
  cases text with
  | none => rfl
  | some text =>
    rw [Option.map_some, Option.bind_some, Option.filter_some]
    by_cases hempty : upper (String.ofList (trim text)) = ""
    · rw [if_pos hempty]
      simp [hempty]
    · rw [if_neg hempty]
      simp only [hempty, not_false_eq_true, decide_true, ne_eq, if_true, Option.bind_some]
      split_ifs <;> rfl

theorem decideListed_eq (approved rejected : List String) (value : Option String) :
    decideListed approved rejected value = decideFirst [listSignal approved rejected value] := by
  unfold decideListed listSignal decideFirst
  split
  · rfl
  · rfl
  · rename_i text hempty
    have hfilter : decide (text ≠ "") = true := decide_eq_true hempty
    rw [Option.filter_some, if_pos hfilter, Option.bind_some]
    split_ifs <;> rfl

theorem findSome?_map_flags (found : List Value) :
    (found.map (flagSignal upper)).findSome? id =
      (found.findSome? (readFlag upper)).map fun flag =>
        if flag then .approving else .rejecting := by
  induction found with
  | nil => rfl
  | cons value rest ih =>
    rw [List.map_cons, List.findSome?_cons, List.findSome?_cons, id, flagSignal]
    cases readFlag upper value with
    | none => exact ih
    | some flag => rfl

/-- Where no path is configured the first field that says something decides. -/
theorem interpretMerchantConfirmation_decision (httpStatus : ℕ) (body : Value) :
    (interpretMerchantConfirmation language upper httpStatus body).decision =
      decideFirst (signals language upper body) := by
  unfold interpretMerchantConfirmation decideFirst signals readBoolean
  dsimp only
  rw [List.findSome?_append, findSome?_map_flags]
  cases (values language (collectCandidates language body) flagKeys).findSome? (readFlag upper) with
  | some flag => cases flag <;> rfl
  | none =>
    simp only [List.findSome?_cons, List.findSome?_nil, List.map_cons, List.map_nil,
      Option.map_none, Option.none_or, id, decideText_eq]
    cases textSignal upper (readString language (collectCandidates language body) statusKeys) with
    | some signal => rfl
    | none =>
      cases textSignal upper (readString language (collectCandidates language body) codeKeys)
        with
      | some signal => rfl
      | none =>
        show (if _ then _ else _ : Confirmation).decision = _
        split_ifs <;> rfl

/-- The decision is that of the first field that says something, whatever the HTTP status. -/
theorem interpretResponse_decision (mapping : ResponseMapping) (httpStatus : ℕ) (body : Value)
    (result : Interpreted)
    (hresult : interpretResponse language upper mapping httpStatus body = some result) :
    ∃ said, heard language upper mapping body = some said ∧ result.decision = decideFirst said := by
  unfold interpretResponse at hresult
  unfold heard
  cases hpath : (configured mapping.decisionPath).filter fun _ => isObject body with
  | none =>
    rw [hpath] at hresult
    cases hresult
    exact ⟨_, rfl, interpretMerchantConfirmation_decision httpStatus body⟩
  | some decisionPath =>
    rw [hpath] at hresult
    obtain ⟨value, hvalue, hresult⟩ := Option.bind_eq_some_iff.mp hresult
    obtain ⟨approved, happroved, hresult⟩ := Option.bind_eq_some_iff.mp hresult
    obtain ⟨rejected, hrejected, hresult⟩ := Option.bind_eq_some_iff.mp hresult
    obtain ⟨code, hcode, hresult⟩ := Option.bind_eq_some_iff.mp hresult
    obtain ⟨message, hmessage, hresult⟩ := Option.bind_eq_some_iff.mp hresult
    obtain ⟨reference, hreference, hresult⟩ := Option.bind_eq_some_iff.mp hresult
    cases hresult
    refine ⟨[listSignal approved rejected (value.map upper)], ?_,
      decideListed_eq approved rejected (value.map upper)⟩
    show (textAt language body decisionPath).bind _ = _
    rw [hvalue, Option.bind_some, happroved, Option.bind_eq_bind, Option.bind_some, hrejected]
    rfl

/-- Whether the call throws, and on what it decides, does not depend on the HTTP status. -/
theorem interpretResponse_status (mapping : ResponseMapping) (first second : ℕ) (body : Value) :
    (interpretResponse language upper mapping first body).map (·.decision) =
      (interpretResponse language upper mapping second body).map (·.decision) := by
  unfold interpretResponse
  split
  · rfl
  · exact congrArg some
      ((interpretMerchantConfirmation_decision first body).trans
        (interpretMerchantConfirmation_decision second body).symm)

/-- A signal decides where the fields before it say nothing. -/
theorem decideFirst_eq_decision_iff {said : List (Option Signal)} (signal : Signal) :
    decideFirst said = signal.decision ↔
      ∃ before after, said = before ++ some signal :: after ∧ ∀ other ∈ before, other = none := by
  have hfirst : decideFirst said = signal.decision ↔ said.findSome? id = some signal := by
    unfold decideFirst
    cases said.findSome? id with
    | none => cases signal <;> decide
    | some other => cases other <;> cases signal <;> decide
  rw [hfirst, List.findSome?_eq_some_iff]
  constructor
  · rintro ⟨before, found, after, hsaid, hfound, hbefore⟩
    exact ⟨before, after, by rw [hsaid]; exact congrArg (before ++ · :: after) hfound, hbefore⟩
  · rintro ⟨before, after, hsaid, hbefore⟩
    exact ⟨before, some signal, after, hsaid, rfl, hbefore⟩

theorem decideFirst_eq_unknown_iff {said : List (Option Signal)} :
    decideFirst said = .unknown ↔ ∀ other ∈ said, other = none := by
  have hnone : (∀ other ∈ said, other = none) ↔ said.findSome? id = none :=
    List.findSome?_eq_none_iff.symm
  rw [hnone]
  unfold decideFirst
  cases said.findSome? id with
  | none => decide
  | some other => cases other <;> decide

end Signals

/-- A payment is settled or reversed exactly if the first field that says something approves or
rejects it; where no field says anything the funds stay reserved.  The HTTP status has no part in
it. -/
theorem first_signal_decides (language : Language) (upper : String → String)
    (mapping : ResponseMapping) (httpStatus : ℕ) (body : Value) (result : Interpreted)
    (hresult : interpretResponse language upper mapping httpStatus body = some result) :
    ∃ said, heard language upper mapping body = some said ∧
      (result.decision = .approved ↔
        ∃ before after, said = before ++ some .approving :: after ∧ ∀ other ∈ before, other = none) ∧
      (result.decision = .rejected ↔
        ∃ before after, said = before ++ some .rejecting :: after ∧ ∀ other ∈ before, other = none) ∧
      (result.decision = .unknown ↔ ∀ other ∈ said, other = none) ∧
      (∀ status, (interpretResponse language upper mapping status body).map (·.decision) =
        some result.decision) ∧
      (handle (some result) = .settle ↔ result.decision = .approved) ∧
      (handle (some result) = .reverse ↔ result.decision = .rejected) ∧
      (handle (some result) = .keepReserved ↔ result.decision = .unknown) := by
  obtain ⟨said, hheard, hdecision⟩ :=
    interpretResponse_decision mapping httpStatus body result hresult
  refine ⟨said, hheard, ?_, ?_, ?_, ?_, ?_, ?_, ?_⟩
  · rw [hdecision]
    exact decideFirst_eq_decision_iff .approving
  · rw [hdecision]
    exact decideFirst_eq_decision_iff .rejecting
  · rw [hdecision]
    exact decideFirst_eq_unknown_iff
  · intro status
    rw [interpretResponse_status mapping status httpStatus body, hresult]
    rfl
  all_goals
    show (match result.decision with
      | .approved => Step.settle
      | .rejected => .reverse
      | .unknown => .keepReserved) = _ ↔ _
    cases result.decision <;> decide

/-- A response that approves with its flag and declines with its status. -/
def contradictory : Value :=
  .object [("approved", .boolean true), ("status", .text "DECLINED")]

/-- Lists that both hold one value. -/
def listedTwice : ResponseMapping where
  decisionPath := some "status"
  approvedValues := some [.text "DONE"]
  rejectedValues := some [.text "DONE"]

/-- The upper case of letters. -/
def capitals (text : String) : String := String.ofList (text.toList.map Char.toUpper)

/-- A contradictory response with a server error is approved and settled, as is a value that is
listed as approved and as rejected. -/
theorem contradictory_approved :
    ((interpretResponse Credit.Conditions.plain capitals {} 500 contradictory).map (·.decision) =
        some .approved ∧
      textSignal capitals (some "DECLINED") = some .rejecting ∧
      handle (interpretResponse Credit.Conditions.plain capitals {} 500 contradictory) = .settle) ∧
    (interpretResponse Credit.Conditions.plain capitals listedTwice 200
        (.object [("status", .text "done")])).map (·.decision) = some .approved := by
  decide

def confirmed : Value := .object [("data", .object [("status", .text "Confirmed")])]

/-- The nested status is the first field that says something. -/
theorem first_signal_decides_confirmed :
    ∃ said, heard Credit.Conditions.plain capitals {} confirmed = some said ∧
      ∃ before after, said = before ++ some .approving :: after ∧ ∀ other ∈ before, other = none :=
  (first_signal_decides Credit.Conditions.plain capitals {} 200 confirmed
    { decision := .approved } (by decide)).imp fun _ hsaid => ⟨hsaid.1, hsaid.2.1.mp rfl⟩

end Finify.Delivery.MerchantResponses
