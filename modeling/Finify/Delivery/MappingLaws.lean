/-
# What field mappings write

Mappings whose targets do not meet write apart from each other: what stands in a request is what
they converted, whatever their order.  Only a header, a query or a path by the name `__proto__` is
lost, since an assignment to it makes no property.
-/

import Finify.Delivery.FieldMapping

namespace Finify.Delivery.FieldMapping

open Foundations
open Credit.Conditions (Language Number Value field hasOwn segments)

variable {language : Language} {runtime : Runtime} {context : MappingContext}
variable {mapping : Mapping} {result : MappedRequest} {fields : Fields} {value : Value}

/-! ## Objects as nodes -/

def objects : Nodes String Value where
  entries
    | .object fields => some fields
    | _ => none
  node := .object
  entries_node _ := rfl

/-- A name that objects do not inherit a property by. -/
def IsOwn (language : Language) (name : String) : Prop :=
  name ≠ "__proto__" ∧ ∀ fields, language.inherited (.object fields) name = .undefined

theorem hasOwn_eq (fields : Fields) (name : String) :
    hasOwn fields name = (named? name fields).isSome := by
  unfold hasOwn named?
  rw [Option.isSome_map, List.isSome_find?]

theorem property_of_entry {name : String} (hentry : named? name fields = some value) :
    (Value.object fields).property language name = value := by
  have hown : hasOwn fields name = true := by rw [hasOwn_eq, hentry]; rfl
  show (if hasOwn fields name then field fields name else _) = value
  rw [if_pos hown]
  exact congrArg (Option.getD · Value.undefined) hentry

theorem opened_property {name : String} (hname : IsOwn language name) :
    opened ((Value.object fields).property language name) =
      objects.opened (named? name fields) := by
  cases hentry : named? name fields with
  | some value =>
    rw [property_of_entry hentry]
    cases value <;> rfl
  | none =>
    have hown : hasOwn fields name = false := by rw [hasOwn_eq, hentry]; rfl
    show opened (if hasOwn fields name then field fields name else _) = _
    rw [hown, if_neg Bool.false_ne_true, hname.2]
    rfl

/-- Along names that are not inherited `writePath` writes into the objects. -/
theorem writeAt_eq {parts : List String} (hparts : ∀ part ∈ parts, IsOwn language part) :
    writeAt language value parts fields = objects.write value parts fields := by
  induction parts generalizing fields with
  | nil => rfl
  | cons part rest ih =>
    have hpart := hparts part List.mem_cons_self
    cases rest with
    | nil => exact if_neg hpart.1
    | cons next rest =>
      show setProperty part (.object (writeAt language value (next :: rest) _)) fields = _
      rw [ih fun other hmem => hparts other (List.mem_cons_of_mem _ hmem),
        opened_property hpart]
      exact if_neg hpart.1

/-- What stands at a path in the objects is read there. -/
theorem foldl_child_of_at? {parts : List String} {found : Value}
    (hat : objects.at? value parts = some found) : parts.foldl (child language) value = found := by
  induction parts generalizing value with
  | nil => exact Option.some.inj hat
  | cons part rest ih =>
    cases value with
    | object fields =>
      have hcons : (named? part fields).bind (fun next => objects.at? next rest) = some found :=
        (Nodes.at?_node_cons part).symm.trans hat
      obtain ⟨next, hentry, hrest⟩ := Option.bind_eq_some_iff.mp hcons
      rw [List.foldl_cons]
      exact (congrArg (rest.foldl (child language)) (property_of_entry hentry)).trans (ih hrest)
    | _ => cases hat

/-! ## What a mapping puts where -/

def Mapping.isBody (mapping : Mapping) : Bool :=
  mapping.location.getD .body = .body || mapping.location.getD .body = .message

/-- The part of the request that a mapping writes into. -/
def Mapping.slot (mapping : Mapping) : Location :=
  if mapping.isBody then .body else mapping.location.getD .body

/-- The path of names that a mapping writes at. -/
def Mapping.parts (mapping : Mapping) : List String :=
  if mapping.isBody then segments mapping.target else [mapping.target]

def MappedRequest.at (result : MappedRequest) : Location → Fields
  | .body | .message => result.body
  | .header => result.headers
  | .query => result.query
  | .path => result.path

/-- What a mapping puts into its part of the request, none where it has no value. -/
def Mapping.put (runtime : Runtime) (context : MappingContext) (mapping : Mapping) :
    Except Failure (Option Value) := do
  match ← mapping.converted runtime context with
  | none => .ok none
  | some converted =>
    if mapping.isBody then
      if segments mapping.target = [] then
        .error (.badRequest "Integration mapping target cannot be empty")
      else .ok (some converted)
    else (scalar runtime converted).map some

def MappedRequest.set (language : Language) (mapping : Mapping) (value : Value)
    (result : MappedRequest) : MappedRequest :=
  match mapping.location.getD .body with
  | .body | .message =>
    { result with body := writeAt language value (segments mapping.target) result.body }
  | .header => { result with headers := setProperty mapping.target value result.headers }
  | .query => { result with query := setProperty mapping.target value result.query }
  | .path => { result with path := setProperty mapping.target value result.path }

/-- A mapping puts what it has in its place. -/
theorem add_eq :
    result.add runtime context mapping =
      (mapping.put runtime context).map fun put =>
        put.elim result fun value => result.set runtime.toLanguage mapping value := by
  unfold MappedRequest.add Mapping.put
  cases mapping.converted runtime context with
  | error failure => rfl
  | ok converted =>
    cases converted with
    | none => rfl
    | some converted =>
      show result.place runtime mapping converted = Except.map _ (if mapping.isBody then _ else _)
      unfold MappedRequest.place MappedRequest.set Mapping.isBody writePath
      cases mapping.location.getD .body with
      | body | message =>
        by_cases hempty : segments mapping.target = []
        · simp [hempty, Except.map, Bind.bind, Except.bind]
        · simp [hempty, Except.map, Bind.bind, Except.bind]
      | header | query | path =>
        cases scalar runtime converted with
        | error failure => rfl
        | ok text => rfl

/-! ## Distinct targets -/

/-- The targets in the body have names of their own and do not lead through one another, and those
of a header, a query or a path are distinct. -/
structure Distinct (language : Language) (mappings : List Mapping) : Prop where
  own : ∀ mapping ∈ mappings, mapping.isBody = true → ∀ part ∈ segments mapping.target,
    IsOwn language part
  apart : mappings.Pairwise fun first second =>
    first.isBody = true → second.isBody = true →
      Nodes.Apart (segments first.target) (segments second.target)
  named : mappings.Pairwise fun first second =>
    first.slot = second.slot → first.isBody = false → first.target ≠ second.target

/-- The name of a header, a query or a path that an assignment does not make. -/
def Mapping.isLost (mapping : Mapping) : Bool := !mapping.isBody && mapping.target = "__proto__"

/-- Two mappings that write into the same part of a request write apart. -/
def Meetless (first second : Mapping) : Prop :=
  first.slot = second.slot → Nodes.Apart first.parts second.parts

theorem isBody_iff_slot : mapping.isBody = true ↔ mapping.slot = .body := by
  unfold Mapping.slot
  cases hbody : mapping.isBody with
  | true => exact iff_of_true rfl (if_pos rfl)
  | false =>
    rw [if_neg Bool.false_ne_true]
    refine iff_of_false Bool.false_ne_true fun hslot => ?_
    rw [Mapping.isBody, hslot] at hbody
    cases hbody

theorem slot_ne_message : mapping.slot ≠ .message := by
  unfold Mapping.slot
  cases hbody : mapping.isBody with
  | true =>
    rw [if_pos rfl]
    decide
  | false =>
    rw [if_neg Bool.false_ne_true]
    intro hslot
    rw [Mapping.isBody, hslot] at hbody
    cases hbody

theorem Distinct.meetless {mappings : List Mapping} (hdistinct : Distinct language mappings) :
    mappings.Pairwise Meetless := by
  refine hdistinct.apart.imp₂ ?_ hdistinct.named
  intro first second hapart hnamed hslot
  have hbodies : first.isBody = second.isBody := by
    rw [Bool.eq_iff_iff, isBody_iff_slot, isBody_iff_slot, hslot]
  unfold Mapping.parts
  cases hbody : first.isBody with
  | true =>
    rw [← hbodies, hbody, if_pos rfl, if_pos rfl]
    exact hapart hbody (hbodies ▸ hbody)
  | false =>
    rw [← hbodies, hbody, if_neg Bool.false_ne_true, if_neg Bool.false_ne_true]
    have hne := hnamed hslot hbody
    constructor
    · intro hbegins
      exact hne (List.cons_prefix_cons.mp hbegins).1
    · intro hbegins
      exact hne (List.cons_prefix_cons.mp hbegins).1.symm

/-! ## What is written -/

/-- The part of the request that a mapping writes into. -/
theorem at_set_self (hown : mapping.isBody = true → ∀ part ∈ mapping.parts, IsOwn language part) :
    (result.set language mapping value).at mapping.slot =
      if mapping.isLost then result.at mapping.slot
      else objects.write value mapping.parts (result.at mapping.slot) := by
  cases hbody : mapping.isBody with
  | true =>
    have hslot := isBody_iff_slot.mp hbody
    have hset : (result.set language mapping value).at .body =
        writeAt language value mapping.parts result.body := by
      unfold Mapping.parts
      rw [hbody, if_pos rfl]
      unfold Mapping.isBody at hbody
      unfold MappedRequest.set
      cases hlocation : mapping.location.getD .body with
      | body | message => rfl
      | header | query | path =>
        rw [hlocation] at hbody
        cases hbody
    rw [hslot, hset, Mapping.isLost, hbody, writeAt_eq (hown hbody)]
    rfl
  | false =>
    unfold Mapping.slot Mapping.parts Mapping.isLost
    rw [hbody, if_neg Bool.false_ne_true, if_neg Bool.false_ne_true]
    unfold Mapping.isBody at hbody
    unfold MappedRequest.set
    have hproperty : ∀ name list, setProperty name value list =
        if (!false && decide (name = "__proto__")) = true then list
        else objects.write value [name] list := by
      intro name list
      simp [setProperty, Nodes.write]
    cases hlocation : mapping.location.getD .body with
    | body | message =>
      rw [hlocation] at hbody
      cases hbody
    | header | query | path => exact hproperty _ _

/-- A mapping leaves the other parts of the request alone. -/
theorem at_set_of_ne {slot : Location} (hmessage : slot ≠ .message) (hne : mapping.slot ≠ slot) :
    (result.set language mapping value).at slot = result.at slot := by
  unfold Mapping.slot Mapping.isBody at hne
  unfold MappedRequest.set
  cases hlocation : mapping.location.getD .body <;> rw [hlocation] at hne <;> cases slot <;>
    first | rfl | exact absurd rfl hne | exact absurd rfl hmessage

/-- What mappings write into a part of the request. -/
def writes (runtime : Runtime) (context : MappingContext) (slot : Location)
    (mappings : List Mapping) : List (List String × Value) :=
  (mappings.filter fun mapping => mapping.slot = slot && !mapping.isLost).filterMap fun mapping =>
    match mapping.put runtime context with
    | .ok (some value) => some (mapping.parts, value)
    | _ => none

theorem mem_writes {slot : Location} {mappings : List Mapping} {write : List String × Value} :
    write ∈ writes runtime context slot mappings ↔
      ∃ mapping ∈ mappings, mapping.slot = slot ∧ mapping.isLost = false ∧
        mapping.parts = write.1 ∧ mapping.put runtime context = .ok (some write.2) := by
  unfold writes
  rw [List.mem_filterMap]
  constructor
  · rintro ⟨mapping, hmem, hwrite⟩
    rw [List.mem_filter, Bool.and_eq_true, decide_eq_true_eq, Bool.not_eq_true'] at hmem
    split at hwrite
    · rename_i value hput
      cases hwrite
      exact ⟨mapping, hmem.1, hmem.2.1, hmem.2.2, rfl, hput⟩
    · cases hwrite
  · rintro ⟨mapping, hmem, hslot, hlost, hparts, hput⟩
    refine ⟨mapping, List.mem_filter.mpr ⟨hmem, ?_⟩, ?_⟩
    · rw [Bool.and_eq_true, decide_eq_true_eq, Bool.not_eq_true']
      exact ⟨hslot, hlost⟩
    · rw [hput, hparts]

/-- Every part of the request holds what the mappings wrote into it. -/
def MappedRequest.Holds (runtime : Runtime) (context : MappingContext) (done : List Mapping)
    (result : MappedRequest) : Prop :=
  ∀ slot, slot ≠ .message →
    objects.Written (writes runtime context slot done) (result.at slot)

theorem parts_ne_nil (hput : mapping.put runtime context = .ok (some value)) :
    mapping.parts ≠ [] := by
  unfold Mapping.parts
  unfold Mapping.put at hput
  cases hbody : mapping.isBody with
  | false =>
    rw [if_neg Bool.false_ne_true]
    exact List.cons_ne_nil _ _
  | true =>
    rw [if_pos rfl]
    intro hnil
    rw [hbody, hnil] at hput
    cases hconverted : mapping.converted runtime context with
    | error failure =>
      rw [hconverted] at hput
      cases hput
    | ok converted =>
      rw [hconverted] at hput
      cases converted <;> cases hput

/-- What is written by a mapping more. -/
theorem writes_cons {slot : Location} {done : List Mapping} :
    writes runtime context slot (mapping :: done) =
      match mapping.put runtime context with
      | .ok (some value) =>
        if mapping.slot = slot ∧ mapping.isLost = false then
          (mapping.parts, value) :: writes runtime context slot done
        else writes runtime context slot done
      | _ => writes runtime context slot done := by
  have hfilter : (decide (mapping.slot = slot) && !mapping.isLost) = true ↔
      mapping.slot = slot ∧ mapping.isLost = false := by
    rw [Bool.and_eq_true, decide_eq_true_eq, Bool.not_eq_true']
  unfold writes
  rw [List.filter_cons]
  by_cases hkept : mapping.slot = slot ∧ mapping.isLost = false
  · rw [if_pos (hfilter.mpr hkept), List.filterMap_cons]
    cases mapping.put runtime context with
    | error failure => rfl
    | ok put =>
      cases put with
      | none => rfl
      | some value => exact (if_pos hkept).symm
  · rw [if_neg fun h => hkept (hfilter.mp h)]
    cases mapping.put runtime context with
    | error failure => rfl
    | ok put =>
      cases put with
      | none => rfl
      | some value => exact (if_neg hkept).symm

/-- What a mapping adds when nothing meets its target. -/
theorem MappedRequest.Holds.step {done : List Mapping} {after : MappedRequest}
    (hholds : result.Holds runtime context done)
    (hown : mapping.isBody = true → ∀ part ∈ mapping.parts, IsOwn runtime.toLanguage part)
    (hmeetless : ∀ other ∈ done, Meetless other mapping)
    (hadd : result.add runtime context mapping = .ok after) :
    after.Holds runtime context (mapping :: done) := by
  intro slot hmessage
  rw [add_eq] at hadd
  rw [writes_cons]
  cases hput : mapping.put runtime context with
  | error failure =>
    rw [hput] at hadd
    cases hadd
  | ok put =>
    rw [hput] at hadd
    cases put with
    | none =>
      cases hadd
      exact hholds slot hmessage
    | some value =>
      cases hadd
      show objects.Written (if _ then _ else _)
        ((result.set runtime.toLanguage mapping value).at slot)
      by_cases hslot : mapping.slot = slot
      · subst hslot
        rw [at_set_self hown]
        cases hlost : mapping.isLost with
        | true =>
          rw [if_pos rfl, if_neg fun h => Bool.false_ne_true h.2.symm]
          exact hholds _ hmessage
        | false =>
          rw [if_neg Bool.false_ne_true, if_pos ⟨rfl, rfl⟩]
          apply (hholds _ hmessage).write (parts_ne_nil hput)
          intro write hwrite
          obtain ⟨other, hmem, hsame, _, hparts, _⟩ := mem_writes.mp hwrite
          rw [← hparts]
          exact hmeetless other hmem hsame
      · rw [at_set_of_ne hmessage hslot, if_neg fun h => hslot h.1]
        exact hholds slot hmessage

/-- What stands in a request after a list of mappings, from the last to the first. -/
theorem MappedRequest.Holds.run {mappings done : List Mapping} {start : MappedRequest}
    (hholds : start.Holds runtime context done)
    (hown : ∀ mapping ∈ mappings, mapping.isBody = true → ∀ part ∈ mapping.parts,
      IsOwn runtime.toLanguage part)
    (hmappings : mappings.Pairwise Meetless)
    (hdone : ∀ other ∈ done, ∀ mapping ∈ mappings, Meetless other mapping)
    (hrun : mappings.foldlM (MappedRequest.add runtime context) start = .ok result) :
    result.Holds runtime context (mappings.reverse ++ done) := by
  induction mappings generalizing start done with
  | nil =>
    cases hrun
    exact hholds
  | cons mapping rest ih =>
    rw [List.foldlM_cons] at hrun
    cases hadd : start.add runtime context mapping with
    | error failure =>
      rw [hadd] at hrun
      cases hrun
    | ok after =>
      rw [hadd] at hrun
      rw [List.pairwise_cons] at hmappings
      have hnext : after.Holds runtime context (mapping :: done) :=
        hholds.step (hown mapping List.mem_cons_self)
          (fun other hother => hdone other hother mapping List.mem_cons_self) hadd
      rw [List.reverse_cons, List.append_assoc, List.singleton_append]
      apply ih hnext (fun other hmem => hown other (List.mem_cons_of_mem _ hmem))
        hmappings.2 _ hrun
      intro other hother next hmem
      rcases List.mem_cons.mp hother with rfl | hother
      · exact hmappings.1 next hmem
      · exact hdone other hother next (List.mem_cons_of_mem _ hmem)

/-- What `map` returns holds what the mappings wrote. -/
theorem holds_of_map {mappings : List Mapping} (hdistinct : Distinct runtime.toLanguage mappings)
    (hmap : map runtime mappings context = .ok result) (slot : Location)
    (hmessage : slot ≠ .message) :
    ∃ written, objects.Written written (result.at slot) ∧
      ∀ write, write ∈ written ↔ write ∈ writes runtime context slot mappings := by
  have hown : ∀ mapping ∈ mappings, mapping.isBody = true → ∀ part ∈ mapping.parts,
      IsOwn runtime.toLanguage part := by
    intro mapping hmem hbody
    have hparts : mapping.parts = segments mapping.target := by
      unfold Mapping.parts
      rw [hbody, if_pos rfl]
    rw [hparts]
    exact hdistinct.own mapping hmem hbody
  have hstart : MappedRequest.Holds runtime context [] {} := by
    intro slot _
    cases slot <;> exact Nodes.Written.nil
  have hholds := hstart.run hown hdistinct.meetless (by simp) hmap
  refine ⟨_, hholds slot hmessage, fun write => ?_⟩
  rw [mem_writes, mem_writes]
  simp only [List.append_nil, List.mem_reverse]

/-! ## Requests as their mappings say -/

/-- The mapping throws by itself: a value that it requires is missing or does not convert, or its
target in the body is empty. -/
def Mapping.Fails (runtime : Runtime) (context : MappingContext) (mapping : Mapping) : Prop :=
  ∀ put, mapping.put runtime context ≠ .ok put

def Mapping.HasValue (runtime : Runtime) (context : MappingContext) (mapping : Mapping) : Prop :=
  ∃ value, mapping.converted runtime context = .ok (some value)

/-- The request holds the converted values of the mappings, and nothing else. -/
structure Mapped (runtime : Runtime) (context : MappingContext) (mappings : List Mapping)
    (result : MappedRequest) : Prop where
  body : ∀ mapping ∈ mappings, mapping.isBody = true → ∀ value,
    mapping.converted runtime context = .ok (some value) →
      readPath runtime.toLanguage result.body mapping.target = value
  entries : ∀ mapping ∈ mappings, mapping.isBody = false → ∀ value text,
    mapping.converted runtime context = .ok (some value) → scalar runtime value = .ok text →
      named? mapping.target (result.at mapping.slot) = some text
  onlyBody : ∀ path, path ≠ [] → ∀ found, objects.at? (.object result.body) path = some found →
    ∃ mapping ∈ mappings, mapping.isBody = true ∧ ∃ value,
      mapping.converted runtime context = .ok (some value) ∧
        ((path <+: segments mapping.target ∧ ∃ inner, found = .object inner) ∨
          ∃ rest, path = segments mapping.target ++ rest ∧ objects.at? value rest = some found)
  onlyEntries : ∀ slot, slot ≠ .body → slot ≠ .message → ∀ name text,
    named? name (result.at slot) = some text →
      ∃ mapping ∈ mappings, mapping.slot = slot ∧ mapping.target = name ∧ ∃ value,
        mapping.converted runtime context = .ok (some value) ∧ scalar runtime value = .ok text

/-- Requests that hold the same, in whatever order. -/
def MappedRequest.Same (first second : MappedRequest) : Prop :=
  ∀ slot, objects.Same (first.at slot) (second.at slot)

/-- Both throw, or both return the same. -/
def SameOutcome : Except Failure MappedRequest → Except Failure MappedRequest → Prop
  | .ok first, .ok second => first.Same second
  | .error _, .error _ => True
  | _, _ => False

/-- `map` throws or returns what the mappings say, in any order of them. -/
structure WritesAsSaid (runtime : Runtime) (context : MappingContext) (mappings : List Mapping) :
    Prop where
  mapped : ∀ result, map runtime mappings context = .ok result →
    Mapped runtime context mappings result
  reordered : ∀ other, other.Perm mappings →
    SameOutcome (map runtime mappings context) (map runtime other context)

theorem put_body {put : Option Value} (hbody : mapping.isBody = true)
    (hput : mapping.put runtime context = .ok put) :
    mapping.converted runtime context = .ok put := by
  unfold Mapping.put at hput
  rw [hbody] at hput
  cases hconverted : mapping.converted runtime context with
  | error failure =>
    rw [hconverted] at hput
    cases hput
  | ok converted =>
    rw [hconverted] at hput
    cases converted with
    | none =>
      cases hput
      rfl
    | some value =>
      by_cases hnil : segments mapping.target = []
      · rw [hnil] at hput
        cases hput
      · have hsome : (if segments mapping.target = [] then _ else _) = Except.ok put := hput
        rw [if_neg hnil] at hsome
        exact hsome

theorem put_entry {text : Value} (hbody : mapping.isBody = false) :
    mapping.put runtime context = .ok (some text) ↔
      ∃ value, mapping.converted runtime context = .ok (some value) ∧
        scalar runtime value = .ok text := by
  unfold Mapping.put
  rw [hbody]
  cases mapping.converted runtime context with
  | error failure =>
    constructor
    · intro hput
      cases hput
    · rintro ⟨value, hconverted, _⟩
      cases hconverted
  | ok converted =>
    cases converted with
    | none =>
      constructor
      · intro hput
        cases hput
      · rintro ⟨value, hconverted, _⟩
        cases hconverted
    | some value =>
      show (scalar runtime value).map some = _ ↔ _
      constructor
      · intro hput
        cases hscalar : scalar runtime value with
        | error failure =>
          rw [hscalar] at hput
          cases hput
        | ok found =>
          rw [hscalar] at hput
          cases hput
          exact ⟨value, rfl, hscalar⟩
      · rintro ⟨other, hconverted, hscalar⟩
        cases hconverted
        rw [hscalar]
        rfl

/-- `map` throws exactly if a mapping does. -/
theorem map_ok_iff {mappings : List Mapping} :
    (∃ result, map runtime mappings context = .ok result) ↔
      ∀ mapping ∈ mappings, ¬ mapping.Fails runtime context := by
  unfold map
  generalize ({} : MappedRequest) = start
  induction mappings generalizing start with
  | nil => exact iff_of_true ⟨start, rfl⟩ (by simp)
  | cons mapping rest ih =>
    rw [List.foldlM_cons, List.forall_mem_cons, add_eq]
    cases hput : mapping.put runtime context with
    | error failure =>
      refine iff_of_false ?_ ?_
      · rintro ⟨result, hresult⟩
        cases hresult
      · rintro ⟨hfails, _⟩
        apply hfails
        intro put hok
        rw [hput] at hok
        cases hok
    | ok put =>
      have hholds : ¬ mapping.Fails runtime context := fun hfails => hfails put hput
      exact (ih _).trans (and_iff_right hholds).symm

theorem parts_of_body (hbody : mapping.isBody = true) : mapping.parts = segments mapping.target := by
  unfold Mapping.parts
  rw [hbody, if_pos rfl]

theorem parts_of_entry (hbody : mapping.isBody = false) : mapping.parts = [mapping.target] := by
  unfold Mapping.parts
  rw [hbody, if_neg Bool.false_ne_true]

theorem isLost_of_body (hbody : mapping.isBody = true) : mapping.isLost = false := by
  unfold Mapping.isLost
  rw [hbody]
  rfl

theorem isBody_of_slot {slot : Location} (hslot : mapping.slot = slot) (hne : slot ≠ .body) :
    mapping.isBody = false := by
  rw [← Bool.not_eq_true, isBody_iff_slot, hslot]
  exact hne

theorem at?_singleton (name : String) :
    objects.at? (.object fields) [name] = named? name fields := by
  show (named? name fields).bind some = _
  cases named? name fields <;> rfl

section Written

variable {mappings : List Mapping} {written : List (List String × Value)} {slot : Location}

/-- What stands in the body comes from a mapping. -/
theorem onlyBody_of_written (hwritten : objects.Written written result.body)
    (hmem : ∀ write, write ∈ written ↔ write ∈ writes runtime context .body mappings)
    {path : List String} (hpath : path ≠ []) {found : Value}
    (hfound : objects.at? (.object result.body) path = some found) :
    ∃ mapping ∈ mappings, mapping.isBody = true ∧ ∃ value,
      mapping.converted runtime context = .ok (some value) ∧
        ((path <+: segments mapping.target ∧ ∃ inner, found = .object inner) ∨
          ∃ rest, path = segments mapping.target ++ rest ∧ objects.at? value rest = some found) := by
  by_cases hmeets : ∃ write ∈ written, ¬ Nodes.Apart write.1 path
  · obtain ⟨write, hwrite, hmeet⟩ := hmeets
    obtain ⟨mapping, hmapping, hslot, _, hparts, hput⟩ := mem_writes.mp ((hmem write).mp hwrite)
    have hbody := isBody_iff_slot.mpr hslot
    rw [parts_of_body hbody] at hparts
    refine ⟨mapping, hmapping, hbody, write.2, put_body hbody hput, ?_⟩
    rw [hparts]
    by_cases hbelow : write.1 <+: path
    · obtain ⟨rest, rfl⟩ := hbelow
      exact Or.inr ⟨rest, rfl, (hwritten.placed write hwrite rest).symm.trans hfound⟩
    · have habove : path <+: write.1 := by
        by_contra hnot
        exact hmeet ⟨hbelow, hnot⟩
      have hne : path ≠ write.1 := fun h => hbelow (h ▸ List.prefix_rfl)
      obtain ⟨inner, hinner⟩ := hwritten.opened write hwrite path habove hne
      exact Or.inl ⟨habove, inner, Option.some.inj (hfound.symm.trans hinner)⟩
  · have hapart : ∀ write ∈ written, Nodes.Apart write.1 path := fun write hwrite => by
      by_contra hnot
      exact hmeets ⟨write, hwrite, hnot⟩
    have hnothing := hwritten.nothing path hpath hapart
    exact absurd (hfound.symm.trans hnothing) (Option.some_ne_none found)

/-- What stands in another part of the request comes from a mapping that is not lost. -/
theorem onlyEntries_of_written (hwritten : objects.Written written (result.at slot))
    (hmem : ∀ write, write ∈ written ↔ write ∈ writes runtime context slot mappings)
    (hslot : slot ≠ .body) {name : String} {text : Value}
    (htext : named? name (result.at slot) = some text) :
    ∃ mapping ∈ mappings, mapping.slot = slot ∧ mapping.isLost = false ∧ mapping.target = name ∧
      mapping.put runtime context = .ok (some text) := by
  rw [← at?_singleton] at htext
  by_cases hmeets : ∃ write ∈ written, ¬ Nodes.Apart write.1 [name]
  · obtain ⟨write, hwrite, hmeet⟩ := hmeets
    obtain ⟨mapping, hmapping, hin, hlost, hparts, hput⟩ :=
      mem_writes.mp ((hmem write).mp hwrite)
    rw [parts_of_entry (isBody_of_slot hin hslot)] at hparts
    have hname : mapping.target = name := by
      by_contra hne
      apply hmeet
      rw [← hparts]
      constructor
      · exact fun hbegins => hne (List.cons_prefix_cons.mp hbegins).1
      · exact fun hbegins => hne (List.cons_prefix_cons.mp hbegins).1.symm
    have hplaced := hwritten.placed write hwrite []
    rw [← hparts, hname, List.append_nil] at hplaced
    have hvalue : write.2 = text := Option.some.inj (hplaced.symm.trans htext)
    exact ⟨mapping, hmapping, hin, hlost, hname, hvalue ▸ hput⟩
  · have hapart : ∀ write ∈ written, Nodes.Apart write.1 [name] := fun write hwrite => by
      by_contra hnot
      exact hmeets ⟨write, hwrite, hnot⟩
    have hnothing := hwritten.nothing [name] (List.cons_ne_nil _ _) hapart
    exact absurd (htext.symm.trans hnothing) (Option.some_ne_none text)

end Written

/-- Mappings of which none is lost leave a request that holds what they say. -/
theorem mapped_of_kept {mappings : List Mapping} (hdistinct : Distinct runtime.toLanguage mappings)
    (hkept : ∀ mapping ∈ mappings, mapping.isBody = false → mapping.HasValue runtime context →
      mapping.target ≠ "__proto__")
    (hmap : map runtime mappings context = .ok result) :
    Mapped runtime context mappings result where
  body := by
    intro mapping hmapping hbody value hconverted
    obtain ⟨written, hwritten, hmem⟩ := holds_of_map hdistinct hmap .body (by decide)
    have hput : mapping.put runtime context = .ok (some value) := by
      have hfine := map_ok_iff.mp ⟨result, hmap⟩ mapping hmapping
      rw [Mapping.Fails, not_forall] at hfine
      obtain ⟨put, hput⟩ := hfine
      rw [not_not] at hput
      have hsame := Except.ok.inj ((put_body hbody hput).symm.trans hconverted)
      rw [hput, hsame]
    have hwrite : (mapping.parts, value) ∈ written :=
      (hmem _).mpr (mem_writes.mpr
        ⟨mapping, hmapping, isBody_iff_slot.mp hbody, isLost_of_body hbody, rfl, hput⟩)
    have hplaced := hwritten.placed _ hwrite []
    rw [List.append_nil, parts_of_body hbody] at hplaced
    exact foldl_child_of_at? hplaced
  entries := by
    intro mapping hmapping hbody value text hconverted hscalar
    obtain ⟨written, hwritten, hmem⟩ := holds_of_map hdistinct hmap mapping.slot slot_ne_message
    have hlost : mapping.isLost = false := by
      unfold Mapping.isLost
      rw [hbody, decide_eq_false (hkept mapping hmapping hbody ⟨value, hconverted⟩)]
      rfl
    have hput := (put_entry hbody).mpr ⟨value, hconverted, hscalar⟩
    have hwrite : (mapping.parts, text) ∈ written :=
      (hmem _).mpr (mem_writes.mpr ⟨mapping, hmapping, rfl, hlost, rfl, hput⟩)
    have hplaced := hwritten.placed _ hwrite []
    rw [List.append_nil, parts_of_entry hbody] at hplaced
    exact (at?_singleton mapping.target).symm.trans hplaced
  onlyBody := by
    intro path hpath found hfound
    obtain ⟨written, hwritten, hmem⟩ := holds_of_map hdistinct hmap .body (by decide)
    exact onlyBody_of_written hwritten hmem hpath hfound
  onlyEntries := by
    intro slot hbody hmessage name text htext
    obtain ⟨written, hwritten, hmem⟩ := holds_of_map hdistinct hmap slot hmessage
    obtain ⟨mapping, hmapping, hslot, _, hname, hput⟩ :=
      onlyEntries_of_written hwritten hmem hbody htext
    exact ⟨mapping, hmapping, hslot, hname, (put_entry (isBody_of_slot hslot hbody)).mp hput⟩

theorem Distinct.perm {mappings other : List Mapping}
    (hdistinct : Distinct language mappings) (hperm : other.Perm mappings) :
    Distinct language other where
  own := fun mapping hmem => hdistinct.own mapping (hperm.mem_iff.mp hmem)
  apart := by
    apply (hperm.pairwise_iff _).mpr hdistinct.apart
    exact fun hapart hsecond hfirst => (hapart hfirst hsecond).symm
  named := by
    apply (hperm.pairwise_iff _).mpr hdistinct.named
    intro first second hnamed hslot hbody htarget
    apply hnamed hslot.symm _ htarget.symm
    rw [← Bool.not_eq_true, isBody_iff_slot, ← hslot, ← isBody_iff_slot, Bool.not_eq_true]
    exact hbody

/-- The order of mappings with distinct targets does not matter. -/
theorem sameOutcome_of_perm {mappings other : List Mapping}
    (hdistinct : Distinct runtime.toLanguage mappings) (hperm : other.Perm mappings) :
    SameOutcome (map runtime mappings context) (map runtime other context) := by
  have hok : (∃ result, map runtime mappings context = .ok result) ↔
      ∃ result, map runtime other context = .ok result := by
    rw [map_ok_iff, map_ok_iff]
    exact forall_congr' fun mapping => by rw [hperm.mem_iff]
  cases hfirst : map runtime mappings context with
  | error failure =>
    cases hsecond : map runtime other context with
    | error failure => exact trivial
    | ok second =>
      obtain ⟨result, hresult⟩ := hok.mpr ⟨second, hsecond⟩
      rw [hfirst] at hresult
      cases hresult
  | ok first =>
    cases hsecond : map runtime other context with
    | error failure =>
      obtain ⟨result, hresult⟩ := hok.mp ⟨first, hfirst⟩
      rw [hsecond] at hresult
      cases hresult
    | ok second =>
      have hsame : ∀ slot, slot ≠ .message →
          objects.Same (first.at slot) (second.at slot) := by
        intro slot hmessage
        obtain ⟨written, hwritten, hmem⟩ := holds_of_map hdistinct hfirst slot hmessage
        obtain ⟨others, hothers, hmem'⟩ :=
          holds_of_map (hdistinct.perm hperm) hsecond slot hmessage
        apply hwritten.same hothers
        intro write
        rw [hmem, hmem', mem_writes, mem_writes]
        exact exists_congr fun mapping => by rw [hperm.mem_iff]
      intro slot
      cases slot with
      | message => exact hsame .body (by decide)
      | _ => exact hsame _ (by decide)

/-- Mappings with distinct targets write what they say in any order exactly if one of them throws,
or none that has a value writes a header, a query or a path by the name `__proto__`. -/
theorem writes_as_said_iff (runtime : Runtime) (context : MappingContext) (mappings : List Mapping)
    (hdistinct : Distinct runtime.toLanguage mappings) :
    WritesAsSaid runtime context mappings ↔
      (∃ mapping ∈ mappings, mapping.Fails runtime context) ∨
        ∀ mapping ∈ mappings, mapping.isBody = false → mapping.HasValue runtime context →
          mapping.target ≠ "__proto__" := by
  constructor
  · intro hsaid
    by_cases hfails : ∃ mapping ∈ mappings, mapping.Fails runtime context
    · exact Or.inl hfails
    right
    rintro mapping hmapping hbody ⟨value, hconverted⟩ hproto
    have hfine : ∀ mapping ∈ mappings, ¬ mapping.Fails runtime context :=
      fun other hother hfail => hfails ⟨other, hother, hfail⟩
    obtain ⟨result, hmap⟩ := map_ok_iff.mpr hfine
    obtain ⟨text, hscalar⟩ : ∃ text, scalar runtime value = .ok text := by
      have hput := hfine mapping hmapping
      rw [Mapping.Fails, not_forall] at hput
      obtain ⟨put, hput⟩ := hput
      rw [not_not, Mapping.put, hconverted, hbody] at hput
      cases hscalar : scalar runtime value with
      | ok text => exact ⟨text, rfl⟩
      | error failure =>
        have herror : (scalar runtime value).map some = .ok put := hput
        rw [hscalar] at herror
        cases herror
    have hentry :=
      (hsaid.mapped result hmap).entries mapping hmapping hbody value text hconverted hscalar
    obtain ⟨written, hwritten, hmem⟩ := holds_of_map hdistinct hmap mapping.slot slot_ne_message
    have hslot : mapping.slot ≠ .body := by
      rw [Ne, ← isBody_iff_slot, hbody]
      exact Bool.false_ne_true
    obtain ⟨other, _, hin, hlost, htarget, _⟩ :=
      onlyEntries_of_written hwritten hmem hslot hentry
    rw [Mapping.isLost, isBody_of_slot hin hslot, htarget, hproto] at hlost
    exact absurd hlost (by decide)
  · intro hcondition
    refine ⟨?_, fun other => sameOutcome_of_perm hdistinct⟩
    intro result hmap
    rcases hcondition with ⟨mapping, hmapping, hfails⟩ | hkept
    · exact absurd hfails (map_ok_iff.mp ⟨result, hmap⟩ mapping hmapping)
    · exact mapped_of_kept hdistinct hkept hmap

/-- The language on whole numbers and on what JSON holds in one word. -/
def plain : Runtime where
  toLanguage := Credit.Conditions.plain
  lower text := String.ofList (text.toList.map Char.toLower)
  fixed value := toString value.num ++ ".00"
  stringify
    | .null => some (.text "null")
    | .boolean flag => some (.text (if flag then "true" else "false"))
    | .number value => some (.text (Credit.Conditions.plain.numeral value))
    | _ => some .undefined

/-- A message with an amount and a reference. -/
def payment : MappingContext where
  message := [("TransactionId", .text "123"), ("Destination", .text "447700000001")]
  transaction := []
  system := [("correlationId", .text "abc")]
  secret := []

def prototypeHeader : Mapping where
  source := "literalValue"
  target := "__proto__"
  location := some .header
  literalValue := .text "finify"

/-- A header by the name of the prototype has a value that is not written. -/
theorem prototype_header_lost :
    Distinct plain.toLanguage [prototypeHeader] ∧
      prototypeHeader.converted plain payment = .ok (some (.text "finify")) ∧
      map plain [prototypeHeader] payment = .ok {} ∧
      ¬ WritesAsSaid plain payment [prototypeHeader] := by
  have hmap : map plain [prototypeHeader] payment = .ok {} := rfl
  refine ⟨⟨?_, List.pairwise_singleton _ _, List.pairwise_singleton _ _⟩, rfl, hmap, ?_⟩
  · intro mapping hmem hbody
    rw [List.mem_singleton.mp hmem] at hbody
    cases hbody
  · intro hsaid
    have hentry := (hsaid.mapped {} hmap).entries prototypeHeader List.mem_cons_self rfl
      (.text "finify") (.text "finify") rfl rfl
    cases hentry

/-- The reference in the body, and in a header. -/
def references : List Mapping :=
  [{ source := "message.TransactionId", target := "payment.id", required := true },
    { source := "message.Destination", target := "payment.to" },
    { source := "system.correlationId", target := "x-reference", location := some .header }]

theorem distinct_references : Distinct plain.toLanguage references where
  own := by
    have hnames : ∀ mapping ∈ references, ∀ part ∈ segments mapping.target,
        part ≠ "__proto__" := by decide
    exact fun mapping hmem _ part hpart => ⟨hnames mapping hmem part hpart, fun _ => rfl⟩
  apart := by
    unfold Nodes.Apart
    decide
  named := by decide

/-- Three mappings that write what they say. -/
theorem writes_as_said_references : WritesAsSaid plain payment references :=
  (writes_as_said_iff plain payment references distinct_references).mpr (Or.inr (by
    have hnames : ∀ mapping ∈ references, mapping.target ≠ "__proto__" := by decide
    exact fun mapping hmem _ _ => hnames mapping hmem))

end Finify.Delivery.FieldMapping
