/-
# The audit of commercial configurations

What a call does to the views of the bindings that it is not about.  An edit writes columns of the
lender, which the bindings of the lender share, and an activation retires other bindings.  Neither
is audited there, so that the trails are continuous only in runs that keep to their bindings.
-/

import Finify.Credit.CommercialLife
import Mathlib.Data.List.Chain

namespace Finify.Credit.Commercial

open Finify.Foundations

/-! ## Calls that keep to their binding -/

/-- An edit writes of its lender what is there. -/
def Resolved.keepsLender (resolved : Resolved) : Prop :=
  resolved.lender.settlementWalletTypeCode = some resolved.settlementWallet ∧
    resolved.lender.allocationWeight = resolved.allocationWeight

instance (resolved : Resolved) : Decidable resolved.keepsLender :=
  inferInstanceAs (Decidable (_ ∧ _))

/-- An edit of a binding changes nothing of its lender, or no other binding has that lender. -/
def State.editKeeps (state : State) (bindingId : ℕ) (config : Configuration) : Prop :=
  ∀ resolved ∈ state.resolve config, resolved.keepsLender ∨
    ∀ other ∈ state.bindings.rows, other.id ≠ bindingId →
      other.terms.lenderId ≠ some resolved.lender.id

instance (state : State) (bindingId : ℕ) (config : Configuration) :
    Decidable (state.editKeeps bindingId config) :=
  inferInstanceAs (Decidable (∀ resolved ∈ state.resolve config, resolved.keepsLender ∨
    ∀ other ∈ state.bindings.rows, other.id ≠ bindingId →
      other.terms.lenderId ≠ some resolved.lender.id))

/-- An activation has no other binding to retire. -/
def State.hasNoOther (state : State) (bindingId : ℕ) : Prop :=
  ∀ binding ∈ state.bindings.find? bindingId, ∀ other ∈ state.bindings.rows,
    other.id ≠ bindingId → other.terms.scope = binding.terms.scope →
      other.status ≠ binding.terms.environmentScope.live

instance (state : State) (bindingId : ℕ) : Decidable (state.hasNoOther bindingId) :=
  inferInstanceAs (Decidable (∀ binding ∈ state.bindings.find? bindingId,
    ∀ other ∈ state.bindings.rows, other.id ≠ bindingId →
      other.terms.scope = binding.terms.scope →
        other.status ≠ binding.terms.environmentScope.live))

def Confined (state : State) : Call → Prop
  | .create _ _ config _ => state.editKeeps state.bindings.next config
  | .apply bindingId _ _ config _ => state.editKeeps bindingId config
  | .transition bindingId _ action _ _ _ => action = .activate → state.hasNoOther bindingId

instance (state : State) (call : Call) : Decidable (Confined state call) :=
  match call with
  | .create _ _ config _ => inferInstanceAs (Decidable (state.editKeeps state.bindings.next config))
  | .apply bindingId _ _ config _ => inferInstanceAs (Decidable (state.editKeeps bindingId config))
  | .transition bindingId _ action _ _ _ =>
    inferInstanceAs (Decidable (action = .activate → state.hasNoOther bindingId))

/-- The views of the other bindings are as they were. -/
def KeepsOthers (state after : State) (bindingId : ℕ) : Prop :=
  ∀ other, other ≠ bindingId → after.view other = state.view other

section

variable {state after : State} {bindingId : ℕ} {expectedRevision : Option ℤ} {actor code : String}
  {config : Configuration} {now : ℤ} {action : Action} {reason : Option String}
  {resolved : Resolved}

/-! ## Edits -/

theorem resolve_lender (hresolve : state.resolve config = some resolved) :
    state.lenders.find? resolved.lender.id = some resolved.lender := by
  rw [State.resolve] at hresolve
  split at hresolve
  · next merchant lender countryCode customerWallet settlementWallet weight hmerchant hlender
        _ _ _ _ =>
      rw [Option.ite_none_right_eq_some] at hresolve
      obtain ⟨-, hterms⟩ := hresolve
      obtain ⟨terms, -, rfl⟩ := Option.map_eq_some_iff.mp hterms
      obtain ⟨lenderId, -, hfind⟩ := Option.bind_eq_some_iff.mp hlender
      exact Table.find?_key (Table.find?_eq_some.mp hfind).1
  · cases hresolve

/-- An edit shows in the view of another binding exactly if the binding has the lender and the
lender is changed. -/
theorem viewOf_saved (hresolve : state.resolve config = some resolved) (binding : Binding) :
    (state.saved bindingId resolved actor now).viewOf binding = state.viewOf binding ↔
      (binding.terms.lenderId = some resolved.lender.id → resolved.keepsLender) := by
  have hlender := resolve_lender hresolve
  have hmerchant : ∀ merchantId : ℕ,
      ((state.saved bindingId resolved actor now).merchants.find? merchantId).map Merchant.shown =
        (state.merchants.find? merchantId).map Merchant.shown := by
    intro merchantId
    rw [State.saved, Table.find?_modify]
    split
    · rw [Option.map_map]
      rfl
    · rfl
  cases hid : binding.terms.lenderId with
  | none => simp [State.viewOf, hid]
  | some lenderId =>
    by_cases hsame : lenderId = resolved.lender.id
    · subst hsame
      have hafter : (state.saved bindingId resolved actor now).lenders.find? resolved.lender.id =
          some (resolved.lenderAfter resolved.lender) :=
        Table.find?_modify_of_find? hlender resolved.lenderAfter fun _ => rfl
      have hshown : (resolved.lenderAfter resolved.lender).shown = resolved.lender.shown ↔
          resolved.keepsLender := by
        simp only [Resolved.lenderAfter, Lender.shown, LenderView.mk.injEq, true_and,
          Resolved.keepsLender]
        rw [and_comm, eq_comm, eq_comm (a := resolved.allocationWeight)]
      have hjoined : (resolved.lenderAfter resolved.lender).merchantId =
          resolved.lender.merchantId := rfl
      simp only [State.viewOf, hid, Option.bind_some, hafter, hlender, Option.map_some,
        View.mk.injEq, true_and, Option.some.injEq, hshown, hjoined, forall_const,
        and_iff_left_iff_imp]
      intro _
      cases resolved.lender.merchantId with
      | none => rfl
      | some merchantId => exact hmerchant merchantId
    · have hafter : (state.saved bindingId resolved actor now).lenders.find? lenderId =
          state.lenders.find? lenderId :=
        Table.find?_modify_of_ne _ hsame _ resolved.lenderAfter_id
      simp only [State.viewOf, hid, Option.bind_some, hafter, View.mk.injEq, true_and,
        Option.some.injEq, hsame, false_implies, iff_true]
      cases state.lenders.find? lenderId with
      | none => rfl
      | some lender =>
        cases hjoined : lender.merchantId with
        | none => simp [hjoined]
        | some merchantId => simpa [hjoined] using hmerchant merchantId

/-- What is audited is in the tables. -/
theorem view_audit {mode : Option Action} {before : Option View}
    (haudit : state.audit bindingId mode actor before reason = some after) (other : ℕ) :
    after.view other = state.view other := by
  obtain ⟨shown, -, rfl⟩ := Option.map_eq_some_iff.mp haudit
  rfl

/-- The views that an edit leaves. -/
theorem keepsOthers_saved (hresolve : state.resolve config = some resolved) :
    KeepsOthers state (state.saved bindingId resolved actor now) bindingId ↔
      (resolved.keepsLender ∨ ∀ other ∈ state.bindings.rows, other.id ≠ bindingId →
        other.terms.lenderId ≠ some resolved.lender.id) := by
  have hview : ∀ other, other ≠ bindingId →
      ((state.saved bindingId resolved actor now).view other = state.view other ↔
        ∀ binding ∈ state.bindings.find? other,
          binding.terms.lenderId = some resolved.lender.id → resolved.keepsLender) := by
    intro other hne
    have hfind : (state.saved bindingId resolved actor now).bindings.find? other =
        state.bindings.find? other :=
      Log.find?_modify_of_ne _ hne _ (resolved.bindingAfter_id actor now)
    rw [State.view, State.view, hfind]
    cases state.bindings.find? other with
    | none => simp
    | some binding => simpa using viewOf_saved hresolve binding
  constructor
  · intro hkeeps
    by_cases hlender : resolved.keepsLender
    · exact .inl hlender
    · right
      intro other hother hne hsame
      have hfind : state.bindings.find? other.id = some other :=
        Log.find?_eq_some.mpr ⟨hother, rfl⟩
      exact hlender ((hview other.id hne).mp (hkeeps other.id hne) other hfind hsame)
  · intro hkeeps other hne
    apply (hview other hne).mpr
    intro binding hbinding hsame
    obtain ⟨hmem, rfl⟩ := Log.find?_eq_some.mp hbinding
    rcases hkeeps with hlender | hnone
    · exact hlender
    · exact absurd hsame (hnone binding hmem hne)

/-- An accepted edit leaves the other views exactly if it keeps to its binding. -/
theorem keepsOthers_apply
    (happly : state.apply bindingId expectedRevision actor config now = some after) :
    KeepsOthers state after bindingId ↔ state.editKeeps bindingId config := by
  obtain ⟨binding, resolved, -, -, hresolve, -, haudit⟩ := apply_eq_some happly
  have hsaved : KeepsOthers state (state.saved bindingId resolved actor now) bindingId ↔ _ :=
    keepsOthers_saved hresolve
  have hviews : KeepsOthers state after bindingId ↔
      KeepsOthers state (state.saved bindingId resolved actor now) bindingId := by
    apply forall₂_congr
    intro other hne
    rw [view_audit haudit]
  rw [hviews, hsaved, State.editKeeps]
  constructor
  · intro hkeeps found hfound
    cases hresolve.symm.trans hfound
    exact hkeeps
  · intro hkeeps
    exact hkeeps resolved hresolve

/-- So does the edit at the end of a creation. -/
theorem keepsOthers_create (hcreate : state.create code actor config now = some after) :
    KeepsOthers state after state.bindings.next ↔
      state.editKeeps state.bindings.next config := by
  rw [State.create] at hcreate
  split at hcreate
  · cases hcreate
  · refine Iff.trans ?_ (Iff.trans (keepsOthers_apply hcreate) ?_)
    · apply forall₂_congr
      intro other hne
      have hsame : (state.inserted (btrim code).toUpper actor config now).view other =
          state.view other := by
        rw [State.view, State.view, State.inserted, Log.find?_append_of_ne _ _ _ hne]
        rfl
      rw [hsame]
    · rw [State.editKeeps, State.editKeeps]
      apply forall₂_congr
      intro resolved hresolved
      apply or_congr_right
      constructor
      · intro hnone other hother
        exact hnone other (List.mem_append_left _ hother)
      · intro hnone other hother hne
        rcases List.mem_append.mp hother with hold | hnew
        · exact hnone other hold hne
        · rw [List.mem_singleton.mp hnew] at hne
          exact absurd rfl hne

/-! ## Transitions -/

theorem find?_transitioned {binding : Binding} {target : Status} {other : ℕ}
    (hne : other ≠ binding.id) :
    (state.transitioned binding action target actor reason now).bindings.find? other =
      (state.bindings.find? other).map fun row =>
        if action = .activate then binding.replacedBy target now row else row := by
  rw [State.transitioned, Log.find?_modify_of_ne _ hne]
  by_cases haction : action = .activate
  · simp only [haction, if_true]
    exact Log.find?_map _ _ (binding.replacedBy_id target now) other
  · simp only [haction, if_false]
    cases state.bindings.find? other <;> rfl

/-- A row that is replaced is changed. -/
theorem Binding.replacedBy_eq_self {binding other : Binding} {target : Status} (now : ℤ)
    (hne : other.id ≠ binding.id) :
    binding.replacedBy target now other = other ↔
      (other.terms.scope = binding.terms.scope → other.status ≠ target) := by
  constructor
  · intro hsame hscope hstatus
    rw [Binding.replacedBy, if_pos ⟨hne, hscope, hstatus⟩] at hsame
    have hrevision : other.revision + 1 = other.revision := congrArg Binding.revision hsame
    omega
  · intro hkept
    apply if_neg
    intro hreplaced
    exact hkept hreplaced.2.1 hreplaced.2.2

theorem target_activate {binding : Binding} {target : Status}
    (htarget : binding.target actor reason .activate = some target) :
    target = binding.terms.environmentScope.live := by
  rw [Binding.target, Option.ite_none_right_eq_some] at htarget
  exact (Option.some.inj htarget.2).symm

/-- An accepted transition leaves the other views exactly if it is no activation that retires. -/
theorem keepsOthers_transition
    (htransition : state.transition bindingId expectedRevision action actor reason now =
      some after) :
    KeepsOthers state after bindingId ↔ (action = .activate → state.hasNoOther bindingId) := by
  obtain ⟨binding, target, hfind, -, htarget, -, haudit⟩ := transition_eq_some htransition
  obtain ⟨-, rfl⟩ := Log.find?_eq_some.mp hfind
  have hview : ∀ other, after.view other = ((state.bindings.find? other).map fun row =>
      if other ≠ binding.id ∧ action = .activate then binding.replacedBy target now row
      else row).map state.viewOf ∨ other = binding.id := by
    intro other
    by_cases hid : other = binding.id
    · exact .inr hid
    · left
      rw [view_audit haudit, State.view, find?_transitioned hid]
      simp only [ne_eq, hid, not_false_eq_true, true_and]
      rfl
  have hsame : ∀ other ∈ state.bindings.rows, other.id ≠ binding.id →
      (after.view other.id = state.view other.id ↔
        (action = .activate → other.terms.scope = binding.terms.scope →
          other.status ≠ target)) := by
    intro other hother hne
    have hfound : state.bindings.find? other.id = some other :=
      Log.find?_eq_some.mpr ⟨hother, rfl⟩
    rw [(hview other.id).resolve_right hne, State.view, hfound]
    by_cases haction : action = .activate
    · simp only [haction, ne_eq, hne, not_false_eq_true, and_self, if_true, Option.map_some,
        Option.some.injEq, forall_const]
      rw [← Binding.replacedBy_eq_self now hne]
      constructor
      · intro hviews
        exact congrArg View.binding hviews
      · intro hrows
        rw [hrows]
    · simp [haction]
  constructor
  · intro hkeeps haction found hfound other hother hne hscope
    cases hfind.symm.trans hfound
    subst haction
    rw [← target_activate htarget]
    exact (hsame other hother hne).mp (hkeeps other.id hne) rfl hscope
  · intro hnone other hne
    cases hfound : state.bindings.find? other with
    | none =>
      rw [(hview other).resolve_right hne, State.view, hfound]
      rfl
    | some row =>
      obtain ⟨hrow, rfl⟩ := Log.find?_eq_some.mp hfound
      apply (hsame row hrow hne).mpr
      intro haction hscope
      have hlive := hnone haction binding hfind row hrow hne hscope
      subst haction
      rw [target_activate htarget]
      exact hlive

/-- An accepted call leaves the views of the other bindings exactly if it keeps to its own. -/
theorem keepsOthers_iff (call : Call) (hstep : step state call = some after) :
    KeepsOthers state after (call.bindingId state) ↔ Confined state call := by
  cases call with
  | create code actor config now => exact keepsOthers_create hstep
  | apply bindingId expectedRevision actor config now => exact keepsOthers_apply hstep
  | transition bindingId expectedRevision action actor reason now =>
    exact keepsOthers_transition hstep

/-! ## The trail -/

def State.auditsOf (state : State) (bindingId : ℕ) : List Audit :=
  state.audits.rows.filter fun row => row.bindingId = bindingId

/-- The trail of every binding is without a gap, and its end is the view of the binding. -/
def Continuous (state : State) : Prop :=
  ∀ bindingId,
    (state.auditsOf bindingId).IsChain
      (fun first second => second.previousState = some first.newState) ∧
    state.view bindingId = (state.auditsOf bindingId).getLast?.map Audit.newState

/-- An accepted call adds one row to the trail of its binding, from the view before it to the view
after it. -/
structure Audits (state after : State) (bindingId : ℕ) (before : Option View) : Prop where
  others : ∀ other, other ≠ bindingId → after.auditsOf other = state.auditsOf other
  own : ∃ row : Audit, after.auditsOf bindingId = state.auditsOf bindingId ++ [row] ∧
    row.previousState = before ∧ after.view bindingId = some row.newState

theorem Audits.of_audit {mode : Option Action} {before : Option View}
    (haudit : state.audit bindingId mode actor before reason = some after) :
    Audits state after bindingId before := by
  obtain ⟨shown, hshown, rfl⟩ := Option.map_eq_some_iff.mp haudit
  refine ⟨?_, ?_⟩
  · intro other hne
    simp [State.auditsOf, Ne.symm hne]
  · refine ⟨{ id := state.audits.next, bindingId := bindingId, action := mode, actorId := actor
              previousState := before, newState := shown, reason := reason }, ?_, rfl, hshown⟩
    simp [State.auditsOf]

theorem Audits.of_apply
    (happly : state.apply bindingId expectedRevision actor config now = some after) :
    Audits state after bindingId (state.view bindingId) := by
  obtain ⟨binding, resolved, -, -, -, -, haudit⟩ := apply_eq_some happly
  exact ⟨(Audits.of_audit haudit).others, (Audits.of_audit haudit).own⟩

theorem Audits.of_create (hcreate : state.create code actor config now = some after) :
    ∃ before, Audits state after state.bindings.next before := by
  rw [State.create] at hcreate
  split at hcreate
  · cases hcreate
  · have haudits := Audits.of_apply hcreate
    exact ⟨_, haudits.others, haudits.own⟩

theorem Audits.of_transition
    (htransition : state.transition bindingId expectedRevision action actor reason now =
      some after) :
    Audits state after bindingId (state.view bindingId) := by
  obtain ⟨binding, target, -, -, -, -, haudit⟩ := transition_eq_some htransition
  exact ⟨(Audits.of_audit haudit).others, (Audits.of_audit haudit).own⟩

/-- A call that keeps to its binding keeps the trails continuous. -/
theorem Continuous.audit {before : Option View} (hcontinuous : Continuous state)
    (haudits : Audits state after bindingId before)
    (hbefore : ∀ last ∈ (state.auditsOf bindingId).getLast?, before = some last.newState)
    (hkeeps : KeepsOthers state after bindingId) : Continuous after := by
  intro other
  by_cases hid : other = bindingId
  · subst hid
    obtain ⟨row, hrows, hprevious, hview⟩ := haudits.own
    constructor
    · rw [hrows, List.isChain_append]
      refine ⟨(hcontinuous other).1, .singleton row, ?_⟩
      intro last hlast first hfirst
      cases hfirst
      rw [hprevious]
      exact hbefore last hlast
    · rw [hview, hrows, List.getLast?_append]
      rfl
  · rw [hkeeps other hid, haudits.others other hid]
    exact hcontinuous other

theorem view_next : state.view state.bindings.next = none := by
  rw [State.view, Option.map_eq_none_iff, Option.eq_none_iff_forall_ne_some]
  intro binding hbinding
  obtain ⟨hmem, hid⟩ := Log.find?_eq_some.mp hbinding
  exact (state.bindings.below binding hmem).ne hid

theorem Continuous.step (call : Call) (hcontinuous : Continuous state)
    (hconfined : Confined state call) (hstep : Commercial.step state call = some after) :
    Continuous after := by
  have hkeeps := (keepsOthers_iff call hstep).mpr hconfined
  have hlast : ∀ bindingId, ∀ last ∈ (state.auditsOf bindingId).getLast?,
      state.view bindingId = some last.newState := by
    intro bindingId last hmem
    rw [(hcontinuous bindingId).2, Option.mem_def.mp hmem]
    rfl
  cases call with
  | create code actor config now =>
    obtain ⟨before, haudits⟩ := Audits.of_create hstep
    refine hcontinuous.audit haudits ?_ hkeeps
    intro last hmem
    exact absurd (view_next.symm.trans (hlast _ last hmem)) nofun
  | apply bindingId expectedRevision actor config now =>
    exact hcontinuous.audit (.of_apply hstep) (hlast bindingId) hkeeps
  | transition bindingId expectedRevision action actor reason now =>
    exact hcontinuous.audit (.of_transition hstep) (hlast bindingId) hkeeps

/-- In every state that calls lead to, an accepted edit leaves the views of the other bindings
exactly if it changes nothing of its lender or no other binding has that lender; and while every
call keeps to its binding, the trails are continuous. -/
theorem edits_contained {start : State} (hbindings : start.bindings.rows = [])
    (haudits : start.audits.rows = []) :
    (∀ state, Reaches Commercial.step start state →
      ∀ bindingId expectedRevision actor config now after,
        state.apply bindingId expectedRevision actor config now = some after →
          ((∀ other, other ≠ bindingId → after.view other = state.view other) ↔
            state.editKeeps bindingId config)) ∧
    ∀ state, ReachesUnder Commercial.step Confined start state → Continuous state := by
  constructor
  · intro state _ bindingId expectedRevision actor config now after happly
    exact keepsOthers_apply happly
  · intro state hrun
    apply hrun.preserves Continuous fun _ call _ h hconfined => h.step call hconfined
    intro bindingId
    simp [State.auditsOf, haudits, State.view, Log.find?, hbindings]

end

/-! ## One lender, two configurations -/

/-- A configuration of another product with another wallet type for the settlement. -/
def otherWallet : Configuration :=
  { retailLoan with productId := some "OTHER", settlementWalletTypeCode := some 206 }

/-- Two configurations of one lender for two products go live. -/
theorem edits_contained_two_products :
    ∃ state, ReachesUnder step Confined market state ∧
      state.bindings.rows.map Binding.status = [.active, .active] ∧
      state.auditsOf 1 ≠ [] ∧ Continuous state := by
  have hany : (runInputs (guardedStep step Confined) market
      (goesLive 1 retailLoan ++ goesLive 2 { retailLoan with productId := some "OTHER" })).any
        (fun state => decide (state.bindings.rows.map Binding.status = [.active, .active] ∧
          state.auditsOf 1 ≠ [])) := by decide +kernel
  obtain ⟨state, hrun, hfacts⟩ := (Option.any_eq_true _ _).mp hany
  obtain ⟨hlive, haudited⟩ := of_decide_eq_true hfacts
  have hreaches := (Reaches.of_runInputs hrun).under
  exact ⟨state, hreaches, hlive, haudited, (edits_contained rfl rfl).2 state hreaches⟩

/-- A draft with another settlement wallet changes the view of the active configuration, whose
next audit row does not start where its last one ended. -/
theorem draft_leaks :
    ∃ before state after, Reaches step market before ∧
      before.bindings.rows.map Binding.status = [.active, .draft] ∧
      before.apply 2 (some 2) "maker" otherWallet 6 = some state ∧
      state.view 1 ≠ before.view 1 ∧
      step state (.transition 1 (some 5) .retire "maker" none 7) = some after ∧
      ¬ Continuous after := by
  have hany : (runInputs step market (goesLive 1 retailLoan ++
      [.create "OTHER" "maker" { retailLoan with productId := some "OTHER" } 5])).any (fun before =>
        decide (before.bindings.rows.map Binding.status = [.active, .draft]) &&
        (before.apply 2 (some 2) "maker" otherWallet 6).any fun state =>
          decide (state.view 1 ≠ before.view 1) &&
          (step state (.transition 1 (some 5) .retire "maker" none 7)).any fun after =>
            decide (¬ (after.auditsOf 1).IsChain
              fun first second => second.previousState = some first.newState)) := by
    decide +kernel
  obtain ⟨before, hrun, hfacts⟩ := (Option.any_eq_true _ _).mp hany
  obtain ⟨hstatus, hedited⟩ := Bool.and_eq_true_iff.mp hfacts
  obtain ⟨state, hstate, hfacts⟩ := (Option.any_eq_true _ _).mp hedited
  obtain ⟨hleak, hretired⟩ := Bool.and_eq_true_iff.mp hfacts
  obtain ⟨after, hafter, hbroken⟩ := (Option.any_eq_true _ _).mp hretired
  refine ⟨before, state, after, Reaches.of_runInputs hrun, of_decide_eq_true hstatus, hstate,
    of_decide_eq_true hleak, hafter, ?_⟩
  intro hcontinuous
  exact of_decide_eq_true hbroken (hcontinuous 1).1

end Finify.Credit.Commercial
