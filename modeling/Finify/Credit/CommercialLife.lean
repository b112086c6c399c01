/-
# The life cycle of commercial configurations

Beside the tables stands the history of who wrote the terms of a binding and who approved them.
Every edit takes a binding back to the drafts, so that what is active is what was approved.
-/

import Finify.Credit.Commercial
import Finify.Foundations.Marks
import Finify.Foundations.Transition

namespace Finify.Credit.Commercial

open Finify.Foundations

/-! ## Calls with their history -/

/-- The tables and the history of the terms. -/
structure Recorded where
  state : State
  marks : List (Mark ℕ String Terms) := []

def Call.mark (state : State) : Call → Option (Mark ℕ String Terms)
  | create _ actor _ _ => some (.wrote state.bindings.next actor)
  | apply bindingId _ actor _ _ => some (.wrote bindingId actor)
  | transition bindingId _ .approve actor _ _ =>
    (state.bindings.find? bindingId).map fun binding => .approved bindingId actor binding.terms
  | transition _ _ _ _ _ _ => none

/-- One call, with its entry in the history. -/
def recordedStep (recorded : Recorded) (call : Call) : Option Recorded :=
  (step recorded.state call).map fun after =>
    { state := after, marks := (call.mark recorded.state).toList ++ recorded.marks }

/-- The revision of a binding, `0` if it does not exist. -/
def State.revision (state : State) (bindingId : ℕ) : ℤ :=
  ((state.bindings.find? bindingId).map Binding.revision).getD 0

def Call.expectedRevision : Call → Option ℤ
  | create _ _ _ _ => none
  | apply _ expectedRevision _ _ _ | transition _ expectedRevision _ _ _ _ => expectedRevision

/-- An approver who is not the last editor. -/
def IsIndependent (actor : String) (authors : List String) : Prop :=
  ∀ editor ∈ authors.head?, editor.toLower ≠ actor.toLower

/-- At most one binding of a scope is active and at most one active for tests, and each of them
has the terms that it had when it was approved, by somebody who is not its last editor, has no
activation blockers and is complete. -/
def Governed (recorded : Recorded) : Prop :=
  OneLive recorded.state.bindings.rows ∧
    ∀ binding ∈ recorded.state.bindings.rows, binding.status.isLive →
      (∃ actor, Mark.approval? binding.id recorded.marks = some (actor, binding.terms) ∧
        binding.approvedBy = some actor ∧
        IsIndependent actor (Mark.writers binding.id recorded.marks)) ∧
      binding.terms.activationBlockers = [] ∧ binding.isComplete

section

variable {state after : State} {bindingId : ℕ} {expectedRevision : Option ℤ} {actor code : String}
  {config : Configuration} {now : ℤ} {action : Action} {reason : Option String}

/-! ## What calls do to the bindings -/

theorem checked_eq_some :
    state.checked bindingId = some after ↔
      ((∀ row ∈ state.bindings.rows, row.id = bindingId → row.fits) ∧
        OneLive state.bindings.rows) ∧ state = after := by
  rw [State.checked, Option.ite_none_right_eq_some, Option.some.injEq]

theorem audit_bindings {mode : Option Action} {before : Option View}
    (haudit : state.audit bindingId mode actor before reason = some after) :
    after.bindings = state.bindings := by
  obtain ⟨shown, -, rfl⟩ := Option.map_eq_some_iff.mp haudit
  rfl

/-- What an accepted edit has found and written. -/
theorem apply_eq_some
    (happly : state.apply bindingId expectedRevision actor config now = some after) :
    ∃ binding resolved, state.bindings.find? bindingId = some binding ∧
      binding.isAt expectedRevision ∧ state.resolve config = some resolved ∧
      ((∀ row ∈ (state.saved bindingId resolved actor now).bindings.rows,
          row.id = bindingId → row.fits) ∧
        OneLive (state.saved bindingId resolved actor now).bindings.rows) ∧
      (state.saved bindingId resolved actor now).audit bindingId none actor
        (state.view bindingId) none = some after := by
  rw [State.apply] at happly
  cases hfind : state.bindings.find? bindingId with
  | none => simp [hfind] at happly
  | some binding =>
    simp only [hfind, Option.ite_none_right_eq_some, Option.bind_eq_some_iff] at happly
    obtain ⟨⟨-, hat, -⟩, resolved, hresolved, checked, hchecked, haudit⟩ := happly
    obtain ⟨hconstraints, rfl⟩ := checked_eq_some.mp hchecked
    exact ⟨binding, resolved, rfl, hat, hresolved, hconstraints, haudit⟩

/-- What an accepted transition has found and written. -/
theorem transition_eq_some
    (htransition : state.transition bindingId expectedRevision action actor reason now =
      some after) :
    ∃ binding target, state.bindings.find? bindingId = some binding ∧
      binding.isAt expectedRevision ∧ binding.target actor reason action = some target ∧
      ((∀ row ∈ (state.transitioned binding action target actor reason now).bindings.rows,
          row.id = bindingId → row.fits) ∧
        OneLive (state.transitioned binding action target actor reason now).bindings.rows) ∧
      (state.transitioned binding action target actor reason now).audit bindingId (some action)
        actor (state.view bindingId) ((reason.map btrim).filter fun text => text ≠ "") =
          some after := by
  rw [State.transition] at htransition
  cases hfind : state.bindings.find? bindingId with
  | none => simp [hfind] at htransition
  | some binding =>
    simp only [hfind, Option.ite_none_right_eq_some, Option.bind_eq_some_iff] at htransition
    obtain ⟨⟨-, hat⟩, target, htarget, checked, hchecked, haudit⟩ := htransition
    obtain ⟨hconstraints, rfl⟩ := checked_eq_some.mp hchecked
    exact ⟨binding, target, rfl, hat, htarget, hconstraints, haudit⟩

/-- A call has edited a binding: it is a draft of the actor, and the others are as they were. -/
structure Edits (rows : List Binding) (bindingId : ℕ) (actor : String) (after : State) : Prop where
  rows : ∀ row ∈ after.bindings.rows,
    (row ∈ rows ∧ row.id ≠ bindingId) ∨
      (row.id = bindingId ∧ row.status = .draft ∧ row.modifiedBy = some actor ∧ row.fits)
  oneLive : OneLive after.bindings.rows

theorem Edits.of_apply
    (happly : state.apply bindingId expectedRevision actor config now = some after) :
    Edits state.bindings.rows bindingId actor after := by
  obtain ⟨binding, resolved, -, -, -, hconstraints, haudit⟩ := apply_eq_some happly
  have hbindings := audit_bindings haudit
  refine ⟨?_, ?_⟩
  · intro row hrow
    rw [hbindings] at hrow
    obtain ⟨old, hold, hrewritten⟩ := List.mem_map.mp hrow
    by_cases hid : old.id = bindingId
    · rw [if_pos hid] at hrewritten
      subst hrewritten
      exact .inr ⟨hid, rfl, rfl, hconstraints.1 _ hrow hid⟩
    · rw [if_neg hid] at hrewritten
      subst hrewritten
      exact .inl ⟨hold, hid⟩
  · rw [hbindings]
    exact hconstraints.2

theorem Edits.of_create (hcreate : state.create code actor config now = some after) :
    Edits state.bindings.rows state.bindings.next actor after := by
  rw [State.create] at hcreate
  split at hcreate
  · cases hcreate
  · have hedits := Edits.of_apply hcreate
    refine ⟨?_, hedits.oneLive⟩
    intro row hrow
    rcases hedits.rows row hrow with ⟨hold, hid⟩ | hnew
    · rcases List.mem_append.mp hold with hold | hfresh
      · exact .inl ⟨hold, hid⟩
      · rw [List.mem_singleton.mp hfresh] at hid
        exact absurd rfl hid
    · exact .inr hnew

/-- A row after a transition is the moved binding, another one that is as it was, or another one
that was retired. -/
theorem mem_transitioned {binding : Binding} {target : Status} {row : Binding}
    (hrow : row ∈ (state.transitioned binding action target actor reason now).bindings.rows) :
    ∃ old ∈ state.bindings.rows,
      (old.id = binding.id ∧ row = old.moved action target actor reason now) ∨
      (old.id ≠ binding.id ∧ (row = old ∨
        (action = .activate ∧ old.terms.scope = binding.terms.scope ∧ old.status = target ∧
          row = { old with
            status := .retired, revision := old.revision + 1, updatedAt := now }))) := by
  obtain ⟨middle, hmiddle, rfl⟩ := List.mem_map.mp hrow
  have hothers : ∃ old ∈ state.bindings.rows, middle.id = old.id ∧
      (middle = old ∨ (old.id ≠ binding.id ∧ action = .activate ∧
        old.terms.scope = binding.terms.scope ∧ old.status = target ∧ middle =
          { old with status := .retired, revision := old.revision + 1, updatedAt := now })) := by
    by_cases haction : action = .activate
    · rw [if_pos haction] at hmiddle
      obtain ⟨old, hold, rfl⟩ := List.mem_map.mp hmiddle
      refine ⟨old, hold, Binding.replacedBy_id _ _ _ _, ?_⟩
      unfold Binding.replacedBy
      split
      · next hreplaced => exact .inr ⟨hreplaced.1, haction, hreplaced.2.1, hreplaced.2.2, rfl⟩
      · exact .inl rfl
    · rw [if_neg haction] at hmiddle
      exact ⟨middle, hmiddle, rfl, .inl rfl⟩
  obtain ⟨old, hold, hid, hcase⟩ := hothers
  refine ⟨old, hold, ?_⟩
  by_cases hsame : middle.id = binding.id
  · rw [if_pos hsame]
    rcases hcase with rfl | ⟨hne, -⟩
    · exact .inl ⟨hsame, rfl⟩
    · exact absurd (hid.symm.trans hsame) hne
  · rw [if_neg hsame]
    refine .inr ⟨fun h => hsame (hid.trans h), ?_⟩
    rcases hcase with hkept | ⟨-, hretired⟩
    · exact .inl hkept
    · exact .inr hretired

/-! ## Agreement with the history -/

/-- How bindings are read.  An approved one can be activated without another look at its terms. -/
def bindingView : RowView Binding ℕ String Terms where
  key := Binding.id
  content := Binding.terms
  approver := Binding.approvedBy
  live binding := binding.status = .approved ∨ binding.status.isLive

/-- The bindings agree with the history. -/
structure Lawful (recorded : Recorded) : Prop where
  fits : ∀ row ∈ recorded.state.bindings.rows, row.fits
  oneLive : OneLive recorded.state.bindings.rows
  edited : ∀ row ∈ recorded.state.bindings.rows,
    (Mark.writers row.id recorded.marks).head? = some (row.modifiedBy.getD row.createdBy)
  kept : Kept bindingView IsIndependent recorded.state.bindings.rows recorded.marks

theorem Lawful.governed {recorded : Recorded} (hlawful : Lawful recorded) : Governed recorded := by
  refine ⟨hlawful.oneLive, ?_⟩
  intro binding hbinding hlive
  have hcomplete := (hlawful.fits binding hbinding).2.2.2 hlive
  exact ⟨hlawful.kept.of_live hbinding (.inr hlive), hcomplete.2.2.2.2.2.2.2.2.1, hcomplete⟩

variable {recorded : Recorded}

/-- An edit keeps the agreement. -/
theorem Lawful.edit (hlawful : Lawful recorded)
    (hedits : Edits recorded.state.bindings.rows bindingId actor after) :
    Lawful { state := after, marks := .wrote bindingId actor :: recorded.marks } where
  fits row hrow := by
    rcases hedits.rows row hrow with ⟨hold, -⟩ | ⟨-, -, -, hfits⟩
    · exact hlawful.fits row hold
    · exact hfits
  oneLive := hedits.oneLive
  edited row hrow := by
    rcases hedits.rows row hrow with ⟨hold, hid⟩ | ⟨hid, -, hmodified, -⟩
    · rw [Mark.writers_of_ne (Ne.symm hid)]
      exact hlawful.edited row hold
    · rw [hmodified, hid]
      simp [Mark.writers]
  kept := by
    suffices hfollows : ∀ row ∈ after.bindings.rows, Follows bindingView bindingView IsIndependent
        recorded.state.bindings.rows recorded.marks (some (.wrote bindingId actor)) row from
      hlawful.kept.step hfollows
    intro row hrow
    rcases hedits.rows row hrow with ⟨hold, hid⟩ | ⟨hid, hdraft, -, -⟩
    · refine .kept row hold rfl ?_ rfl (fun _ => rfl) .inl
      intro made hmade
      cases hmade
      exact Ne.symm hid
    · refine .written actor ?_ ?_
      · rw [← hid]
        rfl
      · show ¬ (row.status = .approved ∨ row.status.isLive)
        rw [hdraft]
        decide

/-- What a transition that makes a binding approved or active starts from. -/
theorem target_live {binding : Binding} {target : Status}
    (htarget : binding.target actor reason action = some target)
    (hlive : target = .approved ∨ target.isLive) :
    (action = .approve ∧ binding.isCheckedBy actor) ∨ binding.status = .approved := by
  cases action with
  | submit | reject | retire =>
    rw [Binding.target, Option.ite_none_right_eq_some] at htarget
    cases htarget.2
    exact absurd hlive (by decide)
  | approve =>
    rw [Binding.target, Option.ite_none_right_eq_some] at htarget
    exact .inl ⟨rfl, htarget.1.2⟩
  | activate =>
    rw [Binding.target, Option.ite_none_right_eq_some] at htarget
    exact .inr htarget.1.1

theorem target_approve {binding : Binding} {target : Status}
    (htarget : binding.target actor reason .approve = some target) : binding.isCheckedBy actor := by
  rw [Binding.target, Option.ite_none_right_eq_some] at htarget
  exact htarget.1.2

theorem Binding.retired_fits {row : Binding} (hfits : row.fits) :
    Binding.fits
      { row with status := .retired, revision := row.revision + 1, updatedAt := now } :=
  ⟨hfits.1, hfits.2.1, hfits.2.2.1, fun hlive => absurd hlive Bool.false_ne_true⟩

/-- A transition keeps the agreement. -/
theorem Lawful.transition (hlawful : Lawful recorded)
    (htransition : recorded.state.transition bindingId expectedRevision action actor reason now =
      some after) :
    Lawful
      { state := after
        marks := ((Call.transition bindingId expectedRevision action actor reason now).mark
          recorded.state).toList ++ recorded.marks } := by
  obtain ⟨binding, target, hfind, -, htarget, hconstraints, haudit⟩ :=
    transition_eq_some htransition
  obtain ⟨hbinding, hid⟩ := Log.find?_eq_some.mp hfind
  have hbindings := audit_bindings haudit
  -- only an approval is entered in the history
  have hmark : ∀ made ∈
      (Call.transition bindingId expectedRevision action actor reason now).mark recorded.state,
      made = .approved bindingId actor binding.terms ∧ action = .approve := by
    intro made hmade
    cases action with
    | approve =>
      rw [Call.mark, hfind] at hmade
      cases hmade
      exact ⟨rfl, rfl⟩
    | submit | activate | reject | retire => cases hmade
  have hwriters : ∀ key, Mark.writers key (((Call.transition bindingId expectedRevision action
      actor reason now).mark recorded.state).toList ++ recorded.marks) =
        Mark.writers key recorded.marks := by
    intro key
    cases hmade : (Call.transition bindingId expectedRevision action actor reason now).mark
      recorded.state with
    | none => rfl
    | some made =>
      rw [(hmark made hmade).1]
      rfl
  refine ⟨?_, ?_, ?_, ?_⟩
  · intro row hrow
    rw [hbindings] at hrow
    obtain ⟨old, hold, ⟨hsame, rfl⟩ | ⟨-, rfl | ⟨-, -, -, rfl⟩⟩⟩ := mem_transitioned hrow
    · exact hconstraints.1 _ hrow (hsame.trans hid)
    · exact hlawful.fits _ hold
    · exact Binding.retired_fits (hlawful.fits old hold)
  · rw [hbindings]
    exact hconstraints.2
  · intro row hrow
    rw [hbindings] at hrow
    rw [hwriters]
    obtain ⟨old, hold, ⟨-, rfl⟩ | ⟨-, rfl | ⟨-, -, -, rfl⟩⟩⟩ := mem_transitioned hrow
    · exact hlawful.edited old hold
    · exact hlawful.edited _ hold
    · exact hlawful.edited old hold
  · suffices hfollows : ∀ row ∈ after.bindings.rows, Follows bindingView bindingView
        IsIndependent recorded.state.bindings.rows recorded.marks
        ((Call.transition bindingId expectedRevision action actor reason now).mark
          recorded.state) row from hlawful.kept.step hfollows
    intro row hrow
    rw [hbindings] at hrow
    obtain ⟨old, hold, ⟨hsame, rfl⟩ | ⟨hne, hrow⟩⟩ := mem_transitioned hrow
    · have hold' : old = binding :=
        recorded.state.bindings.eq_of_serial_eq hold hbinding hsame
      subst hold'
      by_cases happrove : action = .approve
      · subst happrove
        refine .approved actor ?_ rfl ?_
        · rw [Call.mark, hfind, ← hid]
          rfl
        · intro editor heditor
          have hlast := hlawful.edited old hold
          rw [show editor = old.modifiedBy.getD old.createdBy from
            Option.some.inj (heditor.symm.trans hlast)]
          exact (target_approve htarget).symm
      · refine .kept old hold rfl ?_ ?_ (fun _ => rfl) ?_
        · intro made hmade
          exact absurd (hmark made hmade).2 happrove
        · show (if action = .approve then some actor else old.approvedBy) = old.approvedBy
          rw [if_neg happrove]
        · intro hlive
          rcases target_live htarget hlive with ⟨haction, -⟩ | happroved
          · exact absurd haction happrove
          · exact .inl (.inl happroved)
    · have hother : ∀ made ∈ (Call.transition bindingId expectedRevision action actor reason
          now).mark recorded.state, made.key ≠ old.id := by
        intro made hmade
        rw [(hmark made hmade).1]
        exact fun h => hne (h.symm.trans hid.symm)
      rcases hrow with rfl | ⟨-, -, -, rfl⟩
      · exact .kept row hold rfl hother rfl (fun _ => rfl) .inl
      · refine .kept old hold rfl hother rfl (fun _ => rfl) ?_
        intro hlive
        exact absurd hlive (by simp [bindingView, Status.isLive])

/-! ## Revisions -/

theorem revision_of_mem {binding : Binding} (hbinding : binding ∈ state.bindings.rows) :
    state.revision binding.id = binding.revision := by
  rw [State.revision, Log.find?_eq_some.mpr ⟨hbinding, rfl⟩]
  rfl

theorem revision_apply
    (happly : state.apply bindingId expectedRevision actor config now = some after) :
    after.revision bindingId = state.revision bindingId + 1 ∧
      ∀ revision ∈ expectedRevision, state.revision bindingId = revision := by
  obtain ⟨binding, resolved, hfind, hat, -, -, haudit⟩ := apply_eq_some happly
  obtain ⟨hbinding, rfl⟩ := Log.find?_eq_some.mp hfind
  have hwritten : resolved.bindingAfter actor now binding ∈ after.bindings.rows := by
    rw [audit_bindings haudit]
    exact List.mem_map.mpr ⟨binding, hbinding, if_pos rfl⟩
  rw [revision_of_mem hbinding]
  exact ⟨revision_of_mem hwritten, hat⟩

theorem revision_transition
    (htransition : state.transition bindingId expectedRevision action actor reason now =
      some after) :
    after.revision bindingId = state.revision bindingId + 1 ∧
      ∀ revision ∈ expectedRevision, state.revision bindingId = revision := by
  obtain ⟨binding, target, hfind, hat, -, -, haudit⟩ := transition_eq_some htransition
  obtain ⟨hbinding, rfl⟩ := Log.find?_eq_some.mp hfind
  have hwritten : binding.moved action target actor reason now ∈ after.bindings.rows := by
    rw [audit_bindings haudit]
    refine List.mem_map.mpr ⟨binding, ?_, if_pos rfl⟩
    by_cases haction : action = .activate
    · rw [if_pos haction]
      refine List.mem_map.mpr ⟨binding, hbinding, if_neg fun h => h.1 rfl⟩
    · rw [if_neg haction]
      exact hbinding
  rw [revision_of_mem hbinding]
  exact ⟨revision_of_mem hwritten, hat⟩

theorem revision_create (hcreate : state.create code actor config now = some after) :
    after.revision state.bindings.next = 2 ∧ state.revision state.bindings.next = 0 := by
  rw [State.create] at hcreate
  split at hcreate
  · cases hcreate
  · constructor
    · have hinserted : ∀ (fresh : State) (row : Binding), row ∈ fresh.bindings.rows →
          row.id = state.bindings.next → row.revision = 1 →
            fresh.revision state.bindings.next = 1 := by
        intro fresh row hrow hid hrevision
        rw [← hid, revision_of_mem hrow, hrevision]
      rw [(revision_apply hcreate).1,
        hinserted _ _ (List.mem_append_right _ (List.mem_singleton.mpr rfl)) rfl rfl]
      rfl
    · rw [State.revision]
      cases hfind : state.bindings.find? state.bindings.next with
      | none => rfl
      | some binding =>
        obtain ⟨hbinding, hid⟩ := Log.find?_eq_some.mp hfind
        exact absurd hid (state.bindings.below binding hbinding).ne

/-! ## Runs -/

theorem Lawful.step (call : Call) {next : Recorded} (hlawful : Lawful recorded)
    (hstep : recordedStep recorded call = some next) : Lawful next := by
  obtain ⟨after, hafter, rfl⟩ := Option.map_eq_some_iff.mp hstep
  cases call with
  | create code actor config now => exact hlawful.edit (.of_create hafter)
  | apply bindingId expectedRevision actor config now => exact hlawful.edit (.of_apply hafter)
  | transition bindingId expectedRevision action actor reason now =>
    exact hlawful.transition hafter

/-- In every state that calls lead to from tables without bindings, the bindings are governed,
each accepted call increases the revision of its binding, and a call that expects another revision
is turned away. -/
theorem commercial_life {start : Recorded} (hstart : start.state.bindings.rows = [])
    (hrun : Reaches recordedStep start recorded) :
    Governed recorded ∧ ∀ call : Call,
      (∀ after, Commercial.step recorded.state call = some after →
        recorded.state.revision (call.bindingId recorded.state) <
          after.revision (call.bindingId recorded.state)) ∧
      ∀ revision ∈ call.expectedRevision,
        recorded.state.revision (call.bindingId recorded.state) ≠ revision →
          Commercial.step recorded.state call = none := by
  have hempty : Lawful start := by
    refine ⟨?_, ?_, ?_, ?_⟩
    · simp [hstart]
    · simp [hstart, OneLive]
    · simp [hstart]
    · exact ⟨by simp [hstart], by simp [hstart]⟩
  refine ⟨(hrun.preserves Lawful (fun _ call _ h => h.step call) hempty).governed, ?_⟩
  intro call
  cases call with
  | create code actor config now =>
    refine ⟨?_, by simp [Call.expectedRevision]⟩
    intro after hafter
    obtain ⟨hnew, hold⟩ := revision_create hafter
    show recorded.state.revision recorded.state.bindings.next <
      after.revision recorded.state.bindings.next
    omega
  | apply bindingId expectedRevision actor config now =>
    constructor
    · intro after hafter
      show recorded.state.revision bindingId < after.revision bindingId
      have := (revision_apply hafter).1
      omega
    · intro revision hexpected hstale
      rw [Option.eq_none_iff_forall_ne_some]
      intro after hafter
      exact hstale ((revision_apply hafter).2 revision hexpected)
  | transition bindingId expectedRevision action actor reason now =>
    constructor
    · intro after hafter
      show recorded.state.revision bindingId < after.revision bindingId
      have := (revision_transition hafter).1
      omega
    · intro revision hexpected hstale
      rw [Option.eq_none_iff_forall_ne_some]
      intro after hafter
      exact hstale ((revision_transition hafter).2 revision hexpected)

end

/-! ## A bank and its configurations -/

/-- A bank with a lender, and the wallet types. -/
def market : State where
  merchants :=
    ⟨[{ id := 1, code := "DTB", displayName := "DTB", merchantTypeCode := "BANK"
        countryCode := "UGA", status := .active }], by decide⟩
  lenders :=
    ⟨[{ id := 1, code := "DTB_UGA", name := "DTB", countryCode := "UGA", status := .active
        merchantId := some 1 }], by decide⟩
  walletTypes := [⟨103, 100, true⟩, ⟨205, 200, true⟩, ⟨206, 200, true⟩]

/-- A configuration without blockers. -/
def retailLoan : Configuration where
  productId := some "LOAN"
  countryCode := some "UGA"
  currency := some "UGX"
  channel := some "ALL"
  environmentScope := some .production
  merchantId := some 1
  lenderId := some 1
  allocationWeight := some 1
  customerWalletTypeCode := some 103
  settlementWalletTypeCode := some 205
  fineractProductId := some 1
  pricingRuleCode := some "FLAT_5"
  interestMethod := some "FLAT"
  nominalInterestRate := some 5
  interestRatePeriod := some .monthly
  processingFeeValue := some 1
  lateFeeValue := some 2
  earlySettlementAllowed := some (some true)
  chargeCodes := some ["FEE"]
  commissionCodes := some ["NONE"]
  sourceReference := some "Policy"

def goesLive (bindingId : ℕ) (config : Configuration) : List Call :=
  [.create "RETAIL" "maker" config 1,
    .transition bindingId (some 2) .submit "maker" none 2,
    .transition bindingId (some 3) .approve "checker" none 3,
    .transition bindingId (some 4) .activate "checker" none 4]

/-- A second configuration replaces the first. -/
theorem commercial_life_replaced :
    ∃ recorded, Reaches recordedStep { state := market } recorded ∧
      recorded.state.bindings.rows.map Binding.status = [.retired, .active] ∧
      Governed recorded := by
  have hany : (runInputs recordedStep { state := market }
      (goesLive 1 retailLoan ++ goesLive 2 retailLoan)).any (fun recorded =>
        decide (recorded.state.bindings.rows.map Binding.status = [.retired, .active])) := by
    decide +kernel
  obtain ⟨recorded, hrun, hfacts⟩ := (Option.any_eq_true _ _).mp hany
  have hreaches := Reaches.of_runInputs hrun
  exact ⟨recorded, hreaches, of_decide_eq_true hfacts, (commercial_life rfl hreaches).1⟩

end Finify.Credit.Commercial
