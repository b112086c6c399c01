/-
# Maker and checker of a pricing flow

The audit records say who edited, submitted and approved a flow and what it was then.
A flow past its submission is as it was submitted, a flow past its approval as it was
approved, and whoever approved it is not the administrator who last edited it.  Who
submits it does not matter to the check.
-/

import Finify.Pricing.Competition

namespace Finify.Pricing

open Finify.Foundations

namespace Registry

/-- The last record of some actions about a flow. -/
def lastAudit (registry : Registry) (id : ℕ) (actions : List AuditAction) : Option Audit :=
  registry.audits.find? fun audit => audit.next.id = id ∧ audit.action ∈ actions

/-- The actions that write a definition. -/
def edits : List AuditAction := [.create, .update]

/-- What the records say about a row. -/
structure Traced (registry : Registry) (row : FlowRow) : Prop where
  edited : ∃ edit, registry.lastAudit row.id edits = some edit ∧ edit.actor = row.maker
  submitted : row.status = .submitted ∨ row.status = .approved ∨ row.status = .active →
    ∃ submission, registry.lastAudit row.id [.submit] = some submission ∧
      submission.next.definition = row.definition
  approved : row.status = .approved ∨ row.status = .active →
    ∃ approval, registry.lastAudit row.id [.approve] = some approval ∧
      approval.next.definition = row.definition ∧ row.approvedBy = some approval.actor ∧
      (approval.bypass = false → approval.actor.sameAs row.maker = false)

theorem lastAudit_cons (registry : Registry) (audit : Audit) (id : ℕ)
    (actions : List AuditAction) {after : Registry}
    (haudits : after.audits = audit :: registry.audits) :
    after.lastAudit id actions =
      if audit.next.id = id ∧ audit.action ∈ actions then some audit
      else registry.lastAudit id actions := by
  unfold lastAudit
  rw [haudits, List.find?_cons]
  split <;> simp_all

section Step

variable {before after : Registry} {row : FlowRow}

/-- A record about another flow, or of another action, leaves the last one alone. -/
theorem Traced.congr (htraced : before.Traced row)
    (hsame : ∀ actions, after.lastAudit row.id actions = before.lastAudit row.id actions) :
    after.Traced row := by
  refine ⟨?_, ?_, ?_⟩
  · simpa only [hsame] using htraced.edited
  · simpa only [hsame] using htraced.submitted
  · simpa only [hsame] using htraced.approved

/-- A flow that is retired keeps its maker. -/
theorem Traced.retired (htraced : before.Traced row) :
    before.Traced { row with status := .retired } where
  edited := htraced.edited
  submitted := by simp
  approved := by simp

/-- An edit is on record, and the flow is a draft. -/
theorem Traced.of_edit {audit : Audit} (haudits : after.audits = audit :: before.audits)
    (hid : audit.next.id = row.id) (haction : audit.action ∈ edits)
    (hactor : audit.actor = row.maker) (hstatus : row.status = .draft) : after.Traced row where
  edited := ⟨audit, by rw [lastAudit_cons before audit _ _ haudits, if_pos ⟨hid, haction⟩], hactor⟩
  submitted := by simp [hstatus]
  approved := by simp [hstatus]

/-- A transition is on record. -/
theorem Traced.move (htraced : before.Traced row) {action : FlowAction} {actor : Administrator}
    {reason : Option String} {bypass : Bool} (hadmits : row.Admits action actor reason bypass)
    {audit : Audit} (haudits : after.audits = audit :: before.audits)
    (haction : audit.action = action.auditAction) (hnext : audit.next = row.moved action actor)
    (hactor : audit.actor = actor) (hbypass : audit.bypass = bypass ∨ action = .activate) :
    after.Traced (row.moved action actor) := by
  have hid : audit.next.id = row.id := by rw [hnext]; rfl
  have hlast : ∀ actions, after.lastAudit row.id actions =
      if action.auditAction ∈ actions then some audit else before.lastAudit row.id actions := by
    intro actions
    rw [lastAudit_cons before audit _ _ haudits, haction]
    simp only [hid, true_and]
  have hdefinition : audit.next.definition = row.definition := by rw [hnext]; rfl
  obtain ⟨hstatus, hmaker, _⟩ := hadmits
  refine ⟨?_, ?_, ?_⟩
  · show ∃ edit, after.lastAudit row.id edits = some edit ∧ edit.actor = row.maker
    rw [hlast, if_neg (by cases action <;> simp [FlowAction.auditAction, edits])]
    exact htraced.edited
  · intro hmoved
    show ∃ submission, after.lastAudit row.id [.submit] = some submission ∧
      submission.next.definition = row.definition
    rw [hlast]
    cases action with
    | submit => exact ⟨audit, rfl, hdefinition⟩
    | approve => exact htraced.submitted (.inl (by simpa [FlowAction.sources] using hstatus))
    | activate =>
      exact htraced.submitted (.inr (.inl (by simpa [FlowAction.sources] using hstatus)))
    | retire => simp [FlowRow.moved, FlowAction.target] at hmoved
    | reject => simp [FlowRow.moved, FlowAction.target] at hmoved
  · intro hmoved
    show ∃ approval, after.lastAudit row.id [.approve] = some approval ∧
      approval.next.definition = row.definition ∧
      (row.moved action actor).approvedBy = some approval.actor ∧
      (approval.bypass = false → approval.actor.sameAs row.maker = false)
    rw [hlast]
    cases action with
    | submit => simp [FlowRow.moved, FlowAction.target] at hmoved
    | approve =>
      refine ⟨audit, rfl, hdefinition, by rw [hactor]; rfl, fun hnone => ?_⟩
      rw [hactor]
      exact hmaker rfl ((hbypass.resolve_right fun h => by cases h).symm.trans hnone)
    | activate => exact htraced.approved (.inl (by simpa [FlowAction.sources] using hstatus))
    | retire => simp [FlowRow.moved, FlowAction.target] at hmoved
    | reject => simp [FlowRow.moved, FlowAction.target] at hmoved

/-- Writing a row with its record traces it, and leaves other rows as they are. -/
theorem traced_write (htraced : ∀ row ∈ before.flows.rows, before.Traced row) {audit : Audit}
    (hnext : (before.write audit).Traced audit.next) :
    ∀ row ∈ (before.write audit).flows.rows, (before.write audit).Traced row := by
  intro row hrow
  obtain ⟨old, hold, rfl⟩ := List.mem_map.mp hrow
  split
  case isTrue => exact hnext
  case isFalse hne =>
    refine (htraced old hold).congr fun actions => ?_
    rw [lastAudit_cons before audit _ _ rfl, if_neg fun h => hne h.1.symm]

theorem traced_step {event : FlowEvent} (hheld : before.Held)
    (htraced : ∀ row ∈ before.flows.rows, before.Traced row)
    (heffect : before.Effect event after) : ∀ row ∈ after.flows.rows, after.Traced row := by
  cases heffect with
  | created input actor =>
    intro row hrow
    rcases List.mem_append.mp hrow with hold | hnew
    · refine (htraced row hold).congr fun actions => ?_
      have hbelow := before.flows.below row hold
      rw [lastAudit_cons before _ _ _ rfl, if_neg fun h => hbelow.ne h.1.symm]
    · rw [List.mem_singleton.mp hnew]
      exact .of_edit rfl rfl (by simp [edits]) rfl rfl
  | edited change actor hmem hfree hstatus =>
    exact traced_write htraced (.of_edit rfl rfl (by simp [edits]) rfl rfl)
  | moved hmem hfree hadmits haction =>
    exact traced_write htraced ((htraced _ hmem).move hadmits rfl rfl rfl rfl (.inl rfl))
  | locked hmem hfree hstatus => exact fun row hrow => (htraced row hrow).congr fun _ => rfl
  | read hactivation hunread => exact fun row hrow => (htraced row hrow).congr fun _ => rfl
  | dropped id => exact fun row hrow => (htraced row hrow).congr fun _ => rfl
  | @finished _ id activation conflicts hactivation hread hfree hindex =>
    obtain ⟨hmem, _, hstatus⟩ := hheld id activation hactivation
    have hadmits : activation.row.Admits .activate activation.actor activation.reason false :=
      ⟨by simp [hstatus, FlowAction.sources], by simp, by simp⟩
    intro row hrow
    obtain ⟨old, hold, rfl⟩ := List.mem_map.mp hrow
    unfold activated
    split
    case isTrue =>
      exact (htraced _ hmem).move hadmits rfl rfl rfl rfl (.inr rfl)
    case isFalse hne =>
      have hkept : ((before.activate activation conflicts).setActivation id none).Traced old := by
        refine (htraced old hold).congr fun actions => ?_
        rw [lastAudit_cons before _ _ _ rfl, if_neg fun h => hne h.1.symm]
      split
      case isTrue => exact hkept.retired
      case isFalse => exact hkept

/-- What a step leaves of a row that is not to be edited. -/
structure Kept (old new : FlowRow) : Prop where
  id : new.id = old.id
  definition : old.status ≠ .draft → old.status ≠ .rejected → new.definition = old.definition
  retired : old.status = .retired → new.status = .retired

theorem Kept.refl (row : FlowRow) : Kept row row := ⟨rfl, fun _ _ => rfl, fun hretired => hretired⟩

/-- A row is written in its place. -/
theorem kept_write {target : FlowRow} (htarget : target ∈ before.flows.rows) {audit : Audit}
    (hkept : Kept target audit.next) (hrow : row ∈ before.flows.rows) :
    ∃ new ∈ (before.write audit).flows.rows, Kept row new := by
  by_cases hsame : row.id = audit.next.id
  · have hrow' : row = target :=
      before.flows.eq_of_serial_eq hrow htarget (hsame.trans hkept.id)
    subst hrow'
    exact ⟨audit.next, List.mem_map.mpr ⟨row, hrow, if_pos hsame⟩, hkept⟩
  · exact ⟨row, List.mem_map.mpr ⟨row, hrow, if_neg hsame⟩, .refl row⟩

theorem kept_step {event : FlowEvent} (hheld : before.Held) (heffect : before.Effect event after)
    (hrow : row ∈ before.flows.rows) : ∃ new ∈ after.flows.rows, Kept row new := by
  cases heffect with
  | created input actor => exact ⟨row, List.mem_append_left _ hrow, .refl row⟩
  | @edited _ target change actor hmem hfree hstatus =>
    apply kept_write hmem ?_ hrow
    refine ⟨rfl, fun hdraft hrejected => ?_, fun hretired => ?_⟩
    · exact absurd hstatus (not_or.mpr ⟨hdraft, hrejected⟩)
    · simp [hretired] at hstatus
  | @moved _ target action actor reason bypass hmem hfree hadmits haction =>
    apply kept_write hmem ?_ hrow
    refine ⟨rfl, fun _ _ => rfl, fun hretired => ?_⟩
    have hsource := hadmits.1
    rw [hretired] at hsource
    cases action <;> simp [FlowAction.sources] at hsource
  | locked hmem hfree hstatus => exact ⟨row, hrow, .refl row⟩
  | read hactivation hunread => exact ⟨row, hrow, .refl row⟩
  | dropped id => exact ⟨row, hrow, .refl row⟩
  | @finished _ id activation conflicts hactivation hread hfree hindex =>
    obtain ⟨hmem, _, hstatus⟩ := hheld id activation hactivation
    refine ⟨activated activation conflicts row, List.mem_map_of_mem hrow,
      activated_id _ _ _, fun _ _ => ?_, fun hretired => ?_⟩
    · unfold activated
      split
      case isTrue hown =>
        rw [before.flows.eq_of_serial_eq hrow hmem hown]
        rfl
      case isFalse => split <;> rfl
    · unfold activated
      split
      case isTrue hown =>
        rw [before.flows.eq_of_serial_eq hrow hmem hown, hstatus] at hretired
        cases hretired
      case isFalse =>
        split
        case isTrue => rfl
        case isFalse => exact hretired

end Step

theorem traced_run {registry : Registry} (hrun : Reaches Registry.step Registry.empty registry) :
    registry.Held ∧ ∀ row ∈ registry.flows.rows, registry.Traced row := by
  apply hrun.preserves fun registry =>
    registry.Held ∧ ∀ row ∈ registry.flows.rows, registry.Traced row
  · rintro before event after ⟨hheld, htraced⟩ hstep
    have heffect := step_effect hstep
    exact ⟨hheld.step heffect, traced_step hheld htraced heffect⟩
  · exact ⟨held_empty, fun _ hrow => by cases hrow⟩

theorem retired_run {registry later : Registry} (hheld : registry.Held)
    (hrun : Reaches Registry.step registry later) {row : FlowRow}
    (hrow : row ∈ registry.flows.rows) (hretired : row.status = .retired) :
    ∃ new ∈ later.flows.rows, new.id = row.id ∧ new.status = .retired := by
  have hboth : later.Held ∧
      ∃ new ∈ later.flows.rows, new.id = row.id ∧ new.status = .retired := by
    apply hrun.preserves fun registry => registry.Held ∧
      ∃ new ∈ registry.flows.rows, new.id = row.id ∧ new.status = .retired
    · rintro before event after ⟨hheld, new, hnew, hid, hstatus⟩ hstep
      have heffect := step_effect hstep
      obtain ⟨next, hnext, hkept⟩ := kept_step hheld heffect hnew
      exact ⟨hheld.step heffect, next, hnext, hkept.id.trans hid, hkept.retired hstatus⟩
    · exact ⟨hheld, row, hrow, rfl, hretired⟩
  exact hboth.2

/-- The definition of the row is the one last submitted and last approved, and who
approved it, without the right to bypass the check, is not who last edited it. -/
def Sanctioned (registry : Registry) (row : FlowRow) : Prop :=
  ∃ edit submission approval,
    registry.lastAudit row.id edits = some edit ∧
    registry.lastAudit row.id [.submit] = some submission ∧
    registry.lastAudit row.id [.approve] = some approval ∧
    submission.next.definition = row.definition ∧
    approval.next.definition = row.definition ∧
    row.approvedBy = some approval.actor ∧
    (approval.bypass = false → approval.actor.sameAs edit.actor = false)

/-- In every run, an active flow is sanctioned by an administrator other than its last
editor, a flow keeps its definition while it is submitted, approved or active, and a
retired flow stays retired. -/
theorem active_flows_sanctioned {registry : Registry}
    (hrun : Reaches Registry.step Registry.empty registry) :
    (∀ row ∈ registry.flows.rows, row.status = .active → registry.Sanctioned row) ∧
    (∀ event after, registry.step event = some after → ∀ row ∈ registry.flows.rows,
      row.status = .submitted ∨ row.status = .approved ∨ row.status = .active →
        ∃ new ∈ after.flows.rows, new.id = row.id ∧ new.definition = row.definition) ∧
    ∀ later, Reaches Registry.step registry later → ∀ row ∈ registry.flows.rows,
      row.status = .retired → ∃ new ∈ later.flows.rows, new.id = row.id ∧ new.status = .retired := by
  obtain ⟨hheld, htraced⟩ := traced_run hrun
  refine ⟨?_, ?_, ?_⟩
  · intro row hrow hactive
    obtain ⟨edit, hedit, hactor⟩ := (htraced row hrow).edited
    obtain ⟨submission, hsubmission, hsubmitted⟩ :=
      (htraced row hrow).submitted (.inr (.inr hactive))
    obtain ⟨approval, happroval, happroved, hby, hmaker⟩ :=
      (htraced row hrow).approved (.inr hactive)
    rw [← hactor] at hmaker
    exact ⟨edit, submission, approval, hedit, hsubmission, happroval, hsubmitted, happroved, hby,
      hmaker⟩
  · intro event after hstep row hrow hstatus
    obtain ⟨new, hnew, hkept⟩ := kept_step hheld (step_effect hstep) hrow
    refine ⟨new, hnew, hkept.id, hkept.definition ?_ ?_⟩
    · rcases hstatus with h | h | h <;> simp [h]
    · rcases hstatus with h | h | h <;> simp [h]
  · intro later hlater row hrow hretired
    exact retired_run hheld hlater hrow hretired

/-- A flow that its editor has not submitted is approved by who submitted it. -/
theorem submitter_approves :
    (runInputs Registry.step Registry.empty
      [.create (keywordFlow "PAY" []) ada, .transition 1 .submit grace none false,
        .transition 1 .approve grace none false, .transition 1 .activate grace none false,
        .readActive 1, .finish 1]).map (fun registry =>
        (registry.flows.rows.map FlowRow.status,
          (registry.lastAudit 1 [.submit]).map Audit.actor,
          (registry.lastAudit 1 [.approve]).map fun audit => (audit.actor, audit.bypass))) =
      some ([.active], some grace, some (grace, false)) := by
  decide +kernel

/-- The flow of another maker is active and sanctioned. -/
theorem active_flows_sanctioned_alone :
    ∃ registry, runInputs Registry.step Registry.empty (beginOne ++ [.readActive 1, .finish 1]) =
        some registry ∧
      registry.flows.rows.map FlowRow.status = [.active] ∧
      ∀ row ∈ registry.flows.rows, row.status = .active → registry.Sanctioned row := by
  have hstatus : (runInputs Registry.step Registry.empty
      (beginOne ++ [.readActive 1, .finish 1])).map
      (fun registry => registry.flows.rows.map FlowRow.status) = some [.active] := by
    decide +kernel
  obtain ⟨registry, hrun, hstatus⟩ := Option.map_eq_some_iff.mp hstatus
  exact ⟨registry, hrun, hstatus, (active_flows_sanctioned (.of_runInputs hrun)).1⟩

end Registry

end Finify.Pricing
