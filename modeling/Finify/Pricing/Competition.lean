/-
# Competing flows

An activation retires the active flows that it finds to compete with its own.  Two
activations that look before either has written do not find each other, and only the
unique index, which knows the first keyword and the first source wallet type, stands
between them.  Where competing activations look one after the other, no two active
flows compete.
-/

import Finify.Pricing.Registry

namespace Finify.Pricing

open Finify.Foundations

/-- An activation looks for conflicts while no other one has looked and not ended, of
a flow that competes with it and that the unique index takes for another. -/
def LooksAlone (registry : Registry) : FlowEvent → Prop
  | .readActive id =>
    ∀ own ∈ registry.activations id, ∀ other ≠ id, ∀ activation ∈ registry.activations other,
      activation.conflicts.isSome → own.row.Competes activation.row →
        own.row.indexKey = activation.row.indexKey
  | _ => True

namespace Registry

/-- No two active flows compete. -/
def Apart (registry : Registry) : Prop :=
  ∀ first ∈ registry.flows.rows, ∀ second ∈ registry.flows.rows,
    first.status = .active → second.status = .active → first.id ≠ second.id →
      ¬ first.Competes second

/-- The rows that `findActive` chooses from. -/
def candidates (registry : Registry) (keyword : String) (source : ℤ) (currency : String)
    (destination : Option ℤ) : List FlowRow :=
  registry.flows.rows.filter fun row =>
    row.status = .active ∧
      (row.definition.keyword = keyword.toUpper ∨ keyword.toUpper ∈ row.definition.keywords) ∧
      (row.definition.sourceWalletTypes.head? = some source ∨
        source ∈ row.definition.sourceWalletTypes) ∧
      row.definition.currency = currency.toUpper ∧
      ∀ wallet ∈ destination, row.definition.destinationWalletTypes.length = 0 ∨
        row.definition.destinationWalletTypes.head? = some wallet ∨
        wallet ∈ row.definition.destinationWalletTypes

/-- What activations that have looked know of the active flows and of each other. -/
structure Watched (registry : Registry) : Prop where
  held : registry.Held
  apart : registry.Apart
  seen : ∀ id activation conflicts, registry.activations id = some activation →
    activation.conflicts = some conflicts →
      ∀ row ∈ registry.flows.rows, row.status = .active → activation.row.Competes row →
        row.id ∈ conflicts ∨ row.indexKey = activation.row.indexKey
  alone : ∀ first second own other, registry.activations first = some own →
    registry.activations second = some other → first ≠ second → own.conflicts.isSome →
      other.conflicts.isSome → own.row.Competes other.row →
        own.row.indexKey = other.row.indexKey

namespace Watched

variable {registry before after : Registry}

theorem empty : Registry.empty.Watched where
  held := held_empty
  apart := fun _ hfirst => by cases hfirst
  seen := fun _ _ _ hactivation => by cases hactivation
  alone := fun _ _ _ _ hactivation => by cases hactivation

/-- Only the active rows of the table matter. -/
theorem congr (hwatched : before.Watched) (hheld : after.Held)
    (hactivations : after.activations = before.activations)
    (hrows : ∀ row ∈ after.flows.rows, row.status = .active → row ∈ before.flows.rows) :
    after.Watched where
  held := hheld
  apart := fun first hfirst second hsecond hactive hactive' =>
    hwatched.apart first (hrows first hfirst hactive) second (hrows second hsecond hactive')
      hactive hactive'
  seen := by
    rw [hactivations]
    exact fun id activation conflicts hactivation hread row hrow hactive =>
      hwatched.seen id activation conflicts hactivation hread row (hrows row hrow hactive) hactive
  alone := by
    rw [hactivations]
    exact hwatched.alone

/-- An activation that has not looked, or is over, knows nothing. -/
theorem setActivation (hwatched : registry.Watched) {id : ℕ} {activation : Option Activation}
    (hheld : (registry.setActivation id activation).Held)
    (hunread : ∀ own ∈ activation, own.conflicts = none) :
    (registry.setActivation id activation).Watched where
  held := hheld
  apart := hwatched.apart
  seen := by
    intro other found conflicts hfound hread
    rw [setActivation_activations] at hfound
    split at hfound
    case isTrue =>
      rw [hunread found hfound] at hread
      cases hread
    case isFalse => exact hwatched.seen other found conflicts hfound hread
  alone := by
    intro first second own other hown hother hne hread hread' hcompetes
    rw [setActivation_activations] at hown hother
    split at hown
    case isTrue =>
      rw [hunread own hown] at hread
      cases hread
    case isFalse =>
      split at hother
      case isTrue =>
        rw [hunread other hother] at hread'
        cases hread'
      case isFalse =>
        exact hwatched.alone first second own other hown hother hne hread hread' hcompetes

/-- An activation that looks finds every active flow that competes with it. -/
theorem read (hwatched : before.Watched) {id : ℕ} {activation : Activation}
    (hactivation : before.activations id = some activation)
    (hguard : LooksAlone before (.readActive id)) (hheld : (before.setActivation id
      (some { activation with conflicts := some (before.conflictsOf activation.row) })).Held) :
    (before.setActivation id
      (some { activation with conflicts := some (before.conflictsOf activation.row) })).Watched
    where
  held := hheld
  apart := hwatched.apart
  seen := by
    intro other found conflicts hfound hread row hrow hactive hcompetes
    rw [setActivation_activations] at hfound
    split at hfound
    case isFalse => exact hwatched.seen other found conflicts hfound hread row hrow hactive hcompetes
    case isTrue =>
      obtain rfl := Option.some.inj hfound
      obtain rfl := Option.some.inj hread
      obtain ⟨hmem, _, hstatus⟩ := hwatched.held id activation hactivation
      have hne : row.id ≠ activation.row.id := by
        intro hsame
        have hrow' : row = activation.row := before.flows.eq_of_serial_eq hrow hmem hsame
        rw [hrow', hstatus] at hactive
        cases hactive
      refine .inl (List.mem_map.mpr ⟨row, List.mem_filter.mpr ⟨hrow, ?_⟩, rfl⟩)
      exact decide_eq_true ⟨hactive, hne, hcompetes⟩
  alone := by
    intro first second own other hown hother hne hread hread' hcompetes
    rw [setActivation_activations] at hown hother
    split at hown
    case isTrue hfirst =>
      subst hfirst
      obtain rfl := Option.some.inj hown
      rw [if_neg (Ne.symm hne)] at hother
      exact hguard activation hactivation second (Ne.symm hne) other hother hread' hcompetes
    case isFalse hfirst =>
      split at hother
      case isTrue hsecond =>
        subst hsecond
        obtain rfl := Option.some.inj hother
        exact (hguard activation hactivation first hne own hown hread hcompetes.symm).symm
      case isFalse =>
        exact hwatched.alone first second own other hown hother hne hread hread' hcompetes

/-- The flow that is activated competes with no flow that stays active. -/
theorem activate (hwatched : before.Watched) {id : ℕ} {activation : Activation}
    {conflicts : List ℕ} (hactivation : before.activations id = some activation)
    (hread : activation.conflicts = some conflicts)
    (hindex : ¬ before.IndexTaken activation.row conflicts)
    {row : FlowRow} (hrow : row ∈ (before.activate activation conflicts).flows.rows)
    (hactive : row.status = .active) :
    row = activation.row.moved .activate activation.actor ∨
      row ∈ before.flows.rows ∧ row.id ≠ activation.row.id ∧ ¬ activation.row.Competes row := by
  obtain ⟨old, hold, rfl⟩ := List.mem_map.mp hrow
  unfold activated at hactive ⊢
  split at hactive
  case isTrue hown => exact .inl (if_pos hown)
  case isFalse hne =>
    rw [if_neg hne] at *
    split at hactive
    case isTrue => cases hactive
    case isFalse hkept =>
      rw [if_neg hkept]
      refine .inr ⟨hold, hne, fun hcompetes => ?_⟩
      rcases hwatched.seen id activation conflicts hactivation hread old hold hactive hcompetes with
        hconflict | hkey
      · exact hkept hconflict
      · exact hindex ⟨old, hold, hne, hkept, hactive, hkey⟩

/-- Writing an activation keeps active flows apart, and other activations that have
looked either know the new active flow or are stopped by the index. -/
theorem finished (hwatched : before.Watched) {id : ℕ} {activation : Activation}
    {conflicts : List ℕ} (hactivation : before.activations id = some activation)
    (hread : activation.conflicts = some conflicts)
    (hindex : ¬ before.IndexTaken activation.row conflicts)
    (hheld : ((before.activate activation conflicts).setActivation id none).Held) :
    ((before.activate activation conflicts).setActivation id none).Watched where
  held := hheld
  apart := by
    intro first hfirst second hsecond hactive hactive' hne hcompetes
    rcases hwatched.activate hactivation hread hindex hfirst hactive with
      rfl | ⟨hold, _, hapart⟩
    · rcases hwatched.activate hactivation hread hindex hsecond hactive' with
        rfl | ⟨_, _, hapart'⟩
      · exact hne rfl
      · exact hapart' hcompetes
    · rcases hwatched.activate hactivation hread hindex hsecond hactive' with
        rfl | ⟨hold', _, _⟩
      · exact hapart hcompetes.symm
      · exact hwatched.apart first hold second hold' hactive hactive' hne hcompetes
  seen := by
    intro other found known hfound hknown row hrow hactive hcompetes
    rw [setActivation_activations] at hfound
    obtain ⟨hne, hfound⟩ := Option.ite_none_left_eq_some.mp hfound
    have hfound : before.activations other = some found := hfound
    rcases hwatched.activate hactivation hread hindex hrow hactive with rfl | ⟨hold, _, _⟩
    · right
      have halone := hwatched.alone other id found activation hfound hactivation hne
        (by rw [hknown]; rfl) (by rw [hread]; rfl) hcompetes
      exact halone.symm
    · exact hwatched.seen other found known hfound hknown row hold hactive hcompetes
  alone := by
    intro first second own other hown hother hne hread hread' hcompetes
    rw [setActivation_activations] at hown hother
    obtain ⟨_, hown⟩ := Option.ite_none_left_eq_some.mp hown
    obtain ⟨_, hother⟩ := Option.ite_none_left_eq_some.mp hother
    exact hwatched.alone first second own other hown hother hne hread hread' hcompetes

/-- A row that is written without being activated is not active. -/
theorem write (hwatched : before.Watched) {audit : Audit} (hheld : (before.write audit).Held)
    (hstatus : audit.next.status ≠ .active) : (before.write audit).Watched := by
  refine hwatched.congr hheld rfl fun row hrow hactive => ?_
  obtain ⟨old, hold, rfl⟩ := List.mem_map.mp hrow
  split at hactive
  case isTrue => exact absurd hactive hstatus
  case isFalse hne =>
    rw [if_neg hne]
    exact hold

theorem step {event : FlowEvent} (hwatched : before.Watched) (hguard : LooksAlone before event)
    (heffect : before.Effect event after) : after.Watched := by
  have hheld := hwatched.held.step heffect
  cases heffect with
  | created input actor =>
    refine hwatched.congr hheld rfl fun row hrow hactive => ?_
    rcases List.mem_append.mp hrow with hold | hnew
    · exact hold
    · rw [List.mem_singleton.mp hnew] at hactive
      cases hactive
  | edited change actor hmem hfree hstatus => exact hwatched.write hheld nofun
  | @moved _ row action actor reason bypass hmem hfree hadmits haction =>
    refine hwatched.write hheld fun hactive => haction ?_
    cases action <;> first | rfl | cases hactive
  | locked hmem hfree hstatus =>
    apply hwatched.setActivation hheld
    intro own hown
    obtain rfl := Option.some.inj hown
    rfl
  | read hactivation hunread => exact hwatched.read hactivation hguard hheld
  | finished hactivation hread hfree hindex =>
    exact hwatched.finished hactivation hread hindex hheld
  | dropped id => exact hwatched.setActivation hheld fun own hown => by cases hown

theorem run (hrun : ReachesUnder Registry.step LooksAlone Registry.empty registry) :
    registry.Watched :=
  hrun.preserves Watched
    (fun _ _ _ hwatched hguard hstep => hwatched.step hguard (step_effect hstep)) empty

end Watched

/-- Flows that could be found for one request compete. -/
theorem candidates_le_one {registry : Registry} (hapart : registry.Apart) (keyword : String)
    (source : ℤ) (currency : String) (destination : Option ℤ) :
    (registry.candidates keyword source currency destination).length ≤ 1 := by
  have hids : (registry.candidates keyword source currency destination).Pairwise
      fun first second => first.id < second.id := registry.flows.increasing.filter _
  have hfound : ∀ row ∈ registry.candidates keyword source currency destination,
      row ∈ registry.flows.rows ∧ row.status = .active ∧
        keyword.toUpper ∈ row.definition.keywords ∧
        source ∈ row.definition.sourceWalletTypes ∧
        row.definition.currency = currency.toUpper := by
    intro row hrow
    obtain ⟨hmem, hserves⟩ := List.mem_filter.mp hrow
    obtain ⟨hactive, hkeyword, hsource, hcurrency, _⟩ := of_decide_eq_true hserves
    refine ⟨hmem, hactive, hkeyword.elim (fun hfirst => ?_) id,
      hsource.elim List.mem_of_head? id, hcurrency⟩
    exact List.mem_of_head? (row.definition.keyword_eq.trans (congrArg some hfirst))
  match hcase : registry.candidates keyword source currency destination with
  | [] => exact Nat.zero_le 1
  | [row] => exact le_rfl
  | first :: second :: rest =>
    rw [hcase] at hids hfound
    obtain ⟨hmem, hactive, hkeyword, hsource, hcurrency⟩ := hfound first List.mem_cons_self
    obtain ⟨hmem', hactive', hkeyword', hsource', hcurrency'⟩ :=
      hfound second (List.mem_cons_of_mem _ List.mem_cons_self)
    have hlt := (List.pairwise_cons.mp hids).1 second List.mem_cons_self
    exact absurd ⟨hcurrency.trans hcurrency'.symm, ⟨_, hkeyword, hkeyword'⟩, _, hsource, hsource'⟩
      (hapart first hmem second hmem' hactive hactive' hlt.ne)

/-- In a run in which activations of competing flows look for conflicts one after the
other, unless the unique index tells them apart, no two active flows compete, and
`findActive` has at most one flow to choose from. -/
theorem active_flows_apart {registry : Registry}
    (hrun : ReachesUnder Registry.step LooksAlone Registry.empty registry) :
    (∀ first ∈ registry.flows.rows, ∀ second ∈ registry.flows.rows,
      first.status = .active → second.status = .active → first.id ≠ second.id →
        ¬ first.Competes second) ∧
    ∀ keyword source currency destination,
      (registry.candidates keyword source currency destination).length ≤ 1 :=
  have hapart := (Watched.run hrun).apart
  ⟨hapart, candidates_le_one hapart⟩

end Registry

/-! ## Two activations at once -/

def ada : Administrator := ⟨"ada", by decide⟩

def grace : Administrator := ⟨"grace", by decide⟩

def keywordFlow (keyword : String) (keywords : List String) : FlowInput where
  ruleCode := keyword
  name := keyword
  priority := 100
  definition := flatDefinition keyword keywords .source 5

/-- Two flows that share a keyword are created by one administrator and approved by
another, and their activations are begun. -/
def beginBoth : List FlowEvent :=
  [.create (keywordFlow "PAY" ["SEND"]) ada, .create (keywordFlow "SEND" []) ada,
    .transition 1 .submit ada none false, .transition 1 .approve grace none false,
    .transition 2 .submit ada none false, .transition 2 .approve grace none false,
    .transition 1 .activate grace none false, .transition 2 .activate grace none false]

/-- Both activations look before either writes, and both flows become active. -/
theorem both_flows_active :
    (runInputs Registry.step Registry.empty
      (beginBoth ++ [.readActive 1, .readActive 2, .finish 1, .finish 2])).map
      (fun registry => (registry.flows.rows.map FlowRow.status,
        (registry.candidates "SEND" 1 "BDT" none).map FlowRow.id)) =
    some ([.active, .active], [1, 2]) := by
  decide +kernel

/-- One flow is created, submitted and approved, and its activation is begun. -/
def beginOne : List FlowEvent :=
  [.create (keywordFlow "PAY" ["SEND"]) ada, .transition 1 .submit ada none false,
    .transition 1 .approve grace none false, .transition 1 .activate grace none false]

/-- A flow that is activated alone is the only candidate. -/
theorem active_flows_apart_alone :
    ∃ registry, runInputs Registry.step Registry.empty (beginOne ++ [.readActive 1, .finish 1]) =
        some registry ∧
      registry.flows.rows.map FlowRow.status = [.active] ∧
      (registry.candidates "SEND" 1 "BDT" none).length ≤ 1 := by
  have hids : (runInputs Registry.step Registry.empty beginOne).map
      (fun registry => registry.flows.rows.map FlowRow.id) = some [1] := by decide +kernel
  have hstatus : (runInputs Registry.step Registry.empty
      (beginOne ++ [.readActive 1, .finish 1])).map
      (fun registry => registry.flows.rows.map FlowRow.status) = some [.active] := by
    decide +kernel
  obtain ⟨registry, hrun, hstatus⟩ := Option.map_eq_some_iff.mp hstatus
  obtain ⟨begun, hbegun, hids⟩ := Option.map_eq_some_iff.mp hids
  have hrest : runInputs Registry.step begun [.readActive 1, .finish 1] = some registry := by
    rw [runInputs, List.foldlM_append, ← runInputs, hbegun] at hrun
    exact hrun
  obtain ⟨looked, hlook, hrest⟩ := Option.bind_eq_some_iff.mp hrest
  obtain ⟨finished, hfinish, hlast⟩ := Option.bind_eq_some_iff.mp hrest
  cases hlast
  have hreached : ReachesUnder Registry.step LooksAlone Registry.empty begun := by
    apply ReachesUnder.of_runInputs ?_ hbegun
    intro input hinput state
    simp only [beginOne, List.mem_cons, List.not_mem_nil, or_false] at hinput
    rcases hinput with rfl | rfl | rfl | rfl <;> trivial
  have halone : LooksAlone begun (.readActive 1) := by
    -- The row of another activation would be a second row of the table.
    intro own _ other hne activation hactivation
    obtain ⟨hmem, hid, _⟩ := Registry.held_run hreached.reaches other activation hactivation
    have hone := List.mem_map_of_mem (f := FlowRow.id) hmem
    rw [hids, hid, List.mem_singleton] at hone
    exact absurd hone hne
  have hfinal : ReachesUnder Registry.step LooksAlone Registry.empty registry :=
    .tail (.tail hreached ⟨_, halone, hlook⟩) ⟨.finish 1, trivial, hfinish⟩
  exact ⟨registry, hrun, hstatus, (Registry.active_flows_apart hfinal).2 _ _ _ _⟩

end Finify.Pricing
