/-
# Runs of a partial transition function

A system is a partial function `step : σ → ι → Option σ`: `none` means that the
input is turned away and the state stays as it was.  A run is a finite sequence
of accepted inputs.  Invariants are proved of one step and carried to whole runs
here once, with an optional guard on the inputs a run may contain.
-/

import Mathlib.Data.List.Induction
import Mathlib.Logic.Relation

namespace Finify.Foundations

universe u v

variable {σ : Type u} {ι : Type v}

/-- One accepted input that the guard admits in the state it is given to. -/
def StepsUnder (step : σ → ι → Option σ) (guard : σ → ι → Prop) (before after : σ) : Prop :=
  ∃ input, guard before input ∧ step before input = some after

/-- A finite run all of whose inputs meet the guard where they are taken. -/
def ReachesUnder (step : σ → ι → Option σ) (guard : σ → ι → Prop) : σ → σ → Prop :=
  Relation.ReflTransGen (StepsUnder step guard)

/-- A finite run of arbitrary accepted inputs. -/
def Reaches (step : σ → ι → Option σ) : σ → σ → Prop :=
  ReachesUnder step fun _ _ => True

variable {step : σ → ι → Option σ} {guard : σ → ι → Prop}

/-- What every admitted step preserves, every run preserves. -/
theorem ReachesUnder.preserves (inv : σ → Prop)
    (hstep : ∀ before input after, inv before → guard before input →
      step before input = some after → inv after)
    {start finish : σ} (hrun : ReachesUnder step guard start finish) (hstart : inv start) :
    inv finish := by
  induction hrun with
  | refl => exact hstart
  | tail _ hlast ih =>
    obtain ⟨input, hguard, haccepted⟩ := hlast
    exact hstep _ _ _ ih hguard haccepted

/-- What every accepted step preserves, every run preserves. -/
theorem Reaches.preserves (inv : σ → Prop)
    (hstep : ∀ before input after, inv before → step before input = some after → inv after)
    {start finish : σ} (hrun : Reaches step start finish) (hstart : inv start) :
    inv finish :=
  ReachesUnder.preserves inv
    (fun before input after hinv _ => hstep before input after hinv) hrun hstart

/-- Forgetting the guard turns a guarded run into a run. -/
theorem ReachesUnder.reaches {start finish : σ} (hrun : ReachesUnder step guard start finish) :
    Reaches step start finish := by
  induction hrun with
  | refl => exact .refl
  | tail _ hlast ih =>
    obtain ⟨input, _, haccepted⟩ := hlast
    exact ih.tail ⟨input, trivial, haccepted⟩

/-- A run under a guard is one under any weaker guard. -/
theorem ReachesUnder.mono {weaker : σ → ι → Prop}
    (hweaker : ∀ state input, guard state input → weaker state input) {start finish : σ}
    (hrun : ReachesUnder step guard start finish) : ReachesUnder step weaker start finish := by
  induction hrun with
  | refl => exact .refl
  | tail _ hlast ih =>
    obtain ⟨input, hguard, haccepted⟩ := hlast
    exact ih.tail ⟨input, hweaker _ input hguard, haccepted⟩

/-- A run extended by one accepted input is a run. -/
theorem Reaches.tail {start middle finish : σ} (hrun : Reaches step start middle) (input : ι)
    (haccepted : step middle input = some finish) : Reaches step start finish :=
  Relation.ReflTransGen.tail hrun ⟨input, trivial, haccepted⟩

/-- If an abstract system can follow every accepted step, it can follow every
run. -/
theorem Reaches.simulates {τ : Type*} {abstractStep : τ → τ → Prop} {related : σ → τ → Prop}
    (hstep : ∀ before input after abstract, related before abstract →
      step before input = some after →
      ∃ abstract', Relation.ReflTransGen abstractStep abstract abstract' ∧
        related after abstract')
    {start finish : σ} {abstract : τ} (hrun : Reaches step start finish)
    (hstart : related start abstract) :
    ∃ abstract', Relation.ReflTransGen abstractStep abstract abstract' ∧
      related finish abstract' := by
  induction hrun with
  | refl => exact ⟨abstract, .refl, hstart⟩
  | tail _ hlast ih =>
    obtain ⟨middle, hfirst, hrelated⟩ := ih
    obtain ⟨input, _, haccepted⟩ := hlast
    obtain ⟨abstract', hsecond, hrelated'⟩ := hstep _ _ _ _ hrelated haccepted
    exact ⟨abstract', hfirst.trans hsecond, hrelated'⟩

/-- Feed a list of inputs to the system; the run stops at the first that is
turned away. -/
def runInputs (step : σ → ι → Option σ) (start : σ) (inputs : List ι) : Option σ :=
  inputs.foldlM step start

/-- A list of inputs that are admitted in any state is a guarded run. -/
theorem ReachesUnder.of_runInputs {inputs : List ι} {start finish : σ}
    (hguard : ∀ input ∈ inputs, ∀ state, guard state input)
    (hrun : runInputs step start inputs = some finish) : ReachesUnder step guard start finish := by
  induction inputs using List.reverseRecOn generalizing finish with
  | nil =>
    cases hrun
    exact .refl
  | append_singleton inputs input ih =>
    rw [runInputs, List.foldlM_append, Option.bind_eq_bind, Option.bind_eq_some_iff] at hrun
    obtain ⟨middle, hfirst, hlast⟩ := hrun
    have hreached := ih (fun earlier hmem => hguard earlier (List.mem_append_left _ hmem)) hfirst
    exact hreached.tail ⟨input, hguard input (by simp) middle, by simpa using hlast⟩

theorem Reaches.of_runInputs {inputs : List ι} {start finish : σ}
    (hrun : runInputs step start inputs = some finish) : Reaches step start finish :=
  ReachesUnder.of_runInputs (fun _ _ _ => trivial) hrun

/-- A call that has an outcome has succeeded with it. -/
theorem ok_of_toOption {ε α : Type*} {result : Except ε α} {value : α}
    (hsome : result.toOption = some value) : result = .ok value := by
  cases result with
  | error => cases hsome
  | ok found => exact congrArg Except.ok (Option.some.inj hsome)

/-- The system that also turns away what does not meet the guard. -/
def guardedStep (step : σ → ι → Option σ) (guard : σ → ι → Prop)
    [∀ state input, Decidable (guard state input)] (state : σ) (input : ι) : Option σ :=
  if guard state input then step state input else none

/-- The runs of the guarded system are the guarded runs. -/
theorem Reaches.under [∀ state input, Decidable (guard state input)] {start finish : σ}
    (hrun : Reaches (guardedStep step guard) start finish) :
    ReachesUnder step guard start finish := by
  induction hrun with
  | refl => exact .refl
  | tail _ hlast ih =>
    obtain ⟨input, _, haccepted⟩ := hlast
    rw [guardedStep, Option.ite_none_right_eq_some] at haccepted
    exact ih.tail ⟨input, haccepted⟩

/-! ## Systems side by side -/

/-- Systems that share nothing: each input goes to one of them. -/
def sideBySide {κ : Type*} [DecidableEq κ] (step : κ → σ → ι → Option σ) (state : κ → σ)
    (input : κ × ι) : Option (κ → σ) :=
  (step input.1 (state input.1) input.2).map (Function.update state input.1)

/-- What one of the systems does in a run of them all is a run of its own. -/
theorem ReachesUnder.component {κ : Type*} [DecidableEq κ] {step : κ → σ → ι → Option σ}
    {guard : κ → σ → ι → Prop} {start finish : κ → σ}
    (hrun : ReachesUnder (sideBySide step) (fun state input => guard input.1 (state input.1) input.2)
      start finish) (k : κ) : ReachesUnder (step k) (guard k) (start k) (finish k) := by
  induction hrun with
  | refl => exact .refl
  | tail _ hlast ih =>
    obtain ⟨input, hguard, haccepted⟩ := hlast
    obtain ⟨after, hstep, rfl⟩ := Option.map_eq_some_iff.mp haccepted
    by_cases hk : k = input.1
    · subst hk
      rw [Function.update_self]
      exact ih.tail ⟨input.2, hguard, hstep⟩
    · rw [Function.update_of_ne hk]
      exact ih

end Finify.Foundations
