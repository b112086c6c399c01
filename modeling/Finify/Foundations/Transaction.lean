/-
# Computations that commit or roll back

A computation over a state reads it, writes it, and may fail at any point; what
it wrote before it failed is still there.  `atomically` is the bracket of a
database transaction, which takes the writes of a failure back.  `Returns` says
that a computation ends well, and how; it is read off the computation line by
line.  `attempts` makes calls one after the other, whether they end well or not.
-/

import Mathlib.Data.List.Nodup

namespace Finify.Foundations

variable {ε σ α β ι κ : Type}

/-- The computation ends well, with a result and a state. -/
def Returns (query : EStateM ε σ α) (before : σ) (result : α) (after : σ) : Prop :=
  query.run before = .ok result after

/-- Fail unless a condition holds. -/
def require (condition : Prop) [Decidable condition] (failure : ε) : EStateM ε σ Unit :=
  if condition then pure () else throw failure

/-- The value, if there is one. -/
def orThrow (value : Option α) (failure : ε) : EStateM ε σ α :=
  match value with
  | some a => pure a
  | none => throw failure

/-- A transaction: what a failure has written is taken back. -/
def atomically (query : EStateM ε σ α) : EStateM ε σ α := fun before =>
  match query.run before with
  | .ok result after => .ok result after
  | .error failure _ => .error failure before

/-! ## Reading a computation back -/

namespace Returns

variable {before after : σ}

@[simp] theorem bind_iff {query : EStateM ε σ α} {rest : α → EStateM ε σ β} {result : β} :
    Returns (query >>= rest) before result after ↔
      ∃ a middle, Returns query before a middle ∧ Returns (rest a) middle result after := by
  simp only [Returns, EStateM.run, bind, EStateM.bind]
  cases query before with
  | ok a middle => simp
  | error failure middle => simp

@[simp] theorem pure_iff {a result : α} :
    Returns (pure a : EStateM ε σ α) before result after ↔ result = a ∧ after = before := by
  simp [Returns, EStateM.run, pure, EStateM.pure, eq_comm]

@[simp] theorem map_iff {query : EStateM ε σ α} {f : α → β} {result : β} :
    Returns (f <$> query) before result after ↔
      ∃ a, Returns query before a after ∧ result = f a := by
  simp only [Returns, EStateM.run, Functor.map, EStateM.map]
  cases query before with
  | ok a middle =>
    simp only [EStateM.Result.ok.injEq]
    constructor
    · rintro ⟨rfl, rfl⟩
      exact ⟨a, ⟨rfl, rfl⟩, rfl⟩
    · rintro ⟨_, ⟨rfl, rfl⟩, rfl⟩
      exact ⟨rfl, rfl⟩
  | error failure middle => simp

@[simp] theorem throw_iff {failure : ε} {result : α} :
    ¬ Returns (throw failure : EStateM ε σ α) before result after := by
  intro hreturns
  have hresult : EStateM.Result.error failure before = .ok result after := hreturns
  cases hresult

@[simp] theorem get_iff {result : σ} :
    Returns (get : EStateM ε σ σ) before result after ↔ result = before ∧ after = before := by
  constructor
  · intro hreturns
    have hresult : (EStateM.Result.ok before before : EStateM.Result ε σ σ) = .ok result after :=
      hreturns
    cases hresult
    exact ⟨rfl, rfl⟩
  · rintro ⟨rfl, rfl⟩
    rfl

@[simp] theorem set_iff {state : σ} {result : PUnit} :
    Returns (set state : EStateM ε σ PUnit) before result after ↔ after = state := by
  constructor
  · intro hreturns
    have hresult : (EStateM.Result.ok ⟨⟩ state : EStateM.Result ε σ PUnit) = .ok result after :=
      hreturns
    cases hresult
    rfl
  · rintro rfl
    rfl

@[simp] theorem require_iff {condition : Prop} [Decidable condition] {failure : ε}
    {result : Unit} :
    Returns (require condition failure : EStateM ε σ Unit) before result after ↔
      condition ∧ after = before := by
  unfold require
  split
  case isTrue hcondition => simp [hcondition]
  case isFalse hcondition => simp [hcondition]

@[simp] theorem orThrow_iff {value : Option α} {failure : ε} {result : α} :
    Returns (orThrow value failure : EStateM ε σ α) before result after ↔
      value = some result ∧ after = before := by
  cases value with
  | none => simp [orThrow]
  | some a => simp [orThrow, eq_comm]

@[simp] theorem atomically_iff {query : EStateM ε σ α} {result : α} :
    Returns (atomically query) before result after ↔ Returns query before result after := by
  simp only [Returns, EStateM.run, atomically]
  cases query before with
  | ok a middle => simp
  | error failure middle => simp

end Returns

/-! ## Computations that leave the state as it was -/

/-- A failure of the computation has changed nothing. -/
def Harmless (query : EStateM ε σ α) : Prop :=
  ∀ before failure after, query.run before = .error failure after → after = before

/-- The computation writes nothing, whether it ends well or not. -/
structure Reading (query : EStateM ε σ α) : Prop where
  returns : ∀ before a after, Returns query before a after → after = before
  harmless : Harmless query

namespace Reading

theorem pure {a : α} : Reading (pure a : EStateM ε σ α) where
  returns _ _ _ hreturns := (Returns.pure_iff.mp hreturns).2
  harmless _ _ _ herror := by cases herror

theorem get : Reading (get : EStateM ε σ σ) where
  returns _ _ _ hreturns := (Returns.get_iff.mp hreturns).2
  harmless _ _ _ herror := by cases herror

theorem throw {failure : ε} : Reading (throw failure : EStateM ε σ α) where
  returns _ _ _ hreturns := absurd hreturns Returns.throw_iff
  harmless _ _ _ herror := by
    cases herror
    rfl

theorem require {condition : Prop} [Decidable condition] {failure : ε} :
    Reading (require condition failure : EStateM ε σ Unit) := by
  unfold Foundations.require
  split
  case isTrue => exact pure
  case isFalse => exact throw

theorem orThrow {value : Option α} {failure : ε} :
    Reading (orThrow value failure : EStateM ε σ α) := by
  cases value with
  | some a => exact pure
  | none => exact throw

end Reading

/-- Where the first part only reads, a failure of either part changes nothing. -/
theorem Harmless.bind {query : EStateM ε σ α} {rest : α → EStateM ε σ β} (hquery : Reading query)
    (hrest : ∀ a, Harmless (rest a)) : Harmless (query >>= rest) := by
  intro before failure after herror
  simp only [EStateM.run, Bind.bind, EStateM.bind] at herror
  cases hfirst : query before with
  | ok a middle =>
    rw [hfirst] at herror
    obtain rfl := hquery.returns before a middle hfirst
    exact hrest a _ failure after herror
  | error other middle =>
    rw [hfirst] at herror
    cases herror
    exact hquery.harmless before _ _ hfirst

/-- A transaction that fails has changed nothing. -/
theorem Harmless.atomically {query : EStateM ε σ α} : Harmless (atomically query) := by
  intro before failure after herror
  simp only [EStateM.run, Foundations.atomically] at herror
  cases hquery : query before with
  | ok a middle => simp [hquery] at herror
  | error other middle =>
    simp only [hquery, EStateM.Result.error.injEq] at herror
    exact herror.2.symm

theorem Reading.bind {query : EStateM ε σ α} {rest : α → EStateM ε σ β} (hquery : Reading query)
    (hrest : ∀ a, Reading (rest a)) : Reading (query >>= rest) where
  returns before result after hreturns := by
    obtain ⟨a, middle, hfirst, hlast⟩ := Returns.bind_iff.mp hreturns
    exact ((hrest a).returns _ _ _ hlast).trans (hquery.returns _ _ _ hfirst)
  harmless := Harmless.bind hquery fun a => (hrest a).harmless

theorem Reading.map {query : EStateM ε σ α} {f : α → β} (hquery : Reading query) :
    Reading (f <$> query) where
  returns before result after hreturns := by
    obtain ⟨a, hfirst, _⟩ := Returns.map_iff.mp hreturns
    exact hquery.returns _ _ _ hfirst
  harmless before failure after herror := by
    simp only [EStateM.run, Functor.map, EStateM.map] at herror
    cases hfirst : query before with
    | ok a middle => simp [hfirst] at herror
    | error other middle =>
      simp only [hfirst, EStateM.Result.error.injEq] at herror
      rw [← herror.2]
      exact hquery.harmless before other middle hfirst

/-! ## Calls one after the other -/

/-- A call that was made: the state before it, the call, its result or failure, and
the state after it. -/
structure Attempt (ε σ ι α : Type) where
  before : σ
  input : ι
  outcome : Except ε α
  after : σ

/-- Make one call. -/
def attempt (perform : ι → EStateM ε σ α) (before : σ) (input : ι) : Attempt ε σ ι α :=
  match (perform input).run before with
  | .ok result after => ⟨before, input, .ok result, after⟩
  | .error failure after => ⟨before, input, .error failure, after⟩

/-- Make calls one after the other. -/
def attempts (perform : ι → EStateM ε σ α) : σ → List ι → List (Attempt ε σ ι α)
  | _, [] => []
  | before, input :: inputs =>
    attempt perform before input :: attempts perform (attempt perform before input).after inputs

/-- The state that calls leave behind. -/
def afterCalls (perform : ι → EStateM ε σ α) (start : σ) (inputs : List ι) : σ :=
  inputs.foldl (fun state input => (attempt perform state input).after) start

section Calls

variable {perform : ι → EStateM ε σ α}

theorem attempt_ok {before : σ} {input : ι} {result : α}
    (hok : (attempt perform before input).outcome = .ok result) :
    Returns (perform input) before result (attempt perform before input).after := by
  unfold attempt at hok ⊢
  unfold Returns
  cases hrun : (perform input).run before with
  | ok a after =>
    rw [hrun] at hok
    cases hok
    rfl
  | error failure after =>
    rw [hrun] at hok
    cases hok

theorem attempt_error {before : σ} {input : ι} {failure : ε}
    (herror : (attempt perform before input).outcome = .error failure) :
    (perform input).run before = .error failure (attempt perform before input).after := by
  unfold attempt at herror ⊢
  cases hrun : (perform input).run before with
  | ok a after =>
    rw [hrun] at herror
    cases herror
  | error other after =>
    rw [hrun] at herror
    cases herror
    rfl

@[simp] theorem attempt_before (before : σ) (input : ι) :
    (attempt perform before input).before = before := by
  unfold attempt
  split <;> rfl

@[simp] theorem attempt_input (before : σ) (input : ι) :
    (attempt perform before input).input = input := by
  unfold attempt
  split <;> rfl

/-- An invariant of single calls holds before and after each call of a list. -/
theorem attempts_preserve (inv : σ → Prop)
    (hstep : ∀ before input, inv before → inv (attempt perform before input).after)
    {start : σ} (hstart : inv start) (inputs : List ι) :
    inv (afterCalls perform start inputs) ∧
      ∀ made ∈ attempts perform start inputs,
        made = attempt perform made.before made.input ∧ inv made.before ∧ inv made.after := by
  induction inputs generalizing start with
  | nil => exact ⟨hstart, by simp [attempts]⟩
  | cons input inputs ih =>
    obtain ⟨hfinish, hall⟩ := ih (hstep start input hstart)
    refine ⟨hfinish, fun made hmade => ?_⟩
    rcases List.mem_cons.mp hmade with rfl | hrest
    · exact ⟨by simp, by simpa using hstart, hstep start input hstart⟩
    · exact hall made hrest

/-- A property that stays once it holds is reached in one call of a list at most. -/
theorem attempts_reach_once {inv reached : σ → Prop} [DecidablePred reached]
    (hinv : ∀ before input, inv before → inv (attempt perform before input).after)
    (hstays : ∀ before input, inv before → reached before →
      reached (attempt perform before input).after)
    {start : σ} (hstart : inv start) (inputs : List ι) :
    ((attempts perform start inputs).filter fun made =>
      ¬ reached made.before ∧ reached made.after).length ≤ 1 := by
  -- Once reached, it is so before every later call.
  have hnone : ∀ (inputs : List ι) (state : σ), inv state → reached state →
      (attempts perform state inputs).filter
        (fun made => ¬ reached made.before ∧ reached made.after) = [] := by
    intro inputs
    induction inputs with
    | nil => exact fun _ _ _ => rfl
    | cons input inputs ih =>
      intro state hstate hreached
      rw [attempts, List.filter_cons_of_neg (by simp [hreached])]
      exact ih _ (hinv state input hstate) (hstays state input hstate hreached)
  induction inputs generalizing start with
  | nil => simp [attempts]
  | cons input inputs ih =>
    have hnext := hinv start input hstart
    by_cases hreached : reached (attempt perform start input).after
    · rw [attempts, List.filter_cons, hnone inputs _ hnext hreached]
      split <;> simp
    · rw [attempts, List.filter_cons_of_neg (by simp [hreached])]
      exact ih hnext

end Calls

end Finify.Foundations
