/-
# Credit policies

Which master rule applies to a customer, and what activations and retirements do to it.  The
activation of a master supersedes some of the active ones, the look-up takes the newest of those
that serve the customer, and the index of the table is on the rule code alone.  The three agree
only as long as no active master that serves a customer of the new one is left over.
-/

import Finify.Credit.Management
import Finify.Foundations.Transition
import Mathlib.Data.Prod.Lex

namespace Finify.Credit

open Finify.Foundations

/-! ## The look-up -/

/-- What a master rule is looked up for. -/
structure Lookup where
  productId : String
  category : String
  score : ℚ
  currency : Option String := none

/-- The part of `scope` that is about the customer. -/
def MasterFields.serves (fields : MasterFields) (lookup : Lookup) : Prop :=
  fields.productId = lookup.productId ∧
    (fields.customerCategory = lookup.category.toUpper ∨ fields.customerCategory = "ANY") ∧
    (∀ low ∈ fields.minimumScore, low ≤ lookup.score) ∧
    (∀ high ∈ fields.maximumScore, lookup.score ≤ high) ∧
    (∀ currency ∈ fields.currency, lookup.currency.map String.toUpper = some currency)

/-- The part of `scope` that is about the time. -/
def MasterFields.isInEffect (fields : MasterFields) (now : ℤ) : Prop :=
  (∀ start ∈ fields.effectiveFrom, start ≤ now) ∧ (∀ stop ∈ fields.effectiveTo, now ≤ stop)

instance (fields : MasterFields) (lookup : Lookup) : Decidable (fields.serves lookup) :=
  inferInstanceAs (Decidable (_ ∧ _ ∧ (∀ low ∈ fields.minimumScore, low ≤ lookup.score) ∧
    (∀ high ∈ fields.maximumScore, lookup.score ≤ high) ∧
    (∀ currency ∈ fields.currency, lookup.currency.map String.toUpper = some currency)))

instance (fields : MasterFields) (now : ℤ) : Decidable (fields.isInEffect now) :=
  inferInstanceAs (Decidable ((∀ start ∈ fields.effectiveFrom, start ≤ now) ∧
    (∀ stop ∈ fields.effectiveTo, now ≤ stop)))

/-- `scope`.  A simulation names a master, which need not be active. -/
def Master.isCandidate (lookup : Lookup) (now : ℤ) (simulated : Option ℕ) (master : Master) :
    Bool :=
  match simulated with
  | none =>
    master.status = .active && master.fields.serves lookup && master.fields.isInEffect now
  | some id =>
    master.id = id && [.draft, .pendingApproval, .approved, .active].contains master.status &&
      master.fields.serves lookup

/-- The masters in `scope`. -/
def Database.candidates (db : Database) (lookup : Lookup) (now : ℤ) (simulated : Option ℕ) :
    List Master :=
  db.masters.rows.filter (Master.isCandidate lookup now simulated)

/-- `findMaster`. -/
def Database.findMaster (db : Database) (lookup : Lookup) (now : ℤ) (simulated : Option ℕ) :
    Option Master :=
  latest (fun master => toLex (master.version, master.id)) (db.candidates lookup now simulated)

/-! ## Calls -/

/-- The calls that decide which masters are active. -/
inductive PolicyCall
  | activate (masterId : ℕ) (actor : String) (now : ℤ)
  | retire (masterId : ℕ) (actor : String) (now : ℤ)

def policyStep (checks : Checks) (db : Database) : PolicyCall → Option Database
  | .activate masterId actor now =>
    ((Call.activate masterId).program checks actor).run actor now db
  | .retire masterId actor now => ((Call.retire masterId).program checks actor).run actor now db

/-- `validateForPublication` passes. -/
def Database.isPublishable (db : Database) (checks : Checks) (masterId : ℕ) : Bool :=
  (db.masters.find? masterId).any fun master =>
    db.hasProvider master.fields &&
      (db.activeRules masterId).all fun rule =>
        ruleIsSound checks rule.1 && db.offers rule.1 &&
          decide (rule.1.sourceType ≠ .httpApi ∨ rule.2)

section

variable {checks : Checks} {actor : String} {now : ℤ} {db after : Database} {rest : Program}

theorem run_guard (test : Bool) :
    (Program.guard test rest).run actor now db = if test then rest.run actor now db else none := by
  cases test <;> rfl

theorem run_validateRules (rules : List (RuleFields × Bool)) :
    (validateRules checks rest rules).run actor now db =
      if rules.all fun rule => ruleIsSound checks rule.1 && db.offers rule.1 &&
          decide (rule.1.sourceType ≠ .httpApi ∨ rule.2) then
        rest.run actor now db
      else none := by
  induction rules with
  | nil => rfl
  | cons rule rules ih =>
    calc (validateRules checks rest (rule :: rules)).run actor now db
        = if ruleIsSound checks rule.1 then if db.offers rule.1 then
            if decide (rule.1.sourceType ≠ .httpApi ∨ rule.2) then
              (validateRules checks rest rules).run actor now db
            else none else none else none := by
          show (validateRule checks rule.1 _).run actor now db = _
          rw [validateRule, run_guard]
          show (if _ then (Program.guard _ (Program.guard _ _)).run actor now db else none) = _
          rw [run_guard, run_guard]
      _ = _ := by
          rw [ih, List.all_cons]
          cases ruleIsSound checks rule.1 <;> cases db.offers rule.1 <;>
            cases decide (rule.1.sourceType ≠ .httpApi ∨ rule.2) <;> rfl

theorem run_validateForPublication (masterId : ℕ) :
    (validateForPublication checks masterId rest).run actor now db =
      if db.isPublishable checks masterId then rest.run actor now db else none := by
  cases hfind : db.masters.find? masterId with
  | none =>
    simp only [validateForPublication, Program.run, hfind, Program.onSome,
      Database.isPublishable, Option.any_none, Bool.false_eq_true, if_false]
  | some master =>
    simp only [validateForPublication, Program.run, hfind, Program.onSome,
      Database.isPublishable, Option.any_some]
    rw [run_guard]
    show (if _ then (validateRules checks rest (db.activeRules masterId)).run actor now db
      else none) = _
    rw [run_validateRules]
    cases db.hasProvider master.fields <;> rfl

/-- A call that activates a master does so if the master is approved and publishable and its
transaction goes through. -/
theorem policyStep_activate (masterId : ℕ) :
    policyStep checks db (.activate masterId actor now) =
      match db.masters.find? masterId with
      | none => none
      | some current =>
        if current.status = .approved ∧ db.isPublishable checks masterId then
          db.activate current actor now
        else none := by
  show (Program.onSome (db.masters.find? masterId) _).run actor now db = _
  cases db.masters.find? masterId with
  | none => rfl
  | some current =>
    show (Program.guard _ _).run actor now db = _
    rw [run_guard, run_validateForPublication]
    by_cases happroved : current.status = .approved <;>
      cases db.isPublishable checks masterId <;> simp [happroved, Program.run, Write.perform]

theorem policyStep_retire (masterId : ℕ) :
    policyStep checks db (.retire masterId actor now) =
      match db.masters.find? masterId with
      | none => none
      | some current =>
        if current.status = .active then db.retire masterId actor now else none := by
  show (Program.onSome (db.masters.find? masterId) _).run actor now db = _
  cases db.masters.find? masterId with
  | none => rfl
  | some current =>
    show (Program.guard _ _).run actor now db = _
    rw [run_guard]
    by_cases hactive : current.status = .active <;> simp [hactive, Program.run, Write.perform]

end

/-! ## Overlaps -/

/-- Two masters serve one customer at one time. -/
def MasterFields.meets (first second : MasterFields) : Prop :=
  first.productId = second.productId ∧
    (first.customerCategory = second.customerCategory ∨ first.customerCategory = "ANY" ∨
      second.customerCategory = "ANY") ∧
    (∀ one ∈ first.currency, ∀ other ∈ second.currency, one = other) ∧
    ((∀ low ∈ first.minimumScore, ∀ high ∈ second.maximumScore, low ≤ high) ∧
      (∀ low ∈ second.minimumScore, ∀ high ∈ first.maximumScore, low ≤ high)) ∧
    ((∀ start ∈ first.effectiveFrom, ∀ stop ∈ second.effectiveTo, start ≤ stop) ∧
      (∀ start ∈ second.effectiveFrom, ∀ stop ∈ first.effectiveTo, start ≤ stop))

instance (first second : MasterFields) : Decidable (first.meets second) :=
  inferInstanceAs (Decidable (_ ∧ _ ∧
    (∀ one ∈ first.currency, ∀ other ∈ second.currency, one = other) ∧
    ((∀ low ∈ first.minimumScore, ∀ high ∈ second.maximumScore, low ≤ high) ∧
      (∀ low ∈ second.minimumScore, ∀ high ∈ first.maximumScore, low ≤ high)) ∧
    ((∀ start ∈ first.effectiveFrom, ∀ stop ∈ second.effectiveTo, start ≤ stop) ∧
      (∀ start ∈ second.effectiveFrom, ∀ stop ∈ first.effectiveTo, start ≤ stop))))

/-- A call that activates a master replaces every active master that serves a customer of it. -/
def ReplacesAll (db : Database) : PolicyCall → Prop
  | .activate masterId actor now =>
    ∀ current ∈ db.masters.find? masterId, ∀ other ∈ db.masters.rows, other.status = .active →
      other.id ≠ current.id → (current.activated actor now).fields.meets other.fields →
        current.replaces other
  | .retire _ _ _ => True

instance (db : Database) (call : PolicyCall) : Decidable (ReplacesAll db call) :=
  match call with
  | .activate masterId actor now =>
    inferInstanceAs (Decidable (∀ current ∈ db.masters.find? masterId,
      ∀ other ∈ db.masters.rows, other.status = .active → other.id ≠ current.id →
        (current.activated actor now).fields.meets other.fields → current.replaces other))
  | .retire _ _ _ => inferInstanceAs (Decidable True)

/-- No two active masters serve one customer. -/
def Exclusive (db : Database) : Prop :=
  ∀ first ∈ db.masters.rows, ∀ second ∈ db.masters.rows, first.status = .active →
    second.status = .active → first.id ≠ second.id → ¬ first.fields.meets second.fields

section

variable {checks : Checks} {actor : String} {now : ℤ} {db after : Database}
  {first second : MasterFields} {current : Master} {lookup : Lookup}

theorem MasterFields.meets_symm (hmeets : first.meets second) : second.meets first := by
  obtain ⟨hproduct, hcategory, hcurrency, hscores, hperiods⟩ := hmeets
  refine ⟨hproduct.symm, ?_, ?_, hscores.symm, hperiods.symm⟩
  · rcases hcategory with hsame | hfirst | hsecond
    · exact .inl hsame.symm
    · exact .inr (.inr hfirst)
    · exact .inr (.inl hsecond)
  · intro one hone other hother
    exact (hcurrency other hother one hone).symm

/-- Two masters that are candidates of one look-up meet. -/
theorem MasterFields.meets_of_serves (hfirst : first.serves lookup) (hsecond : second.serves lookup)
    (hfirstNow : first.isInEffect now) (hsecondNow : second.isInEffect now) :
    first.meets second := by
  obtain ⟨hproduct, hcategory, hlow, hhigh, hcurrency⟩ := hfirst
  obtain ⟨hproduct', hcategory', hlow', hhigh', hcurrency'⟩ := hsecond
  refine ⟨hproduct.trans hproduct'.symm, ?_, ?_, ⟨?_, ?_⟩, ?_, ?_⟩
  · rcases hcategory with hnamed | hany
    · rcases hcategory' with hnamed' | hany'
      · exact .inl (hnamed.trans hnamed'.symm)
      · exact .inr (.inr hany')
    · exact .inr (.inl hany)
  · intro one hone other hother
    exact Option.some.inj ((hcurrency one hone).symm.trans (hcurrency' other hother))
  · intro low hmem high hmem'
    exact (hlow low hmem).trans (hhigh' high hmem')
  · intro low hmem high hmem'
    exact (hlow' low hmem).trans (hhigh high hmem')
  · intro start hmem stop hmem'
    exact (hfirstNow.1 start hmem).trans (hsecondNow.2 stop hmem')
  · intro start hmem stop hmem'
    exact (hsecondNow.1 start hmem).trans (hfirstNow.2 stop hmem')

/-- A look-up has at most one candidate if no two active masters meet. -/
theorem Exclusive.candidate_eq (hexclusive : Exclusive db) {one other : Master}
    (hone : one ∈ db.candidates lookup now none) (hother : other ∈ db.candidates lookup now none) :
    one = other := by
  obtain ⟨hmem, hcandidate⟩ := List.mem_filter.mp hone
  obtain ⟨hmem', hcandidate'⟩ := List.mem_filter.mp hother
  simp only [Master.isCandidate, Bool.and_eq_true, decide_eq_true_eq] at hcandidate hcandidate'
  by_contra hne
  have hid : one.id ≠ other.id := fun hid => hne (db.masters.eq_of_serial_eq hmem hmem' hid)
  exact hexclusive one hmem other hmem' hcandidate.1.1 hcandidate'.1.1 hid
    (MasterFields.meets_of_serves hcandidate.1.2 hcandidate'.1.2 hcandidate.2 hcandidate'.2)

/-! ## Activations -/

@[simp] theorem Master.activated_status (row : Master) :
    (row.activated actor now).status = .active := rfl

@[simp] theorem Master.activated_id (row : Master) : (row.activated actor now).id = row.id := rfl

theorem Master.replacedBy_self : current.replacedBy current = current := by
  apply if_neg
  intro hreplaces
  exact hreplaces.2.1 rfl

theorem Master.replacedBy_ruleCode (other : Master) :
    (current.replacedBy other).ruleCode = other.ruleCode := by
  unfold Master.replacedBy
  split <;> rfl

theorem Master.replacedBy_fields (other : Master) :
    (current.replacedBy other).fields = other.fields := by
  unfold Master.replacedBy
  split <;> rfl

/-- A master is active after the update that supersedes others if it was and was not replaced. -/
theorem Master.replacedBy_active {other : Master} :
    (current.replacedBy other).status = .active ↔
      other.status = .active ∧ ¬ current.replaces other := by
  unfold Master.replacedBy
  by_cases hreplaces : current.replaces other
  · rw [if_pos hreplaces]
    exact ⟨fun h => (nomatch h), fun h => absurd hreplaces h.2⟩
  · rw [if_neg hreplaces]
    exact ⟨fun h => ⟨h, hreplaces⟩, fun h => h.1⟩

/-- The masters after an activation are the activated one and the others, some of them
superseded. -/
theorem mem_activatedMasters (hcurrent : current ∈ db.masters.rows) {row : Master} :
    row ∈ (db.activatedMasters current actor now).rows ↔
      row = current.activated actor now ∨
        ∃ other ∈ db.masters.rows, other.id ≠ current.id ∧ row = current.replacedBy other := by
  apply Log.mem_modify.trans
  constructor
  · intro h
    obtain ⟨middle, hmiddle, rfl⟩ := h
    obtain ⟨other, hother, rfl⟩ := List.mem_map.mp hmiddle
    by_cases hid : other.id = current.id
    · left
      rw [db.masters.eq_of_serial_eq hother hcurrent hid, Master.replacedBy_self, if_pos rfl]
    · right
      rw [Master.replacedBy_id, if_neg hid]
      exact ⟨other, hother, hid, rfl⟩
  · intro h
    rcases h with rfl | ⟨other, hother, hid, rfl⟩
    · refine ⟨current, List.mem_map.mpr ⟨current, hcurrent, Master.replacedBy_self⟩, ?_⟩
      rw [if_pos rfl]
    · refine ⟨current.replacedBy other, List.mem_map.mpr ⟨other, hother, rfl⟩, ?_⟩
      rw [Master.replacedBy_id, if_neg hid]

theorem activate_eq_some :
    db.activate current actor now = some after ↔
      ((∀ row ∈ (db.activatedMasters current actor now).rows, row.id = current.id → row.fits) ∧
        OneActive (db.activatedMasters current actor now).rows) ∧
      after = { db with masters := db.activatedMasters current actor now } := by
  rw [Database.activate, Option.ite_none_right_eq_some, Option.some.injEq, eq_comm]

/-- A master that an activation leaves active is the activated one or was active before and was
not replaced. -/
theorem active_activatedMasters (hcurrent : current ∈ db.masters.rows) {row : Master}
    (hrow : row ∈ (db.activatedMasters current actor now).rows) (hactive : row.status = .active) :
    row = current.activated actor now ∨
      ∃ other ∈ db.masters.rows, other.id ≠ current.id ∧ other.status = .active ∧
        ¬ current.replaces other ∧ row.id = other.id ∧ row.fields = other.fields := by
  rcases (mem_activatedMasters hcurrent).mp hrow with rfl | ⟨other, hother, hid, rfl⟩
  · exact .inl rfl
  · obtain ⟨hwas, hkept⟩ := Master.replacedBy_active.mp hactive
    exact .inr ⟨other, hother, hid, hwas, hkept, Master.replacedBy_id _ _,
      Master.replacedBy_fields _⟩

/-- Activations that replace all that they meet leave no two that meet. -/
theorem Exclusive.activate (hexclusive : Exclusive db) (hcurrent : current ∈ db.masters.rows)
    (hreplaces : ∀ other ∈ db.masters.rows, other.status = .active → other.id ≠ current.id →
      (current.activated actor now).fields.meets other.fields → current.replaces other)
    (hactivate : db.activate current actor now = some after) : Exclusive after := by
  obtain ⟨-, rfl⟩ := activate_eq_some.mp hactivate
  intro one hone other hother hactive hactive' hid
  have hapart : ∀ row ∈ db.masters.rows, row.id ≠ current.id → row.status = .active →
      ¬ current.replaces row → ¬ (current.activated actor now).fields.meets row.fields :=
    fun row hrow hne hrowActive hkept hmeets => hkept (hreplaces row hrow hrowActive hne hmeets)
  rcases active_activatedMasters hcurrent hone hactive with
    rfl | ⟨old, hold, hne, hwas, hkept, holdId, hfields⟩
  · rcases active_activatedMasters hcurrent hother hactive' with
      rfl | ⟨old', hold', hne', hwas', hkept', holdId', hfields'⟩
    · exact absurd rfl hid
    · rw [hfields']
      exact hapart old' hold' hne' hwas' hkept'
  · rcases active_activatedMasters hcurrent hother hactive' with
      rfl | ⟨old', hold', hne', hwas', hkept', holdId', hfields'⟩
    · rw [hfields]
      intro hmeets
      exact hapart old hold hne hwas hkept (MasterFields.meets_symm hmeets)
    · rw [hfields, hfields']
      rw [holdId, holdId'] at hid
      exact hexclusive old hold old' hold' hwas hwas' hid

/-! ## Retirements -/

theorem retire_eq_some {masterId : ℕ} (hretire : db.retire masterId actor now = some after) :
    ∀ row ∈ after.masters.rows, row.status = .active → row ∈ db.masters.rows := by
  rw [Database.retire] at hretire
  split at hretire
  · cases hretire
    intro row hrow hactive
    obtain ⟨old, hold, rfl⟩ := List.mem_map.mp hrow
    by_cases hid : old.id = masterId
    · rw [if_pos hid] at hactive
      cases hactive
    · rw [if_neg hid]
      exact hold
  · cases hretire

theorem Exclusive.step (call : PolicyCall) (hexclusive : Exclusive db)
    (hreplaces : ReplacesAll db call) (hstep : policyStep checks db call = some after) :
    Exclusive after := by
  cases call with
  | activate masterId actor now =>
    rw [policyStep_activate] at hstep
    cases hfind : db.masters.find? masterId with
    | none => simp [hfind] at hstep
    | some current =>
      simp only [hfind, Option.ite_none_right_eq_some] at hstep
      exact hexclusive.activate (Log.find?_eq_some.mp hfind).1 (hreplaces current hfind) hstep.2
  | retire masterId actor now =>
    rw [policyStep_retire] at hstep
    cases hfind : db.masters.find? masterId with
    | none => simp [hfind] at hstep
    | some current =>
      simp only [hfind, Option.ite_none_right_eq_some] at hstep
      have hkept := retire_eq_some hstep.2
      intro one hone other hother hactive hactive'
      exact hexclusive one (hkept one hone hactive) other (hkept other hother hactive')
        hactive hactive'

/-- In a run of calls that replace all that they meet, no two active masters ever meet. -/
theorem Exclusive.run (hrun : ReachesUnder (policyStep checks) ReplacesAll db after)
    (hstart : Exclusive db) : Exclusive after :=
  hrun.preserves Exclusive (fun _ call _ hexclusive hreplaces => hexclusive.step call hreplaces)
    hstart

/-! ## New versions -/

/-- The constraints of the masters hold. -/
structure Sound (db : Database) : Prop where
  fits : ∀ master ∈ db.masters.rows, master.fits
  oneActive : OneActive db.masters.rows

theorem Sound.step (call : PolicyCall) (hsound : Sound db)
    (hstep : policyStep checks db call = some after) : Sound after := by
  cases call with
  | activate masterId actor now =>
    rw [policyStep_activate] at hstep
    cases hfind : db.masters.find? masterId with
    | none => simp [hfind] at hstep
    | some current =>
      simp only [hfind, Option.ite_none_right_eq_some] at hstep
      obtain ⟨⟨hfits, hone⟩, rfl⟩ := activate_eq_some.mp hstep.2
      refine ⟨?_, hone⟩
      intro row hrow
      rcases (mem_activatedMasters (Log.find?_eq_some.mp hfind).1).mp hrow with
        rfl | ⟨other, hother, hid, rfl⟩
      · exact hfits _ hrow rfl
      · unfold Master.replacedBy
        split
        · exact hsound.fits other hother
        · exact hsound.fits other hother
  | retire masterId actor now =>
    rw [policyStep_retire] at hstep
    cases hfind : db.masters.find? masterId with
    | none => simp [hfind] at hstep
    | some current =>
      simp only [hfind, Option.ite_none_right_eq_some] at hstep
      have hkept := retire_eq_some hstep.2
      refine ⟨?_, ?_⟩
      · have hretire := hstep.2
        rw [Database.retire, Option.ite_none_right_eq_some] at hretire
        obtain ⟨hfits, hafter⟩ := hretire
        cases hafter
        intro row hrow
        obtain ⟨old, hold, rfl⟩ := List.mem_map.mp hrow
        by_cases hid : old.id = masterId
        · apply hfits _ hrow
          rw [if_pos hid]
          exact hid
        · rw [if_neg hid]
          exact hsound.fits old hold
      · intro one hone other hother hactive hactive'
        exact hsound.oneActive one (hkept one hone hactive) other (hkept other hother hactive')
          hactive hactive'

theorem Sound.run (hrun : Reaches (policyStep checks) db after) (hstart : Sound db) : Sound after :=
  hrun.preserves Sound (fun _ call _ hsound => hsound.step call) hstart

/-- Activating a version makes it active and supersedes the other versions of its rule code. -/
def TakesOver (checks : Checks) (db : Database) (current : Master) (actor : String) (now : ℤ) :
    Prop :=
  ∃ after, policyStep checks db (.activate current.id actor now) = some after ∧
    current.activated actor now ∈ after.masters.rows ∧
    ∀ other ∈ db.masters.rows, other.status = .active → other.ruleCode = current.ruleCode →
      other.id ≠ current.id → { other with status := .superseded } ∈ after.masters.rows

def ReplacesVersions (db : Database) (current : Master) : Prop :=
  ∀ other ∈ db.masters.rows, other.status = .active → other.ruleCode = current.ruleCode →
    other.id ≠ current.id → current.replaces other

instance (db : Database) (current : Master) : Decidable (ReplacesVersions db current) :=
  inferInstanceAs (Decidable (∀ other ∈ db.masters.rows, other.status = .active →
    other.ruleCode = current.ruleCode → other.id ≠ current.id → current.replaces other))

/-- The period of a version that is activated now. -/
def MasterFields.startsInTime (fields : MasterFields) (now : ℤ) : Prop :=
  fields.effectiveFrom = none → ∀ stop ∈ fields.effectiveTo, now ≤ stop

instance (fields : MasterFields) (now : ℤ) : Decidable (fields.startsInTime now) :=
  inferInstanceAs (Decidable
    (fields.effectiveFrom = none → ∀ stop ∈ fields.effectiveTo, now ≤ stop))

/-- An activation keeps the CHECKs of a master unless it is too late for it. -/
theorem Master.activated_fits (hfits : current.fits) :
    (current.activated actor now).fits ↔ current.fields.startsInTime now := by
  obtain ⟨⟨hscores, hlimits, hperiod, hcurrency⟩, hchecker⟩ := hfits
  constructor
  · intro hafter hunset stop hstop
    apply hafter.1.2.2.1 now ?_ stop hstop
    simp [Master.activated, hunset]
  · intro hintime
    refine ⟨⟨hscores, hlimits, ?_, hcurrency⟩, hchecker⟩
    intro start hstart stop hstop
    cases hfrom : current.fields.effectiveFrom with
    | none =>
      have hnow : start = now := by simpa [Master.activated, hfrom] using hstart.symm
      rw [hnow]
      exact hintime hfrom stop hstop
    | some from? =>
      have hsame : start = from? := by simpa [Master.activated, hfrom] using hstart.symm
      rw [hsame]
      exact hperiod from? hfrom stop hstop

/-- The index on the active rule codes holds after an activation exactly if the other active
versions of the rule code are replaced. -/
theorem oneActive_activatedMasters (hsound : Sound db) (hcurrent : current ∈ db.masters.rows) :
    OneActive (db.activatedMasters current actor now).rows ↔ ReplacesVersions db current := by
  constructor
  · intro hone other hother hactive hcode hid
    by_contra hkept
    have hmem : current.replacedBy other ∈ (db.activatedMasters current actor now).rows :=
      (mem_activatedMasters hcurrent).mpr (.inr ⟨other, hother, hid, rfl⟩)
    have hsame := hone _ hmem _ ((mem_activatedMasters hcurrent).mpr (.inl rfl))
      (Master.replacedBy_active.mpr ⟨hactive, hkept⟩) rfl
      ((Master.replacedBy_ruleCode other).trans hcode)
    exact hid ((Master.replacedBy_id current other).symm.trans hsame)
  · intro hreplaces one hone other hother hactive hactive' hcode
    have hcases : ∀ row ∈ (db.activatedMasters current actor now).rows, row.status = .active →
        row = current.activated actor now ∨ (row ∈ db.masters.rows ∧
          row.ruleCode ≠ current.ruleCode) := by
      intro row hrow hrowActive
      rcases (mem_activatedMasters hcurrent).mp hrow with rfl | ⟨old, hold, hid, rfl⟩
      · exact .inl rfl
      · right
        obtain ⟨hwas, hkept⟩ := Master.replacedBy_active.mp hrowActive
        rw [Master.replacedBy, if_neg hkept]
        exact ⟨hold, fun hsame => hkept (hreplaces old hold hwas hsame hid)⟩
    rcases hcases one hone hactive with rfl | ⟨hold, hcodeOne⟩
    · rcases hcases other hother hactive' with rfl | ⟨hold', hcodeOther⟩
      · rfl
      · exact absurd hcode.symm hcodeOther
    · rcases hcases other hother hactive' with rfl | ⟨hold', hcodeOther⟩
      · exact absurd hcode hcodeOne
      · exact hsound.oneActive one hold other hold' hactive hactive' hcode

/-- An approved and publishable version takes over exactly if it replaces the active versions of
its rule code and is not too late. -/
theorem takesOver_iff (hsound : Sound db) (hcurrent : current ∈ db.masters.rows)
    (happroved : current.status = .approved)
    (hpublishable : db.isPublishable checks current.id) :
    TakesOver checks db current actor now ↔
      ReplacesVersions db current ∧ current.fields.startsInTime now := by
  have hfind : db.masters.find? current.id = some current :=
    Log.find?_eq_some.mpr ⟨hcurrent, rfl⟩
  have hstep : policyStep checks db (.activate current.id actor now) =
      db.activate current actor now := by
    simp [policyStep_activate, hfind, happroved, hpublishable]
  have hfits : (current.activated actor now).fits ↔ current.fields.startsInTime now :=
    Master.activated_fits (hsound.fits current hcurrent)
  have hone : OneActive (db.activatedMasters current actor now).rows ↔
      ReplacesVersions db current := oneActive_activatedMasters hsound hcurrent
  constructor
  · intro htakes
    obtain ⟨after, hafter, -, -⟩ := htakes
    rw [hstep] at hafter
    obtain ⟨⟨hchecks, hindex⟩, -⟩ := activate_eq_some.mp hafter
    refine ⟨hone.mp hindex, hfits.mp (hchecks _ ?_ rfl)⟩
    exact (mem_activatedMasters hcurrent).mpr (.inl rfl)
  · intro h
    obtain ⟨hreplaces, hintime⟩ := h
    refine ⟨{ db with masters := db.activatedMasters current actor now }, ?_, ?_, ?_⟩
    · rw [hstep]
      refine activate_eq_some.mpr ⟨⟨?_, hone.mpr hreplaces⟩, rfl⟩
      intro row hrow hid
      rcases (mem_activatedMasters hcurrent).mp hrow with rfl | ⟨other, hother, hne, rfl⟩
      · exact hfits.mpr hintime
      · exact absurd ((Master.replacedBy_id current other).symm.trans hid) hne
    · exact (mem_activatedMasters hcurrent).mpr (.inl rfl)
    · intro other hother hactive hcode hid
      apply (mem_activatedMasters hcurrent).mpr
      refine .inr ⟨other, hother, hid, ?_⟩
      rw [Master.replacedBy, if_pos (hreplaces other hother hactive hcode hid)]

/-- From tables without an active master: while every activation replaces all that it meets, a
look-up has at most one candidate; and in every state an approved and publishable version takes
over exactly if it replaces the active versions of its rule code and is not too late. -/
theorem one_policy {start : Database} (hfits : ∀ master ∈ start.masters.rows, master.fits)
    (hnone : ∀ master ∈ start.masters.rows, master.status ≠ .active) :
    (∀ db, ReachesUnder (policyStep checks) ReplacesAll start db → ∀ lookup now,
      ∀ one ∈ db.candidates lookup now none, ∀ other ∈ db.candidates lookup now none,
        one = other) ∧
    (∀ db, Reaches (policyStep checks) start db → ∀ current ∈ db.masters.rows,
      current.status = .approved → db.isPublishable checks current.id → ∀ actor now,
        (TakesOver checks db current actor now ↔
          ReplacesVersions db current ∧ current.fields.startsInTime now)) := by
  constructor
  · intro db hrun lookup now one hone other hother
    have hexclusive : Exclusive start := fun one hone _ _ hactive _ _ _ => hnone one hone hactive
    exact (hexclusive.run hrun).candidate_eq hone hother
  · intro db hrun current hcurrent happroved hpublishable actor now
    have hstart : Sound start :=
      ⟨hfits, fun one hone _ _ hactive _ _ => absurd hactive (hnone one hone)⟩
    exact takesOver_iff (hstart.run hrun) hcurrent happroved hpublishable

end

/-! ## A policy for everybody and one for some -/

def policyOf (id : ℕ) (ruleCode : String) (version : ℕ) (category : String) : Master where
  id := id
  ruleCode := ruleCode
  version := version
  fields :=
    { name := "Policy", customerCategory := category, productId := "LOAN", maximumLimit := 1000 }
  status := .approved
  createdBy := "maker"
  approvedBy := some "checker"

/-- Three versions of a policy and another policy, all of them approved. -/
def fourPolicies : Database where
  masters :=
    { rows := [policyOf 1 "RETAIL" 1 "ANY", policyOf 2 "RETAIL" 2 "GOLD",
        policyOf 3 "GOLDEN" 1 "GOLD", policyOf 4 "RETAIL" 3 "ANY"]
      next := 5
      increasing := by decide
      below := by decide }

/-- A customer in the category. -/
def golden : Lookup where
  productId := "LOAN"
  category := "gold"
  score := 700

/-- The third version replaces the first. -/
theorem one_policy_replaced :
    (∃ db, ReachesUnder (policyStep lenient) ReplacesAll fourPolicies db ∧
      (db.findMaster golden 2 none).map Master.id = some 4 ∧
      ∀ one ∈ db.candidates golden 2 none, ∀ other ∈ db.candidates golden 2 none, one = other) ∧
    TakesOver lenient fourPolicies (policyOf 1 "RETAIL" 1 "ANY") "checker" 1 := by
  have hpolicy := @one_policy lenient fourPolicies (by decide) (by decide)
  have hany : (runInputs (guardedStep (policyStep lenient) ReplacesAll) fourPolicies
      [.activate 1 "checker" 1, .activate 4 "checker" 2]).any (fun db =>
        decide ((db.findMaster golden 2 none).map Master.id = some 4)) := by decide +kernel
  obtain ⟨db, hrun, hfacts⟩ := (Option.any_eq_true _ _).mp hany
  have hreaches := (Reaches.of_runInputs hrun).under
  refine ⟨⟨db, hreaches, of_decide_eq_true hfacts, hpolicy.1 db hreaches golden 2⟩, ?_⟩
  exact (hpolicy.2 fourPolicies .refl _ (by decide +kernel) rfl (by decide +kernel) "checker"
    1).mpr (by decide)

/-- The policy for everybody and the one for the category are both candidates, and the version
for the category cannot replace the one for everybody. -/
theorem policies_compete :
    (∀ master ∈ fourPolicies.masters.rows, master.fits ∧ master.status ≠ .active) ∧
    ∃ db, Reaches (policyStep lenient) fourPolicies db ∧
      (db.candidates golden 2 none).map Master.id = [1, 3] ∧
      policyOf 2 "RETAIL" 2 "GOLD" ∈ db.masters.rows ∧
      db.isPublishable lenient 2 ∧
      policyStep lenient db (.activate 2 "checker" 3) = none := by
  refine ⟨by decide, ?_⟩
  have hany : (runInputs (policyStep lenient) fourPolicies
      [.activate 1 "checker" 1, .activate 3 "checker" 2]).any (fun db =>
        decide ((db.candidates golden 2 none).map Master.id = [1, 3] ∧
          policyOf 2 "RETAIL" 2 "GOLD" ∈ db.masters.rows ∧ db.isPublishable lenient 2 ∧
          (policyStep lenient db (.activate 2 "checker" 3)).isNone)) := by decide +kernel
  obtain ⟨db, hrun, hfacts⟩ := (Option.any_eq_true _ _).mp hany
  obtain ⟨hcandidates, hmem, hpublishable, hnone⟩ := of_decide_eq_true hfacts
  exact ⟨db, Reaches.of_runInputs hrun, hcandidates, hmem, hpublishable,
    Option.isNone_iff_eq_none.mp hnone⟩

end Finify.Credit
