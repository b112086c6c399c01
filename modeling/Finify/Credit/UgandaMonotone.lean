/-
# The policy of Uganda is monotone

The rules that knock a customer out do not read what makes one better.  The rules that offer a limit
read the cash flow and the tenure only through a few thresholds, so that neighbouring cells of a
finite table decide that a better customer is offered at least as much.
-/

import Finify.Credit.UgandaRun
import Mathlib.Order.Fin.Basic

namespace Finify.Credit.Uganda

open Finify.Foundations
open Conditions

variable {environment : Environment} {inputs first second : DecisionInputs}

/-! ## Better customers -/

/-- The place of a grade, from the worst. -/
def Grade.rank : Grade → Fin 10
  | .j => 0
  | .i => 1
  | .h => 2
  | .g => 3
  | .f => 4
  | .e => 5
  | .d => 6
  | .c => 7
  | .b => 8
  | .a => 9

def gradeAt (rank : Fin 10) : Grade :=
  [Grade.j, .i, .h, .g, .f, .e, .d, .c, .b, .a].get rank

theorem gradeAt_rank (grade : Grade) : gradeAt grade.rank = grade := by
  cases grade <;> rfl

/-- The second inputs differ from the first only in that the grade is better, and the cash flow,
the tenure or the limit that the model proposes is higher. -/
structure Better (first second : DecisionInputs) : Prop where
  grade : first.grade.rank ≤ second.grade.rank
  cashFlow : first.dominantCashFlow ≤ second.dominantCashFlow
  tenure : first.telecomTenureMonths ≤ second.telecomTenureMonths
  proposed : first.modelProposedLimit ≤ second.modelProposedLimit
  same : second = { first with
    grade := second.grade
    dominantCashFlow := second.dominantCashFlow
    telecomTenureMonths := second.telecomTenureMonths
    modelProposedLimit := second.modelProposedLimit }

/-- A test that does not read what makes a customer better. -/
def Test.isFixed : Test → Bool
  | .gradeIs _ | .gradeIn _ | .cashFlow _ _ | .cashFlowRange _ _ _ => false
  | .integer field _ _ => field ≠ .dominantCashFlow && field ≠ .telecomTenureMonths
  | _ => true

def Condition.tests : Condition → List Test
  | .one test => [test]
  | .all tests => tests

theorem Condition.holds_eq_all (condition : Condition) :
    condition.holds inputs = condition.tests.all (Test.holds inputs) := by
  cases condition with
  | one test => exact (Bool.and_true _).symm
  | all tests => rfl

theorem holds_of_isFixed {test : Test} (hbetter : Better first second)
    (hfixed : test.isFixed = true) : test.holds first = test.holds second := by
  rw [hbetter.same]
  cases test with
  | integer field operator value =>
    cases field with
    | dominantCashFlow => cases hfixed
    | telecomTenureMonths => cases hfixed
    | _ => rfl
  | flag field value => cases field <;> rfl
  | gradeIs => cases hfixed
  | gradeIn => cases hfixed
  | cashFlow => cases hfixed
  | cashFlowRange => cases hfixed
  | _ => rfl

theorem all_congr {α : Type} {left right : α → Bool} {items : List α}
    (hsame : ∀ item ∈ items, left item = right item) : items.all left = items.all right := by
  rw [Bool.eq_iff_iff, List.all_eq_true, List.all_eq_true]
  exact forall₂_congr fun item hmem => by rw [hsame item hmem]

theorem find?_congr {α : Type} {left right : α → Bool} {items : List α}
    (hsame : ∀ item ∈ items, left item = right item) : items.find? left = items.find? right := by
  induction items with
  | nil => rfl
  | cons head rest ih =>
    rw [List.find?_cons, List.find?_cons, hsame head List.mem_cons_self,
      ih fun item hmem => hsame item (List.mem_cons_of_mem _ hmem)]

/-- The rules that knock out do so for both customers or for neither. -/
theorem find?_knockouts (hbetter : Better first second) :
    (knockouts.find? fun seed => seed.condition.holds first) =
      knockouts.find? fun seed => seed.condition.holds second := by
  have hfixed : ∀ seed ∈ knockouts, ∀ test ∈ seed.condition.tests, test.isFixed = true := by decide
  apply find?_congr
  intro seed hseed
  rw [Condition.holds_eq_all, Condition.holds_eq_all]
  exact all_congr fun test htest => holds_of_isFixed hbetter (hfixed seed hseed test htest)

/-! ## Cells -/

/-- What the offers for a channel and a bureau status tell of the inputs. -/
structure Cell where
  grade : Fin 10
  cashFlow : Fin 6
  tenure : Fin 4

/-- The level of a cash flow between the thresholds. -/
def cashLevel (amount : ℚ) : Fin 6 :=
  if amount < 50000 then 0
  else if amount < 100000 then 1
  else if amount < 150000 then 2
  else if amount ≤ 150000 then 3
  else if amount ≤ 300000 then 4
  else 5

def cashAt (level : Fin 6) : ℕ := [0, 50000, 100000, 150000, 200000, 300001].get level

def tenureLevel (months : ℤ) : Fin 4 :=
  if months ≤ 6 then 0 else if months ≤ 12 then 1 else if months ≤ 24 then 2 else 3

def tenureAt (level : Fin 4) : ℕ := [0, 7, 13, 25].get level

def DecisionInputs.cell (inputs : DecisionInputs) : Cell where
  grade := inputs.grade.rank
  cashFlow := cashLevel inputs.dominantCashFlow
  tenure := tenureLevel (trunc inputs.telecomTenureMonths)

def Test.inCell (cell : Cell) : Test → Bool
  | .gradeIs grade => gradeAt cell.grade = grade
  | .gradeIn grades => grades.contains (gradeAt cell.grade)
  | .integer _ _ value => value < tenureAt cell.tenure
  | .cashFlow _ value => value < cashAt cell.cashFlow
  | .cashFlowRange lower upper upperInclusive =>
    lower ≤ cashAt cell.cashFlow &&
      if upperInclusive then decide (cashAt cell.cashFlow ≤ upper)
      else decide (cashAt cell.cashFlow < upper)
  | _ => false

/-- A test reads the cash flow and the tenure at their thresholds only. -/
def Test.isTabled : Test → Bool
  | .gradeIs _ | .gradeIn _ => true
  | .integer field operator value =>
    field = .telecomTenureMonths && operator = .greaterThan && [6, 12, 24].contains value
  | .cashFlow operator value => operator = .greaterThan && [150000, 300000].contains value
  | .cashFlowRange lower upper upperInclusive =>
    [50000, 100000, 150000].contains lower &&
      if upperInclusive then [150000, 300000].contains upper
      else [100000, 150000].contains upper
  | _ => false

/-- Where an amount lies between the thresholds. -/
theorem cashLevel_cases (amount : ℚ) :
    (cashLevel amount = 0 ∧ amount < 50000) ∨
      (cashLevel amount = 1 ∧ 50000 ≤ amount ∧ amount < 100000) ∨
      (cashLevel amount = 2 ∧ 100000 ≤ amount ∧ amount < 150000) ∨
      (cashLevel amount = 3 ∧ amount = 150000) ∨
      (cashLevel amount = 4 ∧ 150000 < amount ∧ amount ≤ 300000) ∨
      (cashLevel amount = 5 ∧ 300000 < amount) := by
  unfold cashLevel
  split_ifs with hfirst hsecond hthird hfourth hfifth
  · exact Or.inl ⟨rfl, hfirst⟩
  · exact Or.inr (Or.inl ⟨rfl, not_lt.mp hfirst, hsecond⟩)
  · exact Or.inr (Or.inr (Or.inl ⟨rfl, not_lt.mp hsecond, hthird⟩))
  · exact Or.inr (Or.inr (Or.inr (Or.inl ⟨rfl, le_antisymm hfourth (not_lt.mp hthird)⟩)))
  · exact Or.inr (Or.inr (Or.inr (Or.inr (Or.inl ⟨rfl, not_le.mp hfourth, hfifth⟩))))
  · exact Or.inr (Or.inr (Or.inr (Or.inr (Or.inr ⟨rfl, not_le.mp hfifth⟩))))

/-- A cash flow passes the thresholds that the amount of its level passes. -/
theorem cashAt_thresholds (amount : ℚ) :
    (50000 ≤ cashAt (cashLevel amount) ↔ 50000 ≤ amount) ∧
      (100000 ≤ cashAt (cashLevel amount) ↔ 100000 ≤ amount) ∧
      (150000 ≤ cashAt (cashLevel amount) ↔ 150000 ≤ amount) ∧
      (150000 < cashAt (cashLevel amount) ↔ 150000 < amount) ∧
      (300000 < cashAt (cashLevel amount) ↔ 300000 < amount) := by
  rcases cashLevel_cases amount with ⟨hlevel, hlies⟩ | ⟨hlevel, hlies⟩ | ⟨hlevel, hlies⟩ |
    ⟨hlevel, hlies⟩ | ⟨hlevel, hlies⟩ | ⟨hlevel, hlies⟩
  all_goals
    rw [hlevel]
    refine ⟨?_, ?_, ?_, ?_, ?_⟩ <;>
      first
        | exact iff_of_true (by decide) (by linarith)
        | exact iff_of_false (by decide) (by linarith)

theorem cashLevel_mono {left right : ℚ} (hle : left ≤ right) : cashLevel left ≤ cashLevel right := by
  rcases cashLevel_cases left with ⟨hleft, hlies⟩ | ⟨hleft, hlies⟩ | ⟨hleft, hlies⟩ |
    ⟨hleft, hlies⟩ | ⟨hleft, hlies⟩ | ⟨hleft, hlies⟩ <;>
  rcases cashLevel_cases right with ⟨hright, hends⟩ | ⟨hright, hends⟩ | ⟨hright, hends⟩ |
    ⟨hright, hends⟩ | ⟨hright, hends⟩ | ⟨hright, hends⟩ <;>
  rw [hleft, hright] <;> first | decide | (exfalso; linarith)

/-- A tenure passes the thresholds that the months of its level pass. -/
theorem tenureAt_thresholds (months : ℤ) :
    (6 < tenureAt (tenureLevel months) ↔ 6 < months) ∧
      (12 < tenureAt (tenureLevel months) ↔ 12 < months) ∧
      (24 < tenureAt (tenureLevel months) ↔ 24 < months) := by
  unfold tenureLevel
  refine ⟨?_, ?_, ?_⟩ <;> split_ifs <;>
    first
      | exact iff_of_true (by decide) (by omega)
      | exact iff_of_false (by decide) (by omega)

theorem tenureLevel_mono {left right : ℤ} (hle : left ≤ right) :
    tenureLevel left ≤ tenureLevel right := by
  unfold tenureLevel
  split_ifs <;> first | decide | omega

theorem trunc_mono {left right : ℚ} (hle : left ≤ right) : trunc left ≤ trunc right := by
  unfold trunc
  split_ifs with hleft hright
  · exact Int.floor_le_floor hle
  · exact absurd (hleft.trans hle) hright
  · exact (Int.ceil_le.mpr (by push_cast; linarith)).trans (Int.floor_nonneg.mpr ‹0 ≤ right›)
  · exact Int.ceil_le_ceil hle

theorem mem_of_contains {items : List ℕ} {item : ℕ} (hcontains : items.contains item = true) :
    item ∈ items := by
  simpa using hcontains

/-- A test that is tabled says of the inputs what it says of their cell. -/
theorem holds_eq_inCell {test : Test} (htabled : test.isTabled = true) :
    test.holds inputs = test.inCell inputs.cell := by
  obtain ⟨hfifty, hhundred, hfrom, habove, hhigh⟩ := cashAt_thresholds inputs.dominantCashFlow
  cases test with
  | gradeIs grade =>
    show decide (inputs.grade = grade) = decide (gradeAt inputs.grade.rank = grade)
    rw [gradeAt_rank]
  | gradeIn grades =>
    show grades.contains inputs.grade = grades.contains (gradeAt inputs.grade.rank)
    rw [gradeAt_rank]
  | integer field operator value =>
    obtain ⟨hsix, htwelve, htwentyFour⟩ :=
      tenureAt_thresholds (trunc inputs.telecomTenureMonths)
    simp only [Test.isTabled, Bool.and_eq_true, decide_eq_true_eq] at htabled
    obtain ⟨⟨rfl, rfl⟩, hmem⟩ := htabled
    show decide ((value : ℚ) < (trunc inputs.telecomTenureMonths : ℚ)) =
      decide (value < tenureAt (tenureLevel (trunc inputs.telecomTenureMonths)))
    rw [decide_eq_decide]
    have hcast : (value : ℚ) < (trunc inputs.telecomTenureMonths : ℚ) ↔
        (value : ℤ) < trunc inputs.telecomTenureMonths := by exact_mod_cast Iff.rfl
    rw [hcast]
    rcases List.mem_cons.mp (mem_of_contains hmem) with rfl | hrest
    · exact hsix.symm
    rcases List.mem_cons.mp hrest with rfl | hrest
    · exact htwelve.symm
    · rw [List.mem_singleton.mp hrest]
      exact htwentyFour.symm
  | cashFlow operator value =>
    simp only [Test.isTabled, Bool.and_eq_true, decide_eq_true_eq] at htabled
    obtain ⟨rfl, hmem⟩ := htabled
    show decide ((value : ℚ) < inputs.dominantCashFlow) =
      decide (value < cashAt (cashLevel inputs.dominantCashFlow))
    rw [decide_eq_decide]
    rcases List.mem_cons.mp (mem_of_contains hmem) with rfl | hrest
    · exact habove.symm
    · rw [List.mem_singleton.mp hrest]
      exact hhigh.symm
  | cashFlowRange lower upper upperInclusive =>
    simp only [Test.isTabled, Bool.and_eq_true] at htabled
    have hlower : decide ((lower : ℚ) ≤ inputs.dominantCashFlow) =
        decide (lower ≤ cashAt (cashLevel inputs.dominantCashFlow)) := by
      rw [decide_eq_decide]
      rcases List.mem_cons.mp (mem_of_contains htabled.1) with rfl | hrest
      · exact hfifty.symm
      rcases List.mem_cons.mp hrest with rfl | hrest
      · exact hhundred.symm
      · rw [List.mem_singleton.mp hrest]
        exact hfrom.symm
    refine congrArg₂ and hlower ?_
    cases upperInclusive with
    | false =>
      show decide ((inputs.dominantCashFlow : ℚ) < upper) =
        decide (cashAt (cashLevel inputs.dominantCashFlow) < upper)
      rw [decide_eq_decide, ← not_le, ← not_le]
      rcases List.mem_cons.mp (mem_of_contains htabled.2) with rfl | hrest
      · exact not_congr hhundred.symm
      · rw [List.mem_singleton.mp hrest]
        exact not_congr hfrom.symm
    | true =>
      show decide ((inputs.dominantCashFlow : ℚ) ≤ upper) =
        decide (cashAt (cashLevel inputs.dominantCashFlow) ≤ upper)
      rw [decide_eq_decide, ← not_lt, ← not_lt]
      rcases List.mem_cons.mp (mem_of_contains htabled.2) with rfl | hrest
      · exact not_congr habove.symm
      · rw [List.mem_singleton.mp hrest]
        exact not_congr hhigh.symm
  | _ => cases htabled

/-! ## Offers -/

def Seed.isFor (channel : Channel) (bureauStatus : BureauStatus) (seed : Seed) : Bool :=
  match seed.condition.tests with
  | .channelIs one :: .bureauIs other :: _ => channel = one && bureauStatus = other
  | _ => false

/-- The tests of a rule after those of the channel and the bureau status. -/
def Seed.rest (seed : Seed) : List Test := seed.condition.tests.drop 2

/-- The condition of a rule tests the channel and the bureau status, and then what is tabled. -/
def Seed.isTabled (seed : Seed) : Bool :=
  match seed.condition.tests with
  | .channelIs _ :: .bureauIs _ :: rest => rest.all Test.isTabled
  | _ => false

/-- The action of the first rule whose condition holds. -/
def offer (seeds : List Seed) (inputs : DecisionInputs) : Option Act :=
  (seeds.find? fun seed => seed.condition.holds inputs).map Seed.act

/-- The action of the first of some rules for the channel and the bureau status that takes a
cell. -/
def Cell.offer (seeds : List Seed) (cell : Cell) : Option Act :=
  (seeds.find? fun seed => seed.rest.all (Test.inCell cell)).map Seed.act

theorem holds_eq_scoped {seed : Seed} (htabled : seed.isTabled = true) :
    seed.condition.holds inputs =
      (seed.isFor inputs.channel inputs.bureauStatus && seed.rest.all (Test.inCell inputs.cell)) := by
  rw [Condition.holds_eq_all]
  unfold Seed.isFor Seed.rest
  unfold Seed.isTabled at htabled
  split at htabled
  · rename_i one other rest hsplit
    rw [hsplit, List.all_cons, List.all_cons, ← Bool.and_assoc]
    show (_ && rest.all (Test.holds inputs)) = (_ && rest.all (Test.inCell inputs.cell))
    rw [all_congr fun test htest => holds_eq_inCell (List.all_eq_true.mp htabled test htest)]
    rfl
  · cases htabled

/-- The rules for the channel and the bureau status decide what is offered. -/
theorem offer_eq_cell (seeds : List Seed) (htabled : ∀ seed ∈ seeds, seed.isTabled = true) :
    offer seeds inputs = inputs.cell.offer
      (seeds.filter (Seed.isFor inputs.channel inputs.bureauStatus)) := by
  unfold offer Cell.offer
  rw [List.find?_filter, find?_congr]
  intro seed hseed
  rw [holds_eq_scoped (htabled seed hseed), Bool.decide_and, Bool.decide_eq_true,
    Bool.decide_eq_true]

/-- The limit of the second action is never below that of the first. -/
def Act.below : Act → Act → Bool
  | .fixed first, .fixed second => first ≤ second
  | .fixed first, .scaled _ => first ≤ 400000
  | .scaled first, .scaled second => first ≤ second
  | .scaled _, .fixed second => 1500000 ≤ second
  | _, _ => false

/-- Nothing is offered first, or the second offer is never below the first. -/
def offerBelow : Option Act → Option Act → Bool
  | none, _ => true
  | some first, some second => first.below second
  | some _, none => false

theorem Act.limit_le_of_below {first second : Act} (hbelow : first.below second = true)
    {least more : ℚ≥0} (hle : least ≤ more) : first.limit least ≤ second.limit more := by
  have hcast : (least : ℚ) ≤ more := hle
  have hnonneg : (0 : ℚ) ≤ least := least.2
  cases first with
  | fixed first =>
    cases second with
    | fixed second =>
      show (first : ℚ) ≤ second
      exact_mod_cast of_decide_eq_true hbelow
    | scaled =>
      have hfirst : (first : ℚ) ≤ 400000 := by exact_mod_cast of_decide_eq_true hbelow
      exact le_min (hfirst.trans (by norm_num)) (hfirst.trans (le_max_left _ _))
    | _ => cases hbelow
  | scaled first =>
    cases second with
    | fixed second =>
      have hsecond : (1500000 : ℚ) ≤ second := by exact_mod_cast of_decide_eq_true hbelow
      exact (min_le_left _ _).trans hsecond
    | scaled second =>
      have htenths : (first : ℚ) ≤ second := by exact_mod_cast of_decide_eq_true hbelow
      have hfirst : (0 : ℚ) ≤ first := Nat.cast_nonneg first
      have hproduct : (least : ℚ) * (first / 10) ≤ more * (second / 10) :=
        mul_le_mul hcast (by linarith) (by linarith) (hnonneg.trans hcast)
      exact min_le_min_left _ (max_le_max_left _ hproduct)
    | _ => cases hbelow
  | _ => cases second <;> cases hbelow

/-- What an offer is worth, by what the model proposes. -/
def worth : Option Act → WithBot (ℚ≥0 → ℚ)
  | none => ⊥
  | some act => ((fun proposed => act.limit proposed : ℚ≥0 → ℚ) : WithBot (ℚ≥0 → ℚ))

theorem worth_le_of_offerBelow {first second : Option Act}
    (hbelow : offerBelow first second = true) : worth first ≤ worth second := by
  cases first with
  | none => exact bot_le
  | some first =>
    cases second with
    | none => cases hbelow
    | some second =>
      exact WithBot.coe_le_coe.mpr fun proposed => Act.limit_le_of_below hbelow le_rfl

/-- No better cell of these is offered less. -/
theorem bureau_rises : ∀ seeds ∈ [appBureau, ussdBureau],
    (∀ grade : Fin 9, ∀ cashFlow, offerBelow (Cell.offer seeds ⟨grade.castSucc, cashFlow, 0⟩)
      (Cell.offer seeds ⟨grade.succ, cashFlow, 0⟩) = true) ∧
    ∀ grade, ∀ cashFlow : Fin 5, offerBelow (Cell.offer seeds ⟨grade, cashFlow.castSucc, 0⟩)
      (Cell.offer seeds ⟨grade, cashFlow.succ, 0⟩) = true := by
  decide

theorem noRecord_rises : ∀ seeds ∈ [appNoRecord, ussdNoRecord],
    (∀ grade : Fin 9, ∀ cashFlow tenure,
      offerBelow (Cell.offer seeds ⟨grade.castSucc, cashFlow, tenure⟩)
        (Cell.offer seeds ⟨grade.succ, cashFlow, tenure⟩) = true) ∧
    (∀ grade, ∀ cashFlow : Fin 5, ∀ tenure,
      offerBelow (Cell.offer seeds ⟨grade, cashFlow.castSucc, tenure⟩)
        (Cell.offer seeds ⟨grade, cashFlow.succ, tenure⟩) = true) ∧
    ∀ grade cashFlow, ∀ tenure : Fin 3,
      offerBelow (Cell.offer seeds ⟨grade, cashFlow, tenure.castSucc⟩)
        (Cell.offer seeds ⟨grade, cashFlow, tenure.succ⟩) = true := by
  decide

/-- A rise of every step is a rise between any two cells. -/
theorem worth_mono {seeds : List Seed} {first second : Cell} (hgrade : first.grade ≤ second.grade)
    (hcash : first.cashFlow ≤ second.cashFlow) (htenure : first.tenure ≤ second.tenure)
    (hgrades : ∀ grade : Fin 9, ∀ cashFlow tenure,
      worth (Cell.offer seeds ⟨grade.castSucc, cashFlow, tenure⟩) ≤
        worth (Cell.offer seeds ⟨grade.succ, cashFlow, tenure⟩))
    (hcashFlows : ∀ grade, ∀ cashFlow : Fin 5, ∀ tenure,
      worth (Cell.offer seeds ⟨grade, cashFlow.castSucc, tenure⟩) ≤
        worth (Cell.offer seeds ⟨grade, cashFlow.succ, tenure⟩))
    (htenures : ∀ grade cashFlow, ∀ tenure : Fin 3,
      worth (Cell.offer seeds ⟨grade, cashFlow, tenure.castSucc⟩) ≤
        worth (Cell.offer seeds ⟨grade, cashFlow, tenure.succ⟩)) :
    worth (first.offer seeds) ≤ worth (second.offer seeds) := by
  have hbyGrade : Monotone fun grade =>
      worth (Cell.offer seeds ⟨grade, first.cashFlow, first.tenure⟩) :=
    Fin.monotone_iff_le_succ.mpr fun grade => hgrades grade first.cashFlow first.tenure
  have hbyCash : Monotone fun cashFlow =>
      worth (Cell.offer seeds ⟨second.grade, cashFlow, first.tenure⟩) :=
    Fin.monotone_iff_le_succ.mpr fun cashFlow => hcashFlows second.grade cashFlow first.tenure
  have hbyTenure : Monotone fun tenure =>
      worth (Cell.offer seeds ⟨second.grade, second.cashFlow, tenure⟩) :=
    Fin.monotone_iff_le_succ.mpr fun tenure => htenures second.grade second.cashFlow tenure
  calc worth (first.offer seeds)
      ≤ worth (Cell.offer seeds ⟨second.grade, first.cashFlow, first.tenure⟩) :=
        hbyGrade hgrade
    _ ≤ worth (Cell.offer seeds ⟨second.grade, second.cashFlow, first.tenure⟩) :=
        hbyCash hcash
    _ ≤ worth (second.offer seeds) := hbyTenure htenure

def Test.skipsTenure : Test → Bool
  | .integer _ _ _ => false
  | _ => true

/-- Rules that do not read the tenure offer the same whatever it is. -/
theorem offer_tenure {seeds : List Seed}
    (hskips : ∀ seed ∈ seeds, ∀ test ∈ seed.rest, test.skipsTenure = true) (grade : Fin 10)
    (cashFlow : Fin 6) (tenure : Fin 4) :
    Cell.offer seeds ⟨grade, cashFlow, tenure⟩ = Cell.offer seeds ⟨grade, cashFlow, 0⟩ := by
  unfold Cell.offer
  rw [find?_congr]
  intro seed hseed
  apply all_congr
  intro test htest
  cases test with
  | integer => exact absurd (hskips seed hseed _ htest) Bool.false_ne_true
  | _ => rfl

/-- No better cell is offered less. -/
theorem worth_offers_mono (channel : Channel) (bureauStatus : BureauStatus) {first second : Cell}
    (hgrade : first.grade ≤ second.grade) (hcash : first.cashFlow ≤ second.cashFlow)
    (htenure : first.tenure ≤ second.tenure) :
    worth (first.offer (offers.filter (Seed.isFor channel bureauStatus))) ≤
      worth (second.offer (offers.filter (Seed.isFor channel bureauStatus))) := by
  have hbureau : ∀ seeds ∈ [appBureau, ussdBureau],
      worth (first.offer seeds) ≤ worth (second.offer seeds) := by
    intro seeds hseeds
    obtain ⟨hgrades, hcashFlows⟩ := bureau_rises seeds hseeds
    have hskips : ∀ seeds ∈ [appBureau, ussdBureau], ∀ seed ∈ seeds, ∀ test ∈ seed.rest,
        test.skipsTenure = true := by decide
    have hsame := offer_tenure (hskips seeds hseeds)
    apply worth_mono hgrade hcash htenure
    · intro grade cashFlow tenure
      rw [hsame, hsame grade.succ]
      exact worth_le_of_offerBelow (hgrades grade cashFlow)
    · intro grade cashFlow tenure
      rw [hsame, hsame grade cashFlow.succ]
      exact worth_le_of_offerBelow (hcashFlows grade cashFlow)
    · intro grade cashFlow tenure
      rw [hsame, hsame grade cashFlow tenure.succ]
  have hnoRecord : ∀ seeds ∈ [appNoRecord, ussdNoRecord],
      worth (first.offer seeds) ≤ worth (second.offer seeds) := by
    intro seeds hseeds
    obtain ⟨hgrades, hcashFlows, htenures⟩ := noRecord_rises seeds hseeds
    exact worth_mono hgrade hcash htenure
      (fun grade cashFlow tenure => worth_le_of_offerBelow (hgrades grade cashFlow tenure))
      (fun grade cashFlow tenure => worth_le_of_offerBelow (hcashFlows grade cashFlow tenure))
      (fun grade cashFlow tenure => worth_le_of_offerBelow (htenures grade cashFlow tenure))
  have hnone : ∀ cell : Cell, worth (cell.offer []) = ⊥ := fun cell => rfl
  cases channel with
  | app =>
    cases bureauStatus with
    | pass => exact hbureau appBureau (by simp)
    | fail => exact (hnone first).trans_le bot_le
    | noRecord => exact hnoRecord appNoRecord (by simp)
  | ussd =>
    cases bureauStatus with
    | pass => exact hbureau ussdBureau (by simp)
    | fail => exact (hnone first).trans_le bot_le
    | noRecord => exact hnoRecord ussdNoRecord (by simp)
  | _ => cases bureauStatus <;> exact (hnone first).trans_le bot_le

/-- A better customer is offered at least as much. -/
theorem exists_offer (hbetter : Better first second) {act : Act}
    (hoffer : offer offers first = some act) :
    ∃ better, offer offers second = some better ∧
      act.limit first.modelProposedLimit ≤ better.limit second.modelProposedLimit := by
  have htabled : ∀ seed ∈ offers, seed.isTabled = true := by decide
  have hworth : worth (offer offers first) ≤ worth (offer offers second) := by
    have hchannel : second.channel = first.channel := by rw [hbetter.same]
    have hstatus : second.bureauStatus = first.bureauStatus := by rw [hbetter.same]
    rw [offer_eq_cell offers htabled, offer_eq_cell offers htabled, hchannel, hstatus]
    exact worth_offers_mono _ _ hbetter.grade (cashLevel_mono hbetter.cashFlow)
      (tenureLevel_mono (trunc_mono hbetter.tenure))
  rw [hoffer] at hworth
  cases hsecond : offer offers second with
  | none =>
    rw [hsecond] at hworth
    exact absurd hworth (WithBot.not_coe_le_bot _)
  | some better =>
    refine ⟨better, rfl, ?_⟩
    rw [hsecond] at hworth
    have hrises : ∀ seed ∈ offers, seed.act.below seed.act = true := by decide
    obtain ⟨seed, hseed, rfl⟩ := Option.map_eq_some_iff.mp hsecond
    calc act.limit first.modelProposedLimit
        ≤ seed.act.limit first.modelProposedLimit :=
          WithBot.coe_le_coe.mp hworth first.modelProposedLimit
      _ ≤ seed.act.limit second.modelProposedLimit :=
          Act.limit_le_of_below (hrises seed (List.mem_of_find?_eq_some hseed)) hbetter.proposed

/-! ## Decisions -/

/-- The verdict on the action of the first rule whose condition holds. -/
def verdictOf (dto : Review.EvaluateCredit) (commercial : Bool) (inputs : DecisionInputs) :
    Option Act → Review.Verdict
  | some act =>
    Review.finalDecision dto master
      { currentLimit := some (act.limit inputs.modelProposedLimit), outcome := act.outcome
        reasonCodes := [act.reason] } commercial
  | none => Review.finalDecision dto master { currentLimit := some 0 } commercial

theorem decide?_eq (dto : Review.EvaluateCredit) (commercial : Bool) (aiResult : Value)
    (hjsonb : environment.jsonb inputs.toValue = true) :
    decide? environment dto commercial aiResult inputs =
      some (verdictOf dto commercial inputs (offer policy inputs)) := by
  have hsound : ∀ seed ∈ policy, seed.act.isSound = true := by decide
  rw [decide?, run_eq policy hjsonb hsound, Option.map_some, offer]
  cases policy.find? fun seed => seed.condition.holds inputs with
  | none => rfl
  | some seed => rfl

/-- What the policy finds: a knock-out, an offer, or a refusal. -/
theorem offer_policy (inputs : DecisionInputs) :
    offer policy inputs =
      (offer knockouts inputs <|> offer offers inputs <|> offer refusals inputs) := by
  unfold offer policy
  rw [List.find?_append, List.find?_append]
  cases knockouts.find? fun seed => seed.condition.holds inputs with
  | some seed => rfl
  | none =>
    cases offers.find? fun seed => seed.condition.holds inputs with
    | some seed => rfl
    | none => rfl

def allocated (limit : ℚ) : ℚ := max 0 (min master.maximumLimit (money (some limit)))

def available (dto : Review.EvaluateCredit) (limit : ℚ) : ℚ :=
  max 0 (money (some (allocated limit - dto.existingExposure - dto.pendingReservations)))

theorem allocated_mono {left right : ℚ} (hle : left ≤ right) : allocated left ≤ allocated right :=
  max_le_max_left _ (min_le_min_left _ (money_mono hle))

theorem available_mono (dto : Review.EvaluateCredit) {left right : ℚ} (hle : left ≤ right) :
    available dto left ≤ available dto right := by
  apply max_le_max_left
  apply money_mono
  linarith [allocated_mono hle]

/-- The decision on a limit when the rules have left an outcome. -/
def verdictAt (dto : Review.EvaluateCredit) (commercial : Bool) (limit : ℚ)
    (outcome : Review.RuleOutcome) (reasonCodes : List String) : Review.Verdict :=
  Review.finalDecision dto master
    { currentLimit := some limit, outcome := outcome, reasonCodes := reasonCodes } commercial

variable {dto : Review.EvaluateCredit} {commercial : Bool} {limit : ℚ} {reasonCodes : List String}

theorem verdictAt_rejected :
    (verdictAt dto commercial limit .rejected reasonCodes).outcome = .rejected := by
  unfold verdictAt Review.finalDecision
  simp

/-- Where the rules leave the outcome open a customer is not rejected exactly if the limit is
enough and some of it is available. -/
theorem verdictAt_processing :
    (verdictAt dto commercial limit .processing reasonCodes).outcome ≠ .rejected ↔
      master.minimumLimit ≤ allocated limit ∧ 0 < available dto limit := by
  have hshort : (allocated limit < master.minimumLimit ∨ available dto limit ≤ 0) ↔
      ¬(master.minimumLimit ≤ allocated limit ∧ 0 < available dto limit) := by
    rw [not_and_or, not_le, not_lt]
  rw [← not_iff_comm.mp hshort.symm]
  unfold verdictAt Review.finalDecision
  change _ ↔ ¬(max 0 (min master.maximumLimit (money (some limit))) < master.minimumLimit ∨
    max 0 (money (some (max 0 (min master.maximumLimit (money (some limit))) -
      dto.existingExposure - dto.pendingReservations))) ≤ 0)
  have hautomatic : master.autoApprovalEnabled = true := rfl
  have hdefault : Review.ofDefault master.defaultOutcome = .rejected := rfl
  dsimp only
  rw [hautomatic]
  split_ifs <;> simp_all

/-- A customer whose limit is not higher is not the only one who is offered. -/
theorem verdictAt_mono {left right : ℚ} {rightCodes : List String} (hle : left ≤ right)
    (hoffered :
      (verdictAt dto commercial left .processing reasonCodes).outcome ≠ .rejected) :
    (verdictAt dto commercial right .processing rightCodes).outcome ≠ .rejected := by
  rw [verdictAt_processing] at hoffered ⊢
  exact ⟨hoffered.1.trans (allocated_mono hle), hoffered.2.trans_le (available_mono dto hle)⟩

theorem verdictOf_some (act : Act) :
    verdictOf dto commercial inputs (some act) =
      verdictAt dto commercial (act.limit inputs.modelProposedLimit) act.outcome [act.reason] :=
  rfl

/-- The seeds of an offer share what all of them have. -/
theorem offer_mem {seeds : List Seed} {act : Act} (hoffer : offer seeds inputs = some act) :
    ∃ seed ∈ seeds, seed.act = act := by
  obtain ⟨seed, hfind, hact⟩ := Option.map_eq_some_iff.mp hoffer
  exact ⟨seed, List.mem_of_find?_eq_some hfind, hact⟩

/-- A knock-out or an offer decides, or the customer is rejected. -/
theorem offered_cases (inputs : DecisionInputs)
    (hoffered :
      (verdictOf dto commercial inputs (offer policy inputs)).outcome ≠ .rejected) :
    (∃ act, offer knockouts inputs = some act) ∨
      (offer knockouts inputs = none ∧ ∃ act, offer offers inputs = some act) := by
  rw [offer_policy] at hoffered
  cases hknockout : offer knockouts inputs with
  | some act => exact Or.inl ⟨act, rfl⟩
  | none =>
    cases hoffer : offer offers inputs with
    | some act => exact Or.inr ⟨rfl, act, rfl⟩
    | none =>
      refine absurd ?_ hoffered
      rw [hknockout, hoffer]
      show (verdictOf dto commercial inputs (offer refusals inputs)).outcome = .rejected
      cases hrefusal : offer refusals inputs with
      | some act =>
        obtain ⟨seed, hseed, rfl⟩ := offer_mem hrefusal
        have hrejects : ∀ seed ∈ refusals, seed.act.outcome = .rejected := by decide
        rw [verdictOf_some, hrejects seed hseed]
        exact verdictAt_rejected
      | none =>
        have hfails : (allocated 0 < master.minimumLimit) := by
          norm_num [allocated, master, money]
        by_contra hother
        exact absurd (verdictAt_processing.mp hother).1 (not_le.mpr hfails)

/-- A better customer is not rejected where another is not, and is allocated at least as much. -/
theorem verdictOf_mono (hbetter : Better first second)
    (hoffered :
      (verdictOf dto commercial first (offer policy first)).outcome ≠ .rejected) :
    (verdictOf dto commercial second (offer policy second)).outcome ≠ .rejected ∧
      (verdictOf dto commercial first (offer policy first)).allocatedLimit ≤
        (verdictOf dto commercial second (offer policy second)).allocatedLimit := by
  have hknockouts : offer knockouts first = offer knockouts second :=
    congrArg (Option.map Seed.act) (find?_knockouts hbetter)
  rcases offered_cases first hoffered with ⟨act, hknockout⟩ | ⟨hknockout, act, hoffer⟩
  · -- the same rule knocks both out, with a limit that no input sets
    have hfirst : offer policy first = some act := by rw [offer_policy, hknockout]; rfl
    have hsecond : offer policy second = some act := by
      rw [offer_policy, ← hknockouts, hknockout]
      rfl
    have hlimit : ∀ proposed, act.limit proposed = 0 := by
      obtain ⟨seed, hseed, rfl⟩ := offer_mem hknockout
      have hstops : ∀ seed ∈ knockouts, seed.act.outcome ≠ .processing := by decide
      intro proposed
      cases hact : seed.act with
      | reject | manualReview => rfl
      | fixed | scaled => exact absurd (by rw [hact]; rfl) (hstops seed hseed)
    rw [hfirst, hsecond, verdictOf_some, verdictOf_some, hlimit, hlimit]
    rw [hfirst, verdictOf_some, hlimit] at hoffered
    exact ⟨hoffered, le_rfl⟩
  · obtain ⟨better, hsecondOffer, hle⟩ := exists_offer hbetter hoffer
    have hopen : ∀ seed ∈ offers, seed.act.outcome = .processing := by decide
    have hfirst : offer policy first = some act := by rw [offer_policy, hknockout, hoffer]; rfl
    have hsecond : offer policy second = some better := by
      rw [offer_policy, ← hknockouts, hknockout, hsecondOffer]
      rfl
    obtain ⟨seed, hseed, rfl⟩ := offer_mem hoffer
    obtain ⟨higher, hhigher, rfl⟩ := offer_mem hsecondOffer
    rw [hfirst, hsecond, verdictOf_some, verdictOf_some, hopen seed hseed, hopen higher hhigher]
    rw [hfirst, verdictOf_some, hopen seed hseed] at hoffered
    exact ⟨verdictAt_mono hle hoffered, allocated_mono hle⟩

/-- The policy decides on every accepted input, and of two customers it does not reject the better
one where it does not reject the other, nor allocate less. -/
theorem policy_monotone (environment : Environment) (dto : Review.EvaluateCredit)
    (commercial : Bool) (firstScore secondScore : Value) (first second : DecisionInputs)
    (hjsonb : ∀ inputs : DecisionInputs, environment.jsonb inputs.toValue = true)
    (hbetter : Better first second) :
    ∃ worse better,
      decide? environment dto commercial firstScore first = some worse ∧
        decide? environment dto commercial secondScore second = some better ∧
        (worse.outcome ≠ .rejected →
          better.outcome ≠ .rejected ∧ worse.allocatedLimit ≤ better.allocatedLimit) :=
  ⟨_, _, decide?_eq dto commercial firstScore (hjsonb first),
    decide?_eq dto commercial secondScore (hjsonb second), verdictOf_mono hbetter⟩

/-- A customer without a bureau record. -/
def customer (grade : Grade) (months : ℚ≥0) : DecisionInputs where
  grade := grade
  channel := .app
  kycStatus := .verified
  bureauStatus := .noRecord
  ageYears := 30
  dominantCashFlow := 200000
  modelProposedLimit := 900000
  telecomTenureMonths := months
  currentDpd := 0
  count30PlusDpd6Months := 0
  maxDpd6Months := 0
  maxDpd12Months := 0
  currentOpenLoans := 0
  dpd30Days := 0
  dpd60Days := 0
  dpd90Days := 0
  churnBand := 1
  churnBand_le := show (1 : ℚ) ≤ 10 by norm_num
  dormantAfterAllocation := false
  schoolAggregatorTermPaid := false

/-- A customer of grade D with twenty months of tenure against one of grade E with eight. -/
theorem policy_monotone_tenure :
    ∃ worse better,
      decide? { language := plain, outside := fun _ => none, jsonb := fun _ => true }
          { productId := "UGA_RETAIL_CREDIT", requestedAmount := 500000
            decisionInputs := { grade := "E", channel := "APP", countryCode := "UGA" } }
          true .null (customer .e 8) = some worse ∧
        decide? { language := plain, outside := fun _ => none, jsonb := fun _ => true }
          { productId := "UGA_RETAIL_CREDIT", requestedAmount := 500000
            decisionInputs := { grade := "E", channel := "APP", countryCode := "UGA" } }
          true .null (customer .d 20) = some better ∧
        (worse.outcome ≠ .rejected →
          better.outcome ≠ .rejected ∧ worse.allocatedLimit ≤ better.allocatedLimit) :=
  policy_monotone _ _ _ _ _ _ _ (fun _ => rfl)
    { grade := by decide
      cashFlow := le_rfl
      tenure := show (8 : ℚ) ≤ 20 by norm_num
      proposed := le_rfl
      same := rfl }

end Finify.Credit.Uganda
