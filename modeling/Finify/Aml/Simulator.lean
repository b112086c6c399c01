/-
# `simulateAmlConfiguration`

The configuration service decides over limits and usage that it is given, the procedure over the
rows of a wallet.  Both report the first of the same five limits that is exceeded.  Amounts are
decimals here, as the service means them.
-/

import Finify.Aml.Procedures

namespace Finify.Aml

open Finify.Foundations Finify.Posting

/-! ## The service -/

/-- `SimulateAmlConfigurationDto`, with its defaults. -/
structure SimulateAml where
  walletCode : ℤ
  keyword : String
  maxTransactionAmount : ℚ
  dailyMaxAmount : ℚ
  dailyTransactionCount : ℚ
  monthlyMaxAmount : ℚ
  monthlyTransactionCount : ℚ
  transactionAmount : ℚ
  dailyAmountUsed : ℚ := 0
  dailyTransactionUsed : ℚ := 0
  monthlyAmountUsed : ℚ := 0
  monthlyTransactionUsed : ℚ := 0

/-- `assertAmlLimits` of numbers that are there. -/
def SimulateAml.assertAmlLimits (dto : SimulateAml) : Except String Unit :=
  if dto.maxTransactionAmount > dto.dailyMaxAmount then
    .error "Maximum transaction amount cannot exceed the daily maximum amount"
  else if dto.dailyMaxAmount > dto.monthlyMaxAmount then
    .error "Daily maximum amount cannot exceed the monthly maximum amount"
  else if dto.dailyTransactionCount > dto.monthlyTransactionCount then
    .error "Daily transaction count cannot exceed the monthly transaction count"
  else .ok ()

/-- `Number(value.toFixed(2))`. -/
def toFixed2 (value : ℚ) : ℚ := ⌊value * 100 + 1 / 2⌋ / 100

/-- What `simulateAmlConfiguration` reports of one limit. -/
structure SimulatedCheck where
  code : String
  label : String
  used : ℚ
  limit : ℚ
  statusCode : String
  statusMessage : String
  deriving DecidableEq

/-- `passed`. -/
def SimulatedCheck.passed (check : SimulatedCheck) : Bool := check.used ≤ check.limit

/-- `remaining`. -/
def SimulatedCheck.remaining (check : SimulatedCheck) : ℚ :=
  toFixed2 (max 0 (check.limit - check.used))

/-- The checks, in their order. -/
def SimulateAml.checks (dto : SimulateAml) : List SimulatedCheck :=
  [{ code := "MAX_TRANSACTION", label := "Maximum transaction amount"
     used := dto.transactionAmount, limit := dto.maxTransactionAmount
     statusCode := "AML_MAX_TRANSACTION_EXCEEDED"
     statusMessage := "Maximum transaction amount exceeded" },
    { code := "DAILY_AMOUNT", label := "Daily AML amount limit"
      used := toFixed2 (dto.dailyAmountUsed + dto.transactionAmount), limit := dto.dailyMaxAmount
      statusCode := "AML_DAILY_AMOUNT_EXCEEDED"
      statusMessage := "Daily AML amount limit exceeded" },
    { code := "DAILY_COUNT", label := "Daily AML transaction count"
      used := dto.dailyTransactionUsed + 1, limit := dto.dailyTransactionCount
      statusCode := "AML_DAILY_COUNT_EXCEEDED"
      statusMessage := "Daily AML transaction count exceeded" },
    { code := "MONTHLY_AMOUNT", label := "Monthly AML amount limit"
      used := toFixed2 (dto.monthlyAmountUsed + dto.transactionAmount)
      limit := dto.monthlyMaxAmount
      statusCode := "AML_MONTHLY_AMOUNT_EXCEEDED"
      statusMessage := "Monthly AML amount limit exceeded" },
    { code := "MONTHLY_COUNT", label := "Monthly AML transaction count"
      used := dto.monthlyTransactionUsed + 1, limit := dto.monthlyTransactionCount
      statusCode := "AML_MONTHLY_COUNT_EXCEEDED"
      statusMessage := "Monthly AML transaction count exceeded" }]

/-- What `simulateAmlConfiguration` returns. -/
structure Simulation where
  success : Bool
  decision : String
  statusCode : String
  statusMessage : String
  checks : List SimulatedCheck

/-- The wallet codes and the keywords that there are. -/
structure References where
  walletCodes : List ℤ
  keywords : List String

/-- `simulateAmlConfiguration`; the keyword is trimmed and in upper case. -/
def simulateAmlConfiguration (references : References) (dto : SimulateAml) :
    Except String Simulation :=
  if dto.walletCode ∉ references.walletCodes then .error "Wallet code not found"
  else if dto.keyword ∉ references.keywords then .error "Keyword not found"
  else do
    dto.assertAmlLimits
    match dto.checks.find? fun check => !check.passed with
    | some failed =>
      .ok
        { success := false, decision := "BLOCK", statusCode := failed.statusCode
          statusMessage := failed.statusMessage, checks := dto.checks }
    | none =>
      .ok
        { success := true, decision := "PASS", statusCode := "AML_LIMITS_PASSED"
          statusMessage := "AML limits passed; simulation did not reserve capacity"
          checks := dto.checks }

/-- `status_code` as the procedure spells it. -/
def ReserveCode.text : ReserveCode → String
  | invalidRequest => "INVALID_REQUEST"
  | invalidAmount => "INVALID_AMOUNT"
  | transactionConflict => "TRANSACTION_CONFLICT"
  | alreadyReserved => "ALREADY_RESERVED"
  | alreadyCompleted => "ALREADY_COMPLETED"
  | transactionClosed => "TRANSACTION_CLOSED"
  | sourceWalletNotFound => "SOURCE_WALLET_NOT_FOUND"
  | amlConfigurationNotFound => "AML_CONFIGURATION_NOT_FOUND"
  | amlMaxTransactionExceeded => "AML_MAX_TRANSACTION_EXCEEDED"
  | amlDailyAmountExceeded => "AML_DAILY_AMOUNT_EXCEEDED"
  | amlDailyCountExceeded => "AML_DAILY_COUNT_EXCEEDED"
  | amlMonthlyAmountExceeded => "AML_MONTHLY_AMOUNT_EXCEEDED"
  | amlMonthlyCountExceeded => "AML_MONTHLY_COUNT_EXCEEDED"
  | reserved => "RESERVED"

/-! ## The same decision -/

/-- The question whether a wallet with these limits and this usage may send an amount, which is in
hundredths. -/
def Limits.simulation (limits : Limits) (walletCode : ℤ) (keyword : String) (used : Usage)
    (amount : ℤ) : SimulateAml where
  walletCode := walletCode
  keyword := keyword
  maxTransactionAmount := limits.maxTxnAmount
  dailyMaxAmount := limits.dailyMaxAmount
  dailyTransactionCount := limits.dailyTransactionCount
  monthlyMaxAmount := limits.monthlyMaxAmount
  monthlyTransactionCount := limits.monthlyTransactionCount
  transactionAmount := amount / 100
  dailyAmountUsed := (used .daily).1 / 100
  dailyTransactionUsed := (used .daily).2
  monthlyAmountUsed := (used .monthly).1 / 100
  monthlyTransactionUsed := (used .monthly).2

/-- The first limit that a transaction exceeds, whichever it is. -/
def Limits.blocks (limits : Limits) (used : Usage) (amount : ℤ) : Option (ReserveCode × String) :=
  if limits.maxTxnAmount < amount / 100 then
    some (.amlMaxTransactionExceeded, "Maximum transaction amount exceeded")
  else limits.exceeded? (some (used + fun _ => (amount, 1)))

theorem toFixed2_cents (first second : ℤ) :
    toFixed2 (first / 100 + second / 100) = ((first + second : ℤ) : ℚ) / 100 := by
  unfold toFixed2
  have hcents : ((first : ℚ) / 100 + second / 100) * 100 + 1 / 2 =
      ((first + second : ℤ) : ℚ) + 1 / 2 := by
    push_cast
    ring
  have hhalf : ⌊(1 / 2 : ℚ)⌋ = 0 := by norm_num
  rw [hcents, Int.floor_intCast_add, hhalf, add_zero]

theorem roundHalfAway_cents (amount : ℤ) : roundHalfAway ((amount : ℚ) / 100 * 100) = amount := by
  rw [div_mul_cancel₀ _ (by norm_num), roundHalfAway_intCast]

/-- Limits of a configuration are accepted. -/
theorem assertAmlLimits_simulation (limits : Limits) (walletCode : ℤ) (keyword : String)
    (used : Usage) (amount : ℤ) :
    (limits.simulation walletCode keyword used amount).assertAmlLimits = .ok () := by
  obtain ⟨hdaily, hmonthly⟩ := limits.amounts_ordered
  unfold SimulateAml.assertAmlLimits Limits.simulation
  rw [if_neg (not_lt.mpr hdaily), if_neg (not_lt.mpr hmonthly),
    if_neg (not_lt.mpr limits.counts_ordered)]

/-- The simulator blocks by the first limit that is exceeded. -/
theorem find?_checks (limits : Limits) (walletCode : ℤ) (keyword : String) (used : Usage)
    (amount : ℤ) :
    ((limits.simulation walletCode keyword used amount).checks.find? fun check =>
        !check.passed).map (fun failed => (failed.statusCode, failed.statusMessage)) =
      (limits.blocks used amount).map fun block => (block.1.text, block.2) := by
  have hfails : ∀ check : SimulatedCheck, (!check.passed) = decide (check.limit < check.used) := by
    intro check
    rw [SimulatedCheck.passed, ← decide_not, decide_eq_decide, not_le]
  have hcount : ∀ count : ℤ, ((count + 1 : ℤ) : ℚ) = count + 1 := fun count => by push_cast; rfl
  unfold Limits.blocks Limits.exceeded? SimulateAml.checks Limits.simulation
  simp only [List.find?_cons, hfails, toFixed2_cents, Option.any_some, Pi.add_apply, Prod.fst_add,
    Prod.snd_add, hcount, decide_eq_true_eq]
  by_cases hsingle : limits.maxTxnAmount < (amount : ℚ) / 100
  · simp only [hsingle, decide_true, if_true]
    rfl
  by_cases hdaily : limits.dailyMaxAmount < (((used .daily).1 + amount : ℤ) : ℚ) / 100
  · simp only [hsingle, hdaily, decide_true, decide_false, if_true, if_false]
    rfl
  by_cases hdailyCount : limits.dailyTransactionCount < ((used .daily).2 : ℚ) + 1
  · simp only [hsingle, hdaily, hdailyCount, decide_true, decide_false, if_true, if_false]
    rfl
  by_cases hmonthly : limits.monthlyMaxAmount < (((used .monthly).1 + amount : ℤ) : ℚ) / 100
  · simp only [hsingle, hdaily, hdailyCount, hmonthly, decide_true, decide_false, if_true, if_false]
    rfl
  by_cases hmonthlyCount : limits.monthlyTransactionCount < ((used .monthly).2 : ℚ) + 1
  · simp only [hsingle, hdaily, hdailyCount, hmonthly, hmonthlyCount, decide_true, decide_false,
      if_true, if_false]
    rfl
  · simp only [hsingle, hdaily, hdailyCount, hmonthly, hmonthlyCount, decide_false, if_false]
    rfl

/-- What the procedure answers to a wallet with a summary row. -/
theorem amlReserve_eq {db : Db} {now : Stamp} {transactionId wallet walletCode : ℤ}
    {keyword : String} {limits : Limits} {summary : Usage} {amount : ℤ} (hamount : 0 < amount)
    (hfresh : db.reservations.find? transactionId = none)
    (hwallet : db.walletCode wallet = some walletCode)
    (hlimits : db.limits walletCode keyword = some limits)
    (hsummary : db.summaryUsage (wallet, keyword) now = some summary) :
    (∀ block ∈ limits.blocks (summary + db.pendingUsage (wallet, keyword) now) amount,
      ∃ result, db.amlReserve now
          { transactionId := some transactionId, walletMsisdn := some wallet
            keyword := some keyword, amount := some (((amount : ℚ) / 100 : ℚ) : Numeric) } =
          some (result, db) ∧ result.statusCode = block.1 ∧ result.statusMessage = block.2) ∧
    (limits.blocks (summary + db.pendingUsage (wallet, keyword) now) amount = none →
      ∃ admission : Admission, admission.amount = amount ∧
        admission.transactionId = transactionId ∧ db.amlReserve now
            { transactionId := some transactionId, walletMsisdn := some wallet
              keyword := some keyword, amount := some (((amount : ℚ) / 100 : ℚ) : Numeric) } =
          (db.insertReservation now admission).map fun after => (admission.result, after)) := by
  have hpos : ¬ (((amount : ℚ) / 100 : ℚ) : Numeric) ≤ 0 := by
    have hrational : (0 : ℚ) < (amount : ℚ) / 100 := by
      have : (0 : ℚ) < amount := by exact_mod_cast hamount
      linarith
    rw [not_le]
    exact_mod_cast hrational
  have hused : db.usedWith (wallet, keyword) now amount =
      some (summary + db.pendingUsage (wallet, keyword) now + fun _ => (amount, 1)) := by
    unfold Db.usedWith
    rw [hsummary]
    rfl
  unfold Db.amlReserve Db.admission
  dsimp only
  rw [if_neg hpos, hfresh]
  dsimp only
  unfold Db.checkLimits Limits.blocks Limits.single?
  rw [hwallet]
  dsimp only
  rw [hlimits]
  dsimp only
  by_cases hsingle : limits.maxTxnAmount < (amount : ℚ) / 100
  · rw [if_pos hsingle, if_neg (not_le.mpr hsingle)]
    constructor
    · intro block hblock
      cases hblock
      exact ⟨_, rfl, rfl, rfl⟩
    · intro hnone
      cases hnone
  · rw [if_neg hsingle, if_pos (not_lt.mp hsingle)]
    dsimp only
    rw [roundHalfAway_cents, hused]
    cases limits.exceeded? (some
        (summary + db.pendingUsage (wallet, keyword) now + fun _ => (amount, 1))) with
    | some block =>
      constructor
      · intro other hother
        cases hother
        exact ⟨_, rfl, rfl, rfl⟩
      · intro hnone
        cases hnone
    | none =>
      constructor
      · intro other hother
        cases hother
      · intro _
        exact ⟨_, rfl, rfl, rfl⟩

theorem blocks_ne_reserved {limits : Limits} {used : Usage} {amount : ℤ}
    {block : ReserveCode × String} (hblocks : limits.blocks used amount = some block) :
    block.1 ≠ .reserved := by
  unfold Limits.blocks Limits.exceeded? at hblocks
  split_ifs at hblocks <;> cases hblocks <;> decide

/-- For every configuration and every usage of a wallet with a summary row the simulation of an
amount that fits its column passes exactly if the procedure reserves it, and otherwise both report
the same. -/
theorem simulation_predicts_reservation (references : References) (db : Db) (now : Stamp)
    (transactionId wallet walletCode : ℤ) (keyword : String) (limits : Limits)
    (summary used : Usage) (amount : ℤ) (hamount : 0 < amount) (hfits : amount < 10 ^ 20)
    (hcode : walletCode ∈ references.walletCodes) (hkeyword : keyword ∈ references.keywords)
    (hfresh : db.reservations.find? transactionId = none)
    (hwallet : db.walletCode wallet = some walletCode)
    (hlimits : db.limits walletCode keyword = some limits)
    (hsummary : db.summaryUsage (wallet, keyword) now = some summary)
    (hused : summary + db.pendingUsage (wallet, keyword) now = used) :
    ∃ simulation result after,
      simulateAmlConfiguration references (limits.simulation walletCode keyword used amount) =
          .ok simulation ∧
        db.amlReserve now
            { transactionId := some transactionId, walletMsisdn := some wallet
              keyword := some keyword, amount := some (((amount : ℚ) / 100 : ℚ) : Numeric) } =
          some (result, after) ∧
        (simulation.decision = "PASS" ↔ result.statusCode = .reserved) ∧
        (simulation.decision ≠ "PASS" →
          simulation.statusCode = result.statusCode.text ∧
            simulation.statusMessage = result.statusMessage) := by
  have hchecks := find?_checks limits walletCode keyword used amount
  obtain ⟨hblocked, hopen⟩ := amlReserve_eq hamount hfresh hwallet hlimits hsummary
  rw [hused] at hblocked hopen
  have hcode' : ¬ (limits.simulation walletCode keyword used amount).walletCode ∉
      references.walletCodes := not_not.mpr hcode
  have hkeyword' : ¬ (limits.simulation walletCode keyword used amount).keyword ∉
      references.keywords := not_not.mpr hkeyword
  unfold simulateAmlConfiguration
  rw [if_neg hcode', if_neg hkeyword', assertAmlLimits_simulation]
  cases hblocks : limits.blocks used amount with
  | some block =>
    obtain ⟨result, hreserve, hstatus, hmessage⟩ := hblocked block hblocks
    rw [hblocks] at hchecks
    obtain ⟨failed, hfailed, hsame⟩ := Option.map_eq_some_iff.mp hchecks
    obtain ⟨hcodes, hmessages⟩ := Prod.mk.inj hsame
    have hrefused : result.statusCode ≠ .reserved := by
      rw [hstatus]
      exact blocks_ne_reserved hblocks
    refine ⟨_, result, db, by rw [hfailed]; rfl, hreserve, ?_, ?_⟩
    · have hblock : "BLOCK" ≠ "PASS" := by decide
      exact iff_of_false hblock hrefused
    · intro _
      exact ⟨hcodes.trans (congrArg ReserveCode.text hstatus).symm, hmessages.trans hmessage.symm⟩
  | none =>
    obtain ⟨admission, hcents, hid, hreserve⟩ := hopen hblocks
    rw [hblocks] at hchecks
    have hnone := Option.map_eq_none_iff.mp hchecks
    obtain ⟨after, hinsert⟩ : ∃ after, db.insertReservation now admission = some after := by
      unfold Db.insertReservation
      rw [dif_pos (by rw [hcents]; exact ⟨hamount, hfits⟩)]
      refine (Table.insert?_of_fresh ?_).elim fun reservations hinserted =>
        ⟨_, congrArg (Option.map _) hinserted⟩
      exact hid.symm ▸ hfresh
    refine ⟨_, admission.result, after, by rw [hnone]; rfl, ?_, ?_, ?_⟩
    · rw [hreserve, hinsert]
      rfl
    · exact iff_of_true rfl rfl
    · intro hblock
      exact absurd rfl hblock

theorem five_le_fifty : (5 : ℚ) ≤ 50 := by norm_num

/-- A wallet with a summary row of the day and limits of a size. -/
def summaryDb (limit : ℚ) (hlimit : 0 < limit) : Db where
  reservations := .empty
  summaries :=
    .single { walletMsisdn := 17, keyword := "PAY", lastUpdateDate := some (Stamp.of 2026 1 5 8) }
  walletCode := fun wallet => if wallet = 17 then some 1 else none
  limits := fun walletCode keyword =>
    if walletCode = 1 ∧ keyword = "PAY" then some
      { maxTxnAmount := limit, dailyMaxAmount := limit, dailyTransactionCount := 5
        monthlyMaxAmount := limit, monthlyTransactionCount := 50
        positive := ⟨hlimit, by norm_num⟩
        amounts_ordered := ⟨le_rfl, le_rfl⟩
        counts_ordered := five_le_fifty }
    else none

/-- What the service knows of wallets and keywords. -/
def seeded : References where
  walletCodes := [1]
  keywords := ["PAY"]

/-- An amount that its column does not hold passes the simulation and is not reserved. -/
theorem simulation_of_wide_amount :
    (simulateAmlConfiguration seeded
        { walletCode := 1, keyword := "PAY", maxTransactionAmount := 10 ^ 18
          dailyMaxAmount := 10 ^ 18, dailyTransactionCount := 5, monthlyMaxAmount := 10 ^ 18
          monthlyTransactionCount := 50, transactionAmount := 10 ^ 18 }).toOption.any
        (fun simulation => simulation.decision = "PASS") = true ∧
      ((summaryDb (10 ^ 18) (by decide)).summaryUsage (17, "PAY") (Stamp.of 2026 1 5 9)).isSome ∧
      ((summaryDb (10 ^ 18) (by decide)).amlReserve (Stamp.of 2026 1 5 9)
        { transactionId := some 1, walletMsisdn := some 17, keyword := some "PAY"
          amount := some ((10 ^ 18 : ℚ) : Numeric) }).isNone = true := by
  decide +kernel

/-- The simulation of a payment of 60.00 on a day without payments. -/
theorem simulation_predicts_payment :
    ∃ simulation result after,
      simulateAmlConfiguration seeded
          (Limits.simulation
            { maxTxnAmount := 100, dailyMaxAmount := 100, dailyTransactionCount := 5
              monthlyMaxAmount := 100, monthlyTransactionCount := 50
              positive := by decide, amounts_ordered := by decide
              counts_ordered := by decide } 1 "PAY" 0 6000) = .ok simulation ∧
        (summaryDb 100 (by decide)).amlReserve (Stamp.of 2026 1 5 9)
            { transactionId := some 1, walletMsisdn := some 17, keyword := some "PAY"
              amount := some ((((6000 : ℤ) : ℚ) / 100 : ℚ) : Numeric) } = some (result, after) ∧
        (simulation.decision = "PASS" ↔ result.statusCode = .reserved) ∧
        (simulation.decision ≠ "PASS" →
          simulation.statusCode = result.statusCode.text ∧
            simulation.statusMessage = result.statusMessage) :=
  simulation_predicts_reservation seeded (summaryDb 100 (by norm_num)) (Stamp.of 2026 1 5 9) 1 17 1
    "PAY" _ 0 0 6000 (by norm_num) (by norm_num) (by decide) (by decide) rfl rfl rfl
    (congrArg some (funext fun period => by cases period <;> decide))
    (funext fun period => by cases period <;> rfl)

end Finify.Aml
