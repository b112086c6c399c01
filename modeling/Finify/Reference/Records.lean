/-
# Reference records

Keywords, wallet types and AML configurations: the JSON that a change request
carries, the payload that it is made of, and the row that it is stored in.  A
snapshot reads a row back through a column list of its own, with `COALESCE` for
some flags and a cast for counts.  Keys come trimmed and in capitals; texts of
`char(1)` columns are kept without the blank that pads them, the minimum amount
of a keyword as a number of hundredths.
-/

import Mathlib.Tactic.Linarith

namespace Finify.Reference

/-- A field of a request body: absent, `null`, or a value. -/
abbrev Field (α : Type) := Option (Option α)

def isSmallint (n : ℤ) : Bool := decide (-32768 ≤ n ∧ n ≤ 32767)

def isInteger (n : ℤ) : Bool := decide (-2147483648 ≤ n ∧ n ≤ 2147483647)

/-- Whether a text fits a column of type `char(1)`. -/
def isLetter (text : String) : Bool := decide (text.length ≤ 1)

/-! ## Keywords -/

/-- The snapshot of a keyword. -/
structure Keyword where
  keyword : String
  keywordDescription : Option String
  keywordScope : Option String
  isFinancial : Option Bool
  chargeable : Option String
  kcIdLookup : Option String
  commissionable : Option String
  kcmIdLookup : Option String
  minimumTranAmount : Option ℤ
  involvedParty : Option String
  applyTds : Option Bool
  isRewardApplicable : Option Bool
  isSystemKeyword : Option Bool
  serviceStatus : Option Bool
  vatSource : Option String
  vatId : Option ℤ
  keywordDescriptionLocal : Option String
  isCategoryService : Option Bool
  priority : Option ℤ
  reverseKeyword : Option String
  isActive : Option Bool
  deriving DecidableEq

/-- The body of a request for a keyword. -/
structure KeywordDto where
  keywordDescription : Field String := none
  keywordScope : Field String := none
  isFinancial : Field Bool := none
  chargeable : Field String := none
  kcIdLookup : Field String := none
  commissionable : Field String := none
  kcmIdLookup : Field String := none
  minimumTranAmount : Field ℤ := none
  involvedParty : Field String := none
  applyTds : Field Bool := none
  isRewardApplicable : Field Bool := none
  isSystemKeyword : Field Bool := none
  serviceStatus : Field Bool := none
  vatSource : Field String := none
  vatId : Field ℤ := none
  keywordDescriptionLocal : Field String := none
  isCategoryService : Field Bool := none
  priority : Field ℤ := none
  reverseKeyword : Field String := none
  isActive : Field Bool := none
  deriving DecidableEq

/-- `{ ...current, ...keywordPayload(dto), keyword }`. -/
def KeywordDto.over (dto : KeywordDto) (current : Keyword) : Keyword where
  keyword := current.keyword
  keywordDescription := dto.keywordDescription.getD current.keywordDescription
  keywordScope := dto.keywordScope.getD current.keywordScope
  isFinancial := dto.isFinancial.getD current.isFinancial
  chargeable := dto.chargeable.getD current.chargeable
  kcIdLookup := dto.kcIdLookup.getD current.kcIdLookup
  commissionable := dto.commissionable.getD current.commissionable
  kcmIdLookup := dto.kcmIdLookup.getD current.kcmIdLookup
  minimumTranAmount := dto.minimumTranAmount.getD current.minimumTranAmount
  involvedParty := dto.involvedParty.getD current.involvedParty
  applyTds := dto.applyTds.getD current.applyTds
  isRewardApplicable := dto.isRewardApplicable.getD current.isRewardApplicable
  isSystemKeyword := dto.isSystemKeyword.getD current.isSystemKeyword
  serviceStatus := dto.serviceStatus.getD current.serviceStatus
  vatSource := dto.vatSource.getD current.vatSource
  vatId := dto.vatId.getD current.vatId
  keywordDescriptionLocal := dto.keywordDescriptionLocal.getD current.keywordDescriptionLocal
  isCategoryService := dto.isCategoryService.getD current.isCategoryService
  priority := dto.priority.getD current.priority
  reverseKeyword := dto.reverseKeyword.getD current.reverseKeyword
  isActive := dto.isActive.getD current.isActive

def keywordDefaults (keyword : String) : Keyword where
  keyword := keyword
  keywordDescription := none
  keywordScope := none
  isFinancial := some true
  chargeable := some "N"
  kcIdLookup := none
  commissionable := some "N"
  kcmIdLookup := none
  minimumTranAmount := some 100
  involvedParty := none
  applyTds := some false
  isRewardApplicable := some false
  isSystemKeyword := some false
  serviceStatus := some true
  vatSource := some "D"
  vatId := some 1
  keywordDescriptionLocal := none
  isCategoryService := some false
  priority := none
  reverseKeyword := none
  isActive := some false

/-- A row of `SW_TBL_KEYWORD`. -/
structure KeywordRow where
  keyword : String
  keywordDescription : Option String
  keywordScope : Option String
  isFinancial : Option Bool
  chargeable : Option String
  kcIdLookup : Option String
  commissionable : Option String
  kcmIdLookup : Option String
  minimumTranAmount : ℤ
  involvedParty : Option String
  applyTds : Option Bool
  isRewardApplicable : Bool
  isSystemKeyword : Bool
  serviceStatus : Bool
  vatSource : String
  vatId : ℤ
  keywordDescriptionLocal : Option String
  isCategoryService : Bool
  priority : Option ℤ
  reverseKeyword : Option String
  isActive : Bool
  deriving DecidableEq

/-- `keywordSnapshot`. -/
def KeywordRow.snapshot (row : KeywordRow) : Keyword where
  keyword := row.keyword
  keywordDescription := row.keywordDescription
  keywordScope := row.keywordScope
  isFinancial := some (row.isFinancial.getD false)
  chargeable := row.chargeable
  kcIdLookup := row.kcIdLookup
  commissionable := row.commissionable
  kcmIdLookup := row.kcmIdLookup
  minimumTranAmount := some row.minimumTranAmount
  involvedParty := row.involvedParty
  applyTds := some (row.applyTds.getD false)
  isRewardApplicable := some row.isRewardApplicable
  isSystemKeyword := some row.isSystemKeyword
  serviceStatus := some row.serviceStatus
  vatSource := some row.vatSource
  vatId := some row.vatId
  keywordDescriptionLocal := row.keywordDescriptionLocal
  isCategoryService := some row.isCategoryService
  priority := row.priority
  reverseKeyword := row.reverseKeyword
  isActive := some row.isActive

/-- `applyKeyword`: the row that a proposal leaves, if its columns admit it. -/
def Keyword.apply (value : Keyword) : Option KeywordRow := do
  let minimumTranAmount ← value.minimumTranAmount
  let isRewardApplicable ← value.isRewardApplicable
  let isSystemKeyword ← value.isSystemKeyword
  let serviceStatus ← value.serviceStatus
  let vatSource ← value.vatSource
  let vatId ← value.vatId
  let isCategoryService ← value.isCategoryService
  let isActive ← value.isActive
  if [value.keywordScope, value.chargeable, value.kcIdLookup, value.commissionable,
        value.kcmIdLookup, some vatSource].all (fun text => text.all isLetter) ∧
      |minimumTranAmount| < 10 ^ 12 ∧ isSmallint vatId ∧ value.priority.all isInteger then
    some {
      keyword := value.keyword
      keywordDescription := value.keywordDescription
      keywordScope := value.keywordScope
      isFinancial := value.isFinancial
      chargeable := value.chargeable
      kcIdLookup := value.kcIdLookup
      commissionable := value.commissionable
      kcmIdLookup := value.kcmIdLookup
      minimumTranAmount := minimumTranAmount
      involvedParty := value.involvedParty
      applyTds := value.applyTds
      isRewardApplicable := isRewardApplicable
      isSystemKeyword := isSystemKeyword
      serviceStatus := serviceStatus
      vatSource := vatSource
      vatId := vatId
      keywordDescriptionLocal := value.keywordDescriptionLocal
      isCategoryService := isCategoryService
      priority := value.priority
      reverseKeyword := value.reverseKeyword
      isActive := isActive }
  else none

/-! ## Wallet types -/

/-- The snapshot of a wallet type. -/
structure WalletType where
  walletId : ℤ
  walletName : Option String
  walletDetails : Option String
  isKycNeeded : Option Bool
  defaultCommissionId : Option ℤ
  defaultChargeId : Option ℤ
  walletType : Option ℤ
  isCharge : Option Bool
  fee : Option ℚ
  hierarchy : Option ℤ
  status : Option Bool
  walletNameLocal : Option String
  deriving DecidableEq

/-- The body of a request for a wallet type. -/
structure WalletTypeDto where
  walletName : Field String := none
  walletDetails : Field String := none
  isKycNeeded : Field Bool := none
  defaultCommissionId : Field ℤ := none
  defaultChargeId : Field ℤ := none
  walletType : Field ℤ := none
  isCharge : Field Bool := none
  fee : Field ℚ := none
  hierarchy : Field ℤ := none
  status : Field Bool := none
  walletNameLocal : Field String := none
  deriving DecidableEq

/-- `{ ...current, ...walletTypePayload(dto), walletId }`. -/
def WalletTypeDto.over (dto : WalletTypeDto) (current : WalletType) : WalletType where
  walletId := current.walletId
  walletName := dto.walletName.getD current.walletName
  walletDetails := dto.walletDetails.getD current.walletDetails
  isKycNeeded := dto.isKycNeeded.getD current.isKycNeeded
  defaultCommissionId := dto.defaultCommissionId.getD current.defaultCommissionId
  defaultChargeId := dto.defaultChargeId.getD current.defaultChargeId
  walletType := dto.walletType.getD current.walletType
  isCharge := dto.isCharge.getD current.isCharge
  fee := dto.fee.getD current.fee
  hierarchy := dto.hierarchy.getD current.hierarchy
  status := dto.status.getD current.status
  walletNameLocal := dto.walletNameLocal.getD current.walletNameLocal

def walletTypeDefaults (walletId : ℤ) : WalletType where
  walletId := walletId
  walletName := none
  walletDetails := none
  isKycNeeded := some false
  defaultCommissionId := some 1
  defaultChargeId := some 1
  walletType := some 100
  isCharge := some true
  fee := none
  hierarchy := none
  status := some false
  walletNameLocal := none

/-- A row of `SW_TBL_WALLET_TYPE`, whose columns but the key may all be `NULL`. -/
structure WalletTypeRow where
  stored : WalletType
  deriving DecidableEq

/-- `walletTypeSnapshot`. -/
def WalletTypeRow.snapshot (row : WalletTypeRow) : WalletType :=
  { row.stored with
    isKycNeeded := some (row.stored.isKycNeeded.getD false)
    isCharge := some (row.stored.isCharge.getD false)
    status := some (row.stored.status.getD false) }

/-- `applyWalletType`. -/
def WalletType.apply (value : WalletType) : Option WalletTypeRow :=
  if isInteger value.walletId ∧ value.defaultCommissionId.all isInteger ∧
      value.defaultChargeId.all isInteger ∧ value.walletType.all isSmallint ∧
      value.hierarchy.all isInteger then
    some ⟨value⟩
  else none

/-! ## AML configurations -/

/-- The snapshot of an AML configuration; what is proposed for a new one has no `rowId`. -/
structure Aml where
  rowId : Option ℕ
  walletCode : ℤ
  keyword : String
  maxTransactionAmount : Option ℚ
  dailyMaxAmount : Option ℚ
  dailyTransactionCount : Option ℤ
  monthlyMaxAmount : Option ℚ
  monthlyTransactionCount : Option ℤ
  isActive : Option Bool
  deriving DecidableEq

/-- The body of a request for a new AML configuration. -/
structure CreateAmlDto where
  maxTransactionAmount : ℚ
  dailyMaxAmount : ℚ
  dailyTransactionCount : ℤ
  monthlyMaxAmount : ℚ
  monthlyTransactionCount : ℤ
  isActive : Field Bool := none
  deriving DecidableEq

/-- `{ ...amlPayload(dto), walletCode, keyword, isActive: dto.isActive ?? true }`. -/
def CreateAmlDto.proposal (dto : CreateAmlDto) (walletCode : ℤ) (keyword : String) : Aml where
  rowId := none
  walletCode := walletCode
  keyword := keyword
  maxTransactionAmount := some dto.maxTransactionAmount
  dailyMaxAmount := some dto.dailyMaxAmount
  dailyTransactionCount := some dto.dailyTransactionCount
  monthlyMaxAmount := some dto.monthlyMaxAmount
  monthlyTransactionCount := some dto.monthlyTransactionCount
  isActive := some (dto.isActive.join.getD true)

/-- The body of a request for a change of an AML configuration. -/
structure AmlDto where
  maxTransactionAmount : Field ℚ := none
  dailyMaxAmount : Field ℚ := none
  dailyTransactionCount : Field ℤ := none
  monthlyMaxAmount : Field ℚ := none
  monthlyTransactionCount : Field ℤ := none
  isActive : Field Bool := none
  deriving DecidableEq

/-- `{ ...current, ...amlPayload(dto), walletCode, keyword }`. -/
def AmlDto.over (dto : AmlDto) (current : Aml) : Aml where
  rowId := current.rowId
  walletCode := current.walletCode
  keyword := current.keyword
  maxTransactionAmount := dto.maxTransactionAmount.getD current.maxTransactionAmount
  dailyMaxAmount := dto.dailyMaxAmount.getD current.dailyMaxAmount
  dailyTransactionCount := dto.dailyTransactionCount.getD current.dailyTransactionCount
  monthlyMaxAmount := dto.monthlyMaxAmount.getD current.monthlyMaxAmount
  monthlyTransactionCount := dto.monthlyTransactionCount.getD current.monthlyTransactionCount
  isActive := dto.isActive.getD current.isActive

/-- `assertAmlLimits`; `Number(null)` is zero. -/
def assertAmlLimits (value : Aml) : Except String Unit :=
  let maxTransaction := value.maxTransactionAmount.getD 0
  let dailyAmount := value.dailyMaxAmount.getD 0
  let monthlyAmount := value.monthlyMaxAmount.getD 0
  let dailyCount := value.dailyTransactionCount.getD 0
  let monthlyCount := value.monthlyTransactionCount.getD 0
  if maxTransaction > dailyAmount then
    .error "Maximum transaction amount cannot exceed the daily maximum amount"
  else if dailyAmount > monthlyAmount then
    .error "Daily maximum amount cannot exceed the monthly maximum amount"
  else if dailyCount > monthlyCount then
    .error "Daily transaction count cannot exceed the monthly transaction count"
  else .ok ()

/-- A row of `SW_TBL_AML`. -/
structure AmlRow where
  rowId : ℕ
  walletCode : ℤ
  keyword : String
  maxTransactionAmount : ℚ
  dailyMaxAmount : ℚ
  dailyTransactionCount : ℤ
  monthlyMaxAmount : ℚ
  monthlyTransactionCount : ℤ
  isActive : Bool
  deriving DecidableEq

/-- `CK_AML_POSITIVE_LIMITS`, `CK_AML_AMOUNT_ORDER` and `CK_AML_COUNT_ORDER`. -/
def AmlRow.isWithinLimits (row : AmlRow) : Bool :=
  decide ((0 < row.maxTransactionAmount ∧ 0 < row.dailyMaxAmount ∧ 0 < row.monthlyMaxAmount ∧
      0 < row.dailyTransactionCount ∧ 0 < row.monthlyTransactionCount) ∧
    (row.maxTransactionAmount ≤ row.dailyMaxAmount ∧ row.dailyMaxAmount ≤ row.monthlyMaxAmount) ∧
    row.dailyTransactionCount ≤ row.monthlyTransactionCount)

/-- `amlSnapshot`: the counts are cast to `int`. -/
def AmlRow.snapshot (row : AmlRow) : Option Aml :=
  if isInteger row.dailyTransactionCount ∧ isInteger row.monthlyTransactionCount then
    some {
      rowId := some row.rowId
      walletCode := row.walletCode
      keyword := row.keyword
      maxTransactionAmount := some row.maxTransactionAmount
      dailyMaxAmount := some row.dailyMaxAmount
      dailyTransactionCount := some row.dailyTransactionCount
      monthlyMaxAmount := some row.monthlyMaxAmount
      monthlyTransactionCount := some row.monthlyTransactionCount
      isActive := some row.isActive }
  else none

/-- `applyAmlConfiguration`, for the row of some number. -/
def Aml.apply (value : Aml) (rowId : ℕ) : Option AmlRow := do
  let maxTransactionAmount ← value.maxTransactionAmount
  let dailyMaxAmount ← value.dailyMaxAmount
  let dailyTransactionCount ← value.dailyTransactionCount
  let monthlyMaxAmount ← value.monthlyMaxAmount
  let monthlyTransactionCount ← value.monthlyTransactionCount
  let isActive ← value.isActive
  let row : AmlRow := {
    rowId := rowId
    walletCode := value.walletCode
    keyword := value.keyword
    maxTransactionAmount := maxTransactionAmount
    dailyMaxAmount := dailyMaxAmount
    dailyTransactionCount := dailyTransactionCount
    monthlyMaxAmount := monthlyMaxAmount
    monthlyTransactionCount := monthlyTransactionCount
    isActive := isActive }
  if isSmallint value.walletCode ∧ row.isWithinLimits then some row else none

/-! ## Records of any kind -/

/-- `resource_type` and `resource_key`. -/
inductive Key
  | keyword (keyword : String)
  | walletType (walletId : ℤ)
  | aml (walletCode : ℤ) (keyword : String)
  deriving DecidableEq

inductive Snapshot
  | keyword (value : Keyword)
  | walletType (value : WalletType)
  | aml (value : Aml)
  deriving DecidableEq

inductive Row
  | keyword (row : KeywordRow)
  | walletType (row : WalletTypeRow)
  | aml (row : AmlRow)
  deriving DecidableEq

def Snapshot.key : Snapshot → Key
  | keyword value => .keyword value.keyword
  | walletType value => .walletType value.walletId
  | aml value => .aml value.walletCode value.keyword

def Row.key : Row → Key
  | keyword row => .keyword row.keyword
  | walletType row => .walletType row.stored.walletId
  | aml row => .aml row.walletCode row.keyword

/-- `snapshot` of a row; it fails where a cast does. -/
def Row.snapshot : Row → Option Snapshot
  | keyword row => some (.keyword row.snapshot)
  | walletType row => some (.walletType row.snapshot)
  | aml row => row.snapshot.map .aml

/-- `apply`, for the row of some number. -/
def Snapshot.apply (rowId : ℕ) : Snapshot → Option Row
  | keyword value => value.apply.map .keyword
  | walletType value => value.apply.map .walletType
  | aml value => (value.apply rowId).map .aml

def Snapshot.rowId : Snapshot → Option ℕ
  | aml value => value.rowId
  | keyword _ | walletType _ => none

/-- A snapshot has the value that is proposed in every field of the proposal. -/
def Snapshot.Agrees (current proposed : Snapshot) : Prop :=
  match current, proposed with
  | keyword current, keyword proposed => current = proposed
  | walletType current, walletType proposed => current = proposed
  | aml current, aml proposed => { current with rowId := proposed.rowId } = proposed ∧
      (proposed.rowId.isSome → current.rowId = proposed.rowId)
  | _, _ => False

/-- What can be stored can be read back: flags that are read through `COALESCE` are given, and
counts fit an `int`. -/
def Snapshot.Readable : Snapshot → Prop
  | keyword value => value.isFinancial.isSome ∧ value.applyTds.isSome
  | walletType value => value.isKycNeeded.isSome ∧ value.isCharge.isSome ∧ value.status.isSome
  | aml value =>
    value.dailyTransactionCount.all isInteger ∧ value.monthlyTransactionCount.all isInteger

/-! ## What is stored is read back -/

/-- `COALESCE` leaves the flags as they are that are not `NULL`. -/
theorem coalesce_eq_iff (flag : Option Bool) : some (flag.getD false) = flag ↔ flag.isSome := by
  cases flag <;> simp

/-- A keyword reads back as it was proposed exactly if its nullable flags were given. -/
theorem Keyword.snapshot_apply {value : Keyword} {row : KeywordRow}
    (happly : value.apply = some row) :
    row.snapshot = value ↔ value.isFinancial.isSome ∧ value.applyTds.isSome := by
  simp only [Keyword.apply, Option.bind_eq_bind, Option.bind_eq_some_iff,
    Option.ite_none_right_eq_some] at happly
  obtain ⟨_, hminimum, _, hreward, _, hsystem, _, hservice, _, hvatSource, _, hvatId, _, hcategory,
    _, hactive, _, hrow⟩ := happly
  obtain rfl := Option.some.inj hrow
  cases value
  simp only at hminimum hreward hsystem hservice hvatSource hvatId hcategory hactive
  subst hminimum hreward hsystem hservice hvatSource hvatId hcategory hactive
  simp only [KeywordRow.snapshot, Keyword.mk.injEq, true_and, and_true, coalesce_eq_iff]

theorem Keyword.apply_keyword {value : Keyword} {row : KeywordRow}
    (happly : value.apply = some row) : row.keyword = value.keyword := by
  simp only [Keyword.apply, Option.bind_eq_bind, Option.bind_eq_some_iff,
    Option.ite_none_right_eq_some] at happly
  obtain ⟨_, _, _, _, _, _, _, _, _, _, _, _, _, _, _, _, _, hrow⟩ := happly
  exact (Option.some.inj hrow) ▸ rfl

/-- A wallet type reads back as it was proposed exactly if its flags were given. -/
theorem WalletType.snapshot_apply {value : WalletType} {row : WalletTypeRow}
    (happly : value.apply = some row) :
    row.snapshot = value ↔
      value.isKycNeeded.isSome ∧ value.isCharge.isSome ∧ value.status.isSome := by
  obtain ⟨_, hrow⟩ := Option.ite_none_right_eq_some.mp happly
  obtain rfl := Option.some.inj hrow
  cases value
  simp only [WalletTypeRow.snapshot, WalletType.mk.injEq, true_and, and_true, coalesce_eq_iff]

theorem WalletType.apply_walletId {value : WalletType} {row : WalletTypeRow}
    (happly : value.apply = some row) : row.stored.walletId = value.walletId := by
  obtain ⟨_, hrow⟩ := Option.ite_none_right_eq_some.mp happly
  exact (Option.some.inj hrow) ▸ rfl

/-- What a stored AML configuration is made of. -/
theorem Aml.apply_eq_some {value : Aml} {rowId : ℕ} {row : AmlRow}
    (happly : value.apply rowId = some row) :
    row.isWithinLimits = true ∧ row.rowId = rowId ∧
      value = {
        rowId := value.rowId
        walletCode := row.walletCode
        keyword := row.keyword
        maxTransactionAmount := some row.maxTransactionAmount
        dailyMaxAmount := some row.dailyMaxAmount
        dailyTransactionCount := some row.dailyTransactionCount
        monthlyMaxAmount := some row.monthlyMaxAmount
        monthlyTransactionCount := some row.monthlyTransactionCount
        isActive := some row.isActive } := by
  simp only [Aml.apply, Option.bind_eq_bind, Option.bind_eq_some_iff,
    Option.ite_none_right_eq_some] at happly
  obtain ⟨_, hmax, _, hdaily, _, hdailyCount, _, hmonthly, _, hmonthlyCount, _, hactive, hlimits,
    hrow⟩ := happly
  obtain rfl := Option.some.inj hrow
  cases value
  simp only at hmax hdaily hdailyCount hmonthly hmonthlyCount hactive
  subst hmax hdaily hdailyCount hmonthly hmonthlyCount hactive
  exact ⟨hlimits.2, rfl, rfl⟩

theorem Snapshot.key_of_apply {proposed : Snapshot} {row : Row} {rowId : ℕ}
    (happly : proposed.apply rowId = some row) : row.key = proposed.key := by
  cases proposed with
  | keyword value =>
    obtain ⟨stored, hstored, rfl⟩ := Option.map_eq_some_iff.mp happly
    exact congrArg Key.keyword (Keyword.apply_keyword hstored)
  | walletType value =>
    obtain ⟨stored, hstored, rfl⟩ := Option.map_eq_some_iff.mp happly
    exact congrArg Key.walletType (WalletType.apply_walletId hstored)
  | aml value =>
    obtain ⟨stored, hstored, rfl⟩ := Option.map_eq_some_iff.mp happly
    obtain ⟨_, _, hvalue⟩ := Aml.apply_eq_some hstored
    rw [hvalue]
    rfl

/-- A stored record agrees with the proposal exactly if the proposal is readable. -/
theorem Snapshot.agrees_of_apply {proposed : Snapshot} {row : Row} {rowId : ℕ}
    (happly : proposed.apply rowId = some row) (hrowId : ∀ id ∈ proposed.rowId, id = rowId) :
    (∃ current, row.snapshot = some current ∧ current.Agrees proposed) ↔ proposed.Readable := by
  cases proposed with
  | keyword value =>
    obtain ⟨stored, hstored, rfl⟩ := Option.map_eq_some_iff.mp happly
    rw [Readable, ← Keyword.snapshot_apply hstored]
    constructor
    · rintro ⟨current, hread, hagrees⟩
      cases hread
      exact hagrees
    · exact fun hsame => ⟨_, rfl, hsame⟩
  | walletType value =>
    obtain ⟨stored, hstored, rfl⟩ := Option.map_eq_some_iff.mp happly
    rw [Readable, ← WalletType.snapshot_apply hstored]
    constructor
    · rintro ⟨current, hread, hagrees⟩
      cases hread
      exact hagrees
    · exact fun hsame => ⟨_, rfl, hsame⟩
  | aml value =>
    obtain ⟨stored, hstored, rfl⟩ := Option.map_eq_some_iff.mp happly
    obtain ⟨_, rfl, hvalue⟩ := Aml.apply_eq_some hstored
    have hcounts : (Snapshot.aml value).Readable ↔ isInteger stored.dailyTransactionCount = true ∧
        isInteger stored.monthlyTransactionCount = true := by
      rw [hvalue]
      rfl
    rw [hcounts]
    constructor
    · rintro ⟨current, hread, _⟩
      obtain ⟨found, hfound, _⟩ := Option.map_eq_some_iff.mp hread
      exact (Option.ite_none_right_eq_some.mp hfound).1
    · intro hintegers
      refine ⟨.aml _, congrArg (Option.map Snapshot.aml) (if_pos hintegers), ?_, ?_⟩
      · rw [hvalue]
      · intro hsome
        obtain ⟨id, hid⟩ := Option.isSome_iff_exists.mp hsome
        rw [hid, hrowId id hid]

end Finify.Reference
