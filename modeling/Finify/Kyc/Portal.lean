/-
# KYC on the portal

The portal asks in three places whether the KYC of a customer is complete: the dashboard looks at
the newest case, the journey at an open case before the others, and a payment at whether any case
is approved.  Cases created at one instant may come in either order.
-/

import Finify.Kyc.Accounts

namespace Finify.Kyc

open Finify.Foundations Finify.Wallets

/-- The journey shows a case of this status first. -/
def CaseStatus.Open (status : CaseStatus) : Prop :=
  status = .draft ∨ status = .resubmissionRequired ∨ status = .processing ∨
    status = .manualReview

instance (status : CaseStatus) : Decidable status.Open := inferInstanceAs (Decidable (_ ∨ _))

def Shown (row : Option Case) : Prop := row.any fun row => row.status = .approved

namespace Accounts

variable (accounts : Accounts) (owner : ℤ)

/-- `walletsFor` a customer. -/
def walletsFor : List Wallet :=
  accounts.directory.wallets.rows.filter fun wallet =>
    wallet.OwnedBy owner ∧ wallet.status ≠ .closed

def casesFor : List Case :=
  accounts.kyc.cases.rows.filter fun row => row.customerMsisdn = some owner

/-- `kycRequired` of the dashboard: without a wallet type, or an answer in it, none is needed. -/
def kycRequired : Bool :=
  (accounts.walletsFor owner).any fun wallet =>
    ((accounts.walletTypes wallet.walletCode).bind WalletType.isKycNeeded).getD false

/-- `required` of the journey and of a payment: a wallet is joined to its type. -/
def required : Bool :=
  (accounts.walletsFor owner).any fun wallet => accounts.kycNeeded wallet.walletCode

/-- `kycComplete` of the dashboard. -/
def kycComplete : Prop :=
  ¬ accounts.kycRequired owner ∨ Shown (latest Case.createdAt (accounts.casesFor owner))

/-- `kycCase` of the journey. -/
def kycCase : Option Case :=
  latest (fun row => toLex (if row.status.Open then 1 else 0, row.createdAt) : Case → ℕ ×ₗ ℤ)
    (accounts.casesFor owner)

/-- `complete` of the journey. -/
def complete : Prop := ¬ accounts.required owner ∨ Shown (accounts.kycCase owner)

/-- `assertKycEligible`: whether it lets a payment pass. -/
def assertKycEligible : Prop := ¬ (accounts.required owner ∧ ¬ accounts.KycApproved owner)

def OneAnswer : Prop :=
  (accounts.kycComplete owner ↔ accounts.assertKycEligible owner) ∧
    (accounts.complete owner ↔ accounts.assertKycEligible owner)

/-- After an approval no case is open, and none is newer than the approved one. -/
def Settled : Prop :=
  (∀ row ∈ accounts.casesFor owner, ¬ row.status.Open) ∧
    Shown (latest Case.createdAt (accounts.casesFor owner))

variable {accounts} {owner}

/-- The two readings of which wallets need KYC are one. -/
theorem kycRequired_eq : accounts.kycRequired owner = accounts.required owner := by
  unfold kycRequired required
  congr
  funext wallet
  unfold kycNeeded
  cases accounts.walletTypes wallet.walletCode with
  | none => rfl
  | some walletType =>
    cases hneeded : walletType.isKycNeeded with
    | none => simp [hneeded]
    | some needed => simp [hneeded]

theorem shown_iff {row : Option Case} : Shown row ↔ ∃ case, row = some case ∧
    case.status = .approved := by
  cases row <;> simp [Shown]

/-- A case that is shown as approved is one. -/
theorem kycApproved_of_shown {α : Type} [LinearOrder α] {key : Case → α}
    (hshown : Shown (latest key (accounts.casesFor owner))) : accounts.KycApproved owner := by
  obtain ⟨row, hlatest, hstatus⟩ := shown_iff.mp hshown
  have hmem := List.mem_filter.mp (latest_mem hlatest)
  exact ⟨row, hmem.1, of_decide_eq_true hmem.2, hstatus⟩

/-- Without an open case the journey shows the newest one. -/
theorem kycCase_of_closed (hclosed : ∀ row ∈ accounts.casesFor owner, ¬ row.status.Open) :
    accounts.kycCase owner = latest Case.createdAt (accounts.casesFor owner) := by
  apply latest_congr
  intro first hfirst second hsecond
  rw [if_neg (hclosed first hfirst), if_neg (hclosed second hsecond), Prod.Lex.toLex_lt_toLex]
  simp

/-- The journey shows an approved case exactly after all cases are settled. -/
theorem shown_kycCase_iff : Shown (accounts.kycCase owner) ↔ accounts.Settled owner := by
  constructor
  · intro hshown
    have hclosed : ∀ row ∈ accounts.casesFor owner, ¬ row.status.Open := by
      intro row hrow hopen
      obtain ⟨first, hfirst, hstatus⟩ := shown_iff.mp hshown
      have hle := le_latest hfirst hrow
      have hnot : ¬ first.status.Open := by
        rw [hstatus]
        decide
      simp [Prod.Lex.toLex_le_toLex, if_pos hopen, if_neg hnot] at hle
    exact ⟨hclosed, kycCase_of_closed hclosed ▸ hshown⟩
  · intro hsettled
    rw [kycCase_of_closed hsettled.1]
    exact hsettled.2

/-- The portal has one answer exactly for a customer who needs no KYC, who has no approved case,
or whose newest case is approved while none is open. -/
theorem one_answer_iff (accounts : Accounts) (owner : ℤ) :
    accounts.OneAnswer owner ↔
      accounts.required owner = false ∨ ¬ accounts.KycApproved owner ∨ accounts.Settled owner := by
  unfold OneAnswer kycComplete complete assertKycEligible
  rw [kycRequired_eq, shown_kycCase_iff]
  have hnewest : Shown (latest Case.createdAt (accounts.casesFor owner)) →
      accounts.KycApproved owner := kycApproved_of_shown
  have hsettled : accounts.Settled owner → Shown (latest Case.createdAt (accounts.casesFor owner)) :=
    And.right
  cases accounts.required owner with
  | false => simp
  | true =>
    simp only [not_true_eq_false, false_or, true_and, not_not, reduceCtorEq]
    tauto

end Accounts

/-- A customer with an approved case who has begun another one. -/
def begunAgain : Accounts where
  kyc :=
    { cases := ⟨[{ id := 1, customerMsisdn := some 7, documentType := .passport,
                   status := .approved, createdBy := "operator", createdAt := 0 },
        { id := 2, customerMsisdn := some 7, documentType := .passport,
          createdBy := "operator", createdAt := 1 }], by decide⟩
      profiles := .empty
      requests := .empty
      links := .empty
      journeys := { versions := .empty, instances := .empty, customers := .empty } }
  directory := { Directory.empty with
    wallets := ⟨[{ walletMsisdn := 1, walletCode := 103, ownerMsisdn := 7, currency := "UGX" }],
      by decide⟩ }
  walletTypes := fun code => if code = 103 then some { isKycNeeded := some true } else none
  registry := .empty

/-- The customer can pay, and both pages call the KYC incomplete. -/
theorem incomplete_and_paying : begunAgain.assertKycEligible 7 ∧ ¬ begunAgain.kycComplete 7 ∧
    ¬ begunAgain.complete 7 ∧ ¬ begunAgain.OneAnswer 7 := by
  have hpays : begunAgain.assertKycEligible 7 := by
    intro hrefused
    exact hrefused.2 (by decide)
  have hdashboard : ¬ begunAgain.kycComplete 7 := by
    intro hcomplete
    rcases hcomplete with hnone | hshown
    · exact hnone (by decide)
    · revert hshown
      unfold Shown
      decide
  have hjourney : ¬ begunAgain.complete 7 := by
    intro hcomplete
    rcases hcomplete with hnone | hshown
    · exact hnone (by decide)
    · exact absurd (Accounts.shown_kycCase_iff.mp hshown).2 (by unfold Shown; decide)
  exact ⟨hpays, hdashboard, hjourney, fun hanswer => hdashboard (hanswer.1.mpr hpays)⟩

end Finify.Kyc
