/-
# Decided cases and verified profiles

A decision can be undone by a verification that comes back to a case without looking at it, and
the profile of a customer can be written by a review that has not seen another approval or by an
allocation that asks for none.  Where no step does so, decided cases stay decided and a profile is
verified exactly if its customer has an approved case.
-/

import Finify.Kyc.Accounts

namespace Finify.Kyc

open Finify.Foundations Finify.Wallets

/-! ## Writes to the cases that decide nothing -/

/-- A table of cases after a new draft of a customer with a profile, or after a change between
statuses that are no decisions. -/
inductive CaseWrite (profiles : Table Profile.msisdn) (before : Table Case.id) :
    Table Case.id → Prop
  | same : CaseWrite profiles before before
  | added {after : Table Case.id} {row : Case} (hinsert : before.insert? row = some after)
      (hdraft : row.status = .draft) (howner : row.customerMsisdn = none ∨ row.customerId = none)
      (hknown : ∀ msisdn ∈ row.customerMsisdn, (profiles.find? msisdn).isSome) :
      CaseWrite profiles before after
  | moved (caseId : ℕ) (change : Case → Case) (hid : ∀ row, (change row).id = row.id)
      (hbefore : ∀ row ∈ before.find? caseId, ¬ row.status.Decided)
      (hafter : ∀ row, ¬ (change row).status.Decided)
      (howner : ∀ row, (change row).customerMsisdn = row.customerMsisdn ∧
        (change row).customerId = row.customerId) :
      CaseWrite profiles before (before.modify caseId change hid)

theorem not_decided_draft : ¬ CaseStatus.draft.Decided := by
  decide

/-- The rows of a table in which one was rewritten. -/
theorem mem_modify {table : Table Case.id} {caseId : ℕ} {change : Case → Case}
    {hid : ∀ row, (change row).id = row.id} {row : Case} :
    row ∈ (table.modify caseId change hid).rows ↔
      (row ∈ table.rows ∧ row.id ≠ caseId) ∨
        ∃ old, table.find? caseId = some old ∧ change old = row := by
  rw [← Table.find?_eq_some.trans (and_iff_left rfl), Table.find?_modify]
  split
  case isTrue hsame =>
    rw [hsame]
    simp [Option.map_eq_some_iff]
  case isFalse hne =>
    rw [Table.find?_eq_some]
    constructor
    · exact fun hrow => .inl ⟨hrow.1, hne⟩
    · rintro (hrow | ⟨old, hold, rfl⟩)
      · exact ⟨hrow.1, rfl⟩
      · rw [hid, (Table.find?_eq_some.mp hold).2] at hne
        exact absurd rfl hne

/-- The rows of a table in which one case was decided. -/
theorem mem_decidedCases {state : State} {caseId : ℕ} {action : ReviewAction} {actor : String}
    {now : ℤ} {row : Case} : row ∈ (state.decidedCases caseId action actor now).rows ↔
      (row ∈ state.cases.rows ∧ row.id ≠ caseId) ∨
        ∃ old, state.cases.find? caseId = some old ∧ old.reviewed action actor now = row :=
  mem_modify

namespace CaseWrite

variable {profiles : Table Profile.msisdn} {before after : Table Case.id}

/-- Decided cases are the same. -/
theorem mem_decided (hwrite : CaseWrite profiles before after) {row : Case}
    (hdecided : row.status.Decided) :
    row ∈ after.rows ↔ row ∈ before.rows := by
  cases hwrite with
  | same => rfl
  | added hinsert hdraft howner hknown =>
    rw [(Table.insert?_eq_some hinsert).2, List.mem_append, List.mem_singleton]
    constructor
    · rintro (hold | rfl)
      · exact hold
      · rw [hdraft] at hdecided
        exact absurd hdecided not_decided_draft
    · exact .inl
  | moved caseId change hid hbefore hafter howner =>
    rw [mem_modify]
    constructor
    · rintro (hold | ⟨old, _, rfl⟩)
      · exact hold.1
      · exact absurd hdecided (hafter old)
    · intro hrow
      refine .inl ⟨hrow, ?_⟩
      rintro rfl
      exact hbefore row (Table.find?_key hrow) hdecided

/-- Every case is new or was there for the same customer. -/
theorem origin (hwrite : CaseWrite profiles before after) {row : Case} (hrow : row ∈ after.rows) :
    (before.find? row.id = none ∧ (row.customerMsisdn = none ∨ row.customerId = none) ∧
        ∀ msisdn ∈ row.customerMsisdn, (profiles.find? msisdn).isSome) ∨
      ∃ old, before.find? row.id = some old ∧ old.customerMsisdn = row.customerMsisdn ∧
        old.customerId = row.customerId := by
  cases hwrite with
  | same => exact .inr ⟨row, Table.find?_key hrow, rfl, rfl⟩
  | added hinsert hdraft howner hknown =>
    obtain ⟨hfresh, hrows⟩ := Table.insert?_eq_some hinsert
    rw [hrows] at hrow
    rcases List.mem_append.mp hrow with hold | hnew
    · exact .inr ⟨row, Table.find?_key hold, rfl, rfl⟩
    · rw [List.mem_singleton.mp hnew]
      exact .inl ⟨hfresh, howner, hknown⟩
  | moved caseId change hid hbefore hafter howner =>
    rcases mem_modify.mp hrow with hold | ⟨old, hold, rfl⟩
    · exact .inr ⟨row, Table.find?_key hold.1, rfl, rfl⟩
    · refine .inr ⟨old, ?_, (howner old).1.symm, (howner old).2.symm⟩
      rw [hid, (Table.find?_eq_some.mp hold).2]
      exact hold

end CaseWrite

/-! ## The service -/

/-- The verification does not come back to a decided case. -/
def State.Undecided (state : State) (caseId : ℕ) : Prop :=
  ∀ row ∈ state.cases.find? caseId, ¬ row.status.Decided

instance (state : State) (caseId : ℕ) : Decidable (state.Undecided caseId) :=
  inferInstanceAs (Decidable (∀ row ∈ state.cases.find? caseId, _))

/-- A step of the service that writes cases but decides none. -/
theorem caseWrite_step {before after : State} {event : Event}
    (hstep : step before event = some after) (hevent : ∀ review, event ≠ .commitReview review)
    (hresult : ∀ call result acknowledged, event = .storeResult call result acknowledged →
      before.Undecided call.caseId)
    (hfailure : ∀ call, event = .recordFailure call → before.Undecided call.caseId) :
    CaseWrite before.profiles before.cases after.cases := by
  cases step_cases hstep with
  | create hprofile hinsert =>
    refine .added hinsert rfl (.inr rfl) ?_
    rintro msisdn ⟨rfl⟩
    exact hprofile
  | submit hready =>
    obtain ⟨row, hrow, htakes, _⟩ := hready
    refine .moved _ (Case.inStatus .processing) (Case.inStatus_id _) ?_
      (fun _ => (by decide : ¬ CaseStatus.processing.Decided)) fun _ => ⟨rfl, rfl⟩
    intro found hfound hdecided
    cases hrow.symm.trans hfound
    rcases htakes with hstatus | hstatus <;> rw [hstatus] at hdecided <;> revert hdecided <;>
      decide
  | @storeResult call result acknowledged =>
    exact .moved call.caseId (Case.verified result) (Case.verified_id _)
      (hresult call result acknowledged rfl)
      (fun _ => (by decide : ¬ CaseStatus.manualReview.Decided)) fun _ => ⟨rfl, rfl⟩
  | @recordFailure call =>
    exact .moved call.caseId (Case.inStatus .failed) (Case.inStatus_id _) (hfailure call rfl)
      (fun _ => (by decide : ¬ CaseStatus.failed.Decided)) fun _ => ⟨rfl, rfl⟩
  | commitReview => exact absurd rfl (hevent _)
  | file | failSubmit | breakOff | noteFailure | abandon | review | endReview => exact .same

/-- A review under way was there before, or has just read the approved cases. -/
theorem reviews_step {before after : State} {event : Event}
    (hstep : step before event = some after) {review : Review} (hreview : review ∈ after.reviews) :
    review ∈ before.reviews ∨ after.cases = before.cases ∧
      ∃ row, before.cases.find? review.caseId = some row ∧
        review.approvedCaseId = approvedCase (before.decidedCases review.caseId review.action
          review.actor review.now).rows row.customerMsisdn := by
  cases step_cases hstep with
  | review hrow =>
    rcases List.mem_append.mp hreview with hold | hnew
    · exact .inl hold
    · rw [List.mem_singleton.mp hnew]
      exact .inr ⟨rfl, _, hrow, rfl⟩
  | endReview | commitReview => exact .inl (List.mem_of_mem_erase hreview)
  | _ => exact .inl hreview

/-! ## Profiles and cases -/

namespace Accounts

variable (accounts : Accounts)

def OfCustomer (row : Case) (msisdn : ℤ) : Prop :=
  row.customerMsisdn = some msisdn ∨ ∃ customer ∈ accounts.registry.rows,
    row.customerId = some customer.id ∧ customer.legacyProfileMsisdn = some msisdn

instance (row : Case) (msisdn : ℤ) : Decidable (accounts.OfCustomer row msisdn) :=
  inferInstanceAs (Decidable (_ ∨ ∃ customer ∈ accounts.registry.rows, _))

def HasApprovedCase (msisdn : ℤ) : Prop :=
  ∃ row ∈ accounts.kyc.cases.rows, row.status = .approved ∧ accounts.OfCustomer row msisdn

instance (msisdn : ℤ) : Decidable (accounts.HasApprovedCase msisdn) :=
  inferInstanceAs (Decidable (∃ row ∈ accounts.kyc.cases.rows, _))

/-- A profile is verified exactly if its customer has an approved case. -/
def ProfilesAgree : Prop :=
  ∀ msisdn profile, accounts.kyc.profiles.find? msisdn = some profile →
    (profile.kycStatus = 1 ↔ accounts.HasApprovedCase msisdn)

/-- A registered customer has an approved case of its own. -/
def CustomerApproved (customerId : ℕ) : Prop :=
  ∃ row ∈ accounts.kyc.cases.rows, row.status = .approved ∧ row.customerId = some customerId

instance (customerId : ℕ) : Decidable (accounts.CustomerApproved customerId) :=
  inferInstanceAs (Decidable (∃ row ∈ accounts.kyc.cases.rows, _))

end Accounts

/-- Decided cases keep their status. -/
def KeepsDecisions (before after : Accounts) : Prop :=
  ∀ row ∈ before.kyc.cases.rows, row.status.Decided →
    ∃ kept, after.kyc.cases.find? row.id = some kept ∧ kept.status = row.status

/-! ## The condition -/

namespace Accounts

variable (accounts : Accounts)

/-- A review that commits has seen that its customer has an approved case, if it has one. -/
def Sees (review : Review) (row : Case) : Prop :=
  ∀ msisdn ∈ row.customerMsisdn, accounts.HasApprovedCase msisdn → review.approvedCaseId.isSome

instance (review : Review) (row : Case) : Decidable (accounts.Sees review row) :=
  inferInstanceAs (Decidable (∀ msisdn ∈ row.customerMsisdn, _))

/-- If the case is one of this registered customer, it has the number of the customer's profile,
or the customer has an approved case anyway. -/
def Covers (row : Case) (customer : Registered) : Prop :=
  row.customerId = some customer.id → ∀ msisdn ∈ customer.legacyProfileMsisdn,
    row.customerMsisdn = some msisdn ∨ accounts.HasApprovedCase msisdn

instance (row : Case) (customer : Registered) : Decidable (accounts.Covers row customer) :=
  inferInstanceAs (Decidable (_ → ∀ msisdn ∈ customer.legacyProfileMsisdn, _))

/-- What a review that commits has to know of the customer of its case. -/
def Informed (review : Review) (row : Case) : Prop :=
  accounts.Sees review row ∧
    (review.action = .approve → ∀ customer ∈ accounts.registry.rows, accounts.Covers row customer)

instance (review : Review) (row : Case) : Decidable (accounts.Informed review row) :=
  inferInstanceAs (Decidable (_ ∧ (_ → ∀ customer ∈ accounts.registry.rows, _)))

def Commits (review : Review) : Prop :=
  (propagateKycDecision accounts.kyc.links accounts.kyc.journeys review.caseId
    review.action.status review.actor review.now).toOption.isSome

instance (review : Review) : Decidable (accounts.Commits review) :=
  inferInstanceAs (Decidable (_ = true))

/-- An allocation gives a new profile to a customer with an approved case only, and one without
an approval of its own to a profile that is not verified. -/
def Entitled (customer : Registered) : Prop :=
  ((accounts.kyc.profiles.find? customer.phone).isNone →
      accounts.HasApprovedCase customer.phone ∨ accounts.CustomerApproved customer.id) ∧
    ∀ profile ∈ accounts.kyc.profiles.find? customer.phone, profile.kycStatus ≠ 1 →
      ¬ accounts.CustomerApproved customer.id

instance (customer : Registered) : Decidable (accounts.Entitled customer) :=
  inferInstanceAs (Decidable (_ ∧ ∀ profile ∈ accounts.kyc.profiles.find? customer.phone, _))

/-- No verification comes back to a decided case, a review that commits is informed, and an
allocation is entitled. -/
def Steady : AccountEvent → Prop
  | .kyc (.storeResult call _ _) | .kyc (.recordFailure call) =>
    accounts.kyc.Undecided call.caseId
  | .kyc (.commitReview review) =>
    accounts.Commits review → ∀ row ∈ accounts.kyc.cases.find? review.caseId,
      accounts.Informed review row
  | .prepareAllocation customerId =>
    ∀ customer ∈ accounts.registry.find? customerId, accounts.Entitled customer
  | _ => True

instance : (event : AccountEvent) → Decidable (accounts.Steady event)
  | .kyc (.storeResult call _ _) | .kyc (.recordFailure call) =>
    inferInstanceAs (Decidable (accounts.kyc.Undecided call.caseId))
  | .kyc (.commitReview review) =>
    inferInstanceAs (Decidable (accounts.Commits review →
      ∀ row ∈ accounts.kyc.cases.find? review.caseId, _))
  | .prepareAllocation customerId =>
    inferInstanceAs (Decidable (∀ customer ∈ accounts.registry.find? customerId, _))
  | .kyc (.create _ _ _ _) | .kyc (.upload _) | .kyc (.storeDocument _) | .kyc (.dropUpload _)
  | .kyc (.submit _) | .kyc (.failSubmit _) | .kyc (.breakOff _) | .kyc (.noteFailure _)
  | .kyc (.abandon _) | .kyc (.review _ _ _ _) | .kyc (.abandonReview _)
  | .createCustomer _ _ _ _ _ _ | .completeCustomerAccountOpening _ _
  | .createAdditional _ _ _ _ | .insertWallet _ | .finish _ | .rollback _
  | .applyWalletType _ _ | .changeWalletCode _ _ | .startKyc _ _ _ _ _ | .allocateWallet _ _ _
  | .advance _ => .isTrue trivial

/-! ## What is kept -/

/-- What a review under way has read of its customer. -/
structure ReadRight (review : Review) (row : Case) : Prop where
  found : review.approvedCaseId.isSome → ∃ msisdn, row.customerMsisdn = some msisdn ∧
    (review.action = .approve ∨ accounts.HasApprovedCase msisdn)
  own : review.action = .approve → row.customerMsisdn.isSome → review.approvedCaseId.isSome

/-- The numbers of cases and of registered customers have profiles, as the foreign keys have it,
and the cases of a registered customer have no number but the phone number. -/
structure Numbered : Prop where
  known : ∀ row ∈ accounts.kyc.cases.rows, ∀ msisdn ∈ row.customerMsisdn,
    (accounts.kyc.profiles.find? msisdn).isSome
  legacy : ∀ customer ∈ accounts.registry.rows, ∀ msisdn ∈ customer.legacyProfileMsisdn,
    msisdn = customer.phone ∧ (accounts.kyc.profiles.find? msisdn).isSome
  phone : ∀ row ∈ accounts.kyc.cases.rows, ∀ customer ∈ accounts.registry.rows,
    row.customerId = some customer.id → ∀ msisdn ∈ row.customerMsisdn, msisdn = customer.phone

/-- The profiles agree with the cases, and what the calls under way have read holds. -/
structure Book : Prop where
  agree : accounts.ProfilesAgree
  numbered : accounts.Numbered
  locks : accounts.kyc.LocksHold
  reviews : ∀ review ∈ accounts.kyc.reviews, ∀ row,
    accounts.kyc.cases.find? review.caseId = some row → accounts.ReadRight review row
  approvals : ∀ owner, (accounts.approvals owner).isSome → accounts.HasApprovedCase owner

end Accounts

namespace Accounts

section

variable {before after : Accounts}

/-- A customer with an approved case has a profile. -/
theorem Numbered.profile (hnumbered : before.Numbered) {msisdn : ℤ}
    (happroved : before.HasApprovedCase msisdn) :
    (before.kyc.profiles.find? msisdn).isSome := by
  obtain ⟨row, hrow, _, hmsisdn | ⟨customer, hcustomer, _, hlegacy⟩⟩ := happroved
  · exact hnumbered.known row hrow msisdn hmsisdn
  · exact (hnumbered.legacy customer hcustomer msisdn hlegacy).2

/-- Writes that decide nothing leave who has an approved case. -/
theorem hasApprovedCase_of_write
    (hwrite : CaseWrite after.kyc.profiles before.kyc.cases after.kyc.cases)
    (hregistry : after.registry = before.registry) (msisdn : ℤ) :
    after.HasApprovedCase msisdn ↔ before.HasApprovedCase msisdn := by
  unfold HasApprovedCase OfCustomer
  rw [hregistry]
  constructor
  · rintro ⟨row, hrow, hstatus, howner⟩
    exact ⟨row, (hwrite.mem_decided (.inl hstatus)).mp hrow, hstatus, howner⟩
  · rintro ⟨row, hrow, hstatus, howner⟩
    exact ⟨row, (hwrite.mem_decided (.inl hstatus)).mpr hrow, hstatus, howner⟩

/-- Profiles that are kept, beside new ones of customers without an approved case, agree as
before. -/
theorem ProfilesAgree.of_kept (hagree : before.ProfilesAgree)
    (happroved : ∀ msisdn, after.HasApprovedCase msisdn ↔ before.HasApprovedCase msisdn)
    (hprofiles : ∀ msisdn profile, after.kyc.profiles.find? msisdn = some profile →
      before.kyc.profiles.find? msisdn = some profile ∨
        profile.kycStatus ≠ 1 ∧ ¬ before.HasApprovedCase msisdn ∨
          profile.kycStatus = 1 ∧ before.HasApprovedCase msisdn) : after.ProfilesAgree := by
  intro msisdn profile hprofile
  rw [happroved]
  rcases hprofiles msisdn profile hprofile with hold | ⟨hstatus, hnone⟩ | ⟨hstatus, hsome⟩
  · exact hagree msisdn profile hold
  · exact iff_of_false hstatus hnone
  · exact iff_of_true hstatus hsome

/-- A step that decides nothing keeps the book. -/
theorem Book.of_write (hbook : before.Book)
    (hwrite : CaseWrite after.kyc.profiles before.kyc.cases after.kyc.cases)
    (hregistry : after.registry = before.registry) (hagree : after.ProfilesAgree)
    (hprofiles : ∀ msisdn, (before.kyc.profiles.find? msisdn).isSome →
      (after.kyc.profiles.find? msisdn).isSome)
    (hlocks : after.kyc.LocksHold)
    (hreviews : ∀ review ∈ after.kyc.reviews, review ∈ before.kyc.reviews ∨
      ∀ row, after.kyc.cases.find? review.caseId = some row → before.ReadRight review row)
    (happrovals : ∀ owner, (after.approvals owner).isSome →
      (before.approvals owner).isSome ∨ before.HasApprovedCase owner) : after.Book where
  agree := hagree
  numbered := by
    constructor
    · intro row hrow msisdn hmsisdn
      rcases hwrite.origin hrow with ⟨_, _, hknown⟩ | ⟨old, hold, hsame, _⟩
      · exact hknown msisdn hmsisdn
      · exact hprofiles msisdn (hbook.numbered.known old (Table.find?_eq_some.mp hold).1 msisdn
          (hsame ▸ hmsisdn))
    · intro customer hcustomer msisdn hlegacy
      rw [hregistry] at hcustomer
      obtain ⟨hphone, hprofile⟩ := hbook.numbered.legacy customer hcustomer msisdn hlegacy
      exact ⟨hphone, hprofiles msisdn hprofile⟩
    · intro row hrow customer hcustomer hid msisdn hmsisdn
      rw [hregistry] at hcustomer
      rcases hwrite.origin hrow with ⟨_, hnone | hnone, _⟩ | ⟨old, hold, hsame, hsameId⟩
      · rw [hnone] at hmsisdn
        cases hmsisdn
      · rw [hnone] at hid
        cases hid
      · exact hbook.numbered.phone old (Table.find?_eq_some.mp hold).1 customer hcustomer
          (hsameId ▸ hid) msisdn (hsame ▸ hmsisdn)
  locks := hlocks
  reviews := by
    intro review hreview row hrow
    have hread : before.ReadRight review row := by
      rcases hreviews review hreview with hold | hnew
      · obtain ⟨was, hwas, _⟩ := hbook.locks.awaited review hold
        have hright := hbook.reviews review hold was hwas
        obtain ⟨hmem, hid⟩ := Table.find?_eq_some.mp hrow
        rcases hwrite.origin hmem with ⟨hfresh, _⟩ | ⟨old, hold, hsame, _⟩
        · rw [hid, hwas] at hfresh
          cases hfresh
        · rw [hid, hwas] at hold
          cases hold
          exact ⟨hsame ▸ hright.found, hsame ▸ hright.own⟩
      · exact hnew row hrow
    refine ⟨fun hfound => ?_, hread.own⟩
    obtain ⟨msisdn, hmsisdn, hcause⟩ := hread.found hfound
    exact ⟨msisdn, hmsisdn,
      hcause.imp id (hasApprovedCase_of_write hwrite hregistry msisdn).mpr⟩
  approvals := by
    intro owner howner
    apply (hasApprovedCase_of_write hwrite hregistry owner).mpr
    rcases happrovals owner howner with hold | hnew
    · exact hbook.approvals owner hold
    · exact hnew

theorem keepsDecisions_of_write
    (hwrite : CaseWrite after.kyc.profiles before.kyc.cases after.kyc.cases) :
    KeepsDecisions before after := by
  intro row hrow hdecided
  exact ⟨row, Table.find?_key ((hwrite.mem_decided hdecided).mpr hrow), rfl⟩

/-! ## Steps that decide nothing -/

theorem readRight_of_review {review : Review} {row : Case}
    (hrow : before.kyc.cases.find? review.caseId = some row)
    (hread : review.approvedCaseId = approvedCase (before.kyc.decidedCases review.caseId
      review.action review.actor review.now).rows row.customerMsisdn) :
    before.ReadRight review row := by
  constructor
  · intro hfound
    rw [hread, approvedCase_isSome] at hfound
    obtain ⟨msisdn, hmsisdn, found, hmem, hsame, hstatus⟩ := hfound
    refine ⟨msisdn, hmsisdn, ?_⟩
    rcases mem_decidedCases.mp hmem with ⟨hold, _⟩ | ⟨old, _, rfl⟩
    · exact .inr ⟨found, hold, hstatus, .inl hsame⟩
    · left
      cases haction : review.action <;>
        simp [Case.reviewed, haction, ReviewAction.status] at hstatus
      rfl
  · intro haction hnumber
    obtain ⟨msisdn, hmsisdn⟩ := Option.isSome_iff_exists.mp hnumber
    rw [hread, approvedCase_isSome]
    refine ⟨msisdn, hmsisdn, row.reviewed review.action review.actor review.now,
      mem_decidedCases.mpr (.inr ⟨row, hrow, rfl⟩), hmsisdn, ?_⟩
    rw [haction]
    rfl

/-- The service keeps the book with every step but the commit of a review. -/
theorem Book.kyc (hbook : before.Book) {event : Event} {kyc : State}
    (hsteady : before.Steady (.kyc event)) (hstep : Kyc.step before.kyc event = some kyc)
    (hevent : ∀ review, event ≠ .commitReview review) :
    ({ before with kyc := kyc } : Accounts).Book ∧
      KeepsDecisions before { before with kyc := kyc } := by
  have hwrite : CaseWrite kyc.profiles before.kyc.cases kyc.cases := by
    rw [(step_leaves hstep hevent).1]
    apply caseWrite_step hstep hevent
    · rintro call result acknowledged rfl
      exact hsteady
    · rintro call rfl
      exact hsteady
  refine ⟨?_, keepsDecisions_of_write hwrite⟩
  have hprofiles : kyc.profiles = before.kyc.profiles := (step_leaves hstep hevent).1
  refine hbook.of_write hwrite rfl ?_ ?_ ?_ ?_ ?_
  · refine hbook.agree.of_kept (hasApprovedCase_of_write hwrite rfl) ?_
    intro msisdn profile hprofile
    exact .inl (hprofiles ▸ hprofile)
  · intro msisdn hfound
    exact hprofiles ▸ hfound
  · exact hbook.locks.step hstep
  · intro review hreview
    rcases reviews_step hstep hreview with hold | ⟨hcases, row, hrow, hread⟩
    · exact .inl hold
    · right
      intro found hfound
      change kyc.cases.find? review.caseId = some found at hfound
      rw [hcases, hrow] at hfound
      cases hfound
      exact readRight_of_review hrow hread
  · exact fun _ howner => .inl howner

/-! ## Reviews that commit -/

def reviewed (accounts : Accounts) (review : Review) (row : Case)
    (journeys : Onboarding.Database) : Accounts :=
  { accounts with
    kyc := { (accounts.kyc.decide review row.customerMsisdn).endReview review with
      journeys := journeys } }

variable {review : Review} {row : Case} {journeys : Onboarding.Database}

theorem hasApprovedCase_reviewed (journeys : Onboarding.Database)
    (hrow : before.kyc.cases.find? review.caseId = some row)
    (hawaits : row.status.AwaitsReview) (msisdn : ℤ) :
    (before.reviewed review row journeys).HasApprovedCase msisdn ↔
      before.HasApprovedCase msisdn ∨ review.action = .approve ∧ before.OfCustomer row msisdn := by
  constructor
  · rintro ⟨found, hfound, hstatus, howner⟩
    rcases mem_decidedCases.mp hfound with ⟨hold, _⟩ | ⟨old, hold, rfl⟩
    · exact .inl ⟨found, hold, hstatus, howner⟩
    · rw [hrow] at hold
      cases hold
      refine .inr ⟨?_, howner⟩
      cases haction : review.action <;>
        simp [Case.reviewed, haction, ReviewAction.status] at hstatus
      rfl
  · rintro (⟨found, hfound, hstatus, howner⟩ | ⟨haction, howner⟩)
    · refine ⟨found, mem_decidedCases.mpr (.inl ⟨hfound, ?_⟩), hstatus, howner⟩
      intro hid
      have hsame := Table.find?_key hfound
      rw [hid, hrow] at hsame
      cases hsame
      rw [hstatus] at hawaits
      revert hawaits
      decide
    · refine ⟨row.reviewed review.action review.actor review.now,
        mem_decidedCases.mpr (.inr ⟨row, hrow, rfl⟩), ?_, howner⟩
      rw [haction]
      rfl

/-- The commit writes the profile of the number of its case. -/
theorem profile_reviewed {msisdn : ℤ} {profile : Profile}
    (hprofile : (before.reviewed review row journeys).kyc.profiles.find? msisdn = some profile) :
    if row.customerMsisdn = some msisdn then
      profile.kycStatus = profileStatus review.approvedCaseId review.action
    else before.kyc.profiles.find? msisdn = some profile := by
  cases hnumber : row.customerMsisdn with
  | none => simpa [reviewed, State.decide, State.endReview, hnumber] using hprofile
  | some number =>
    simp only [reviewed, State.decide, State.endReview, hnumber, Option.elim_some,
      Table.find?_modify] at hprofile
    by_cases hsame : msisdn = number
    case pos =>
      rw [if_pos hsame] at hprofile
      obtain ⟨old, _, rfl⟩ := Option.map_eq_some_iff.mp hprofile
      rw [if_pos (by rw [hsame])]
      rfl
    case neg =>
      rw [if_neg hsame] at hprofile
      rw [if_neg (by simpa [eq_comm] using hsame)]
      exact hprofile

theorem profileStatus_eq_one {approvedCaseId : Option ℕ} {action : ReviewAction} :
    profileStatus approvedCaseId action = 1 ↔ approvedCaseId.isSome := by
  unfold profileStatus
  split
  case isTrue hfound => simp [hfound]
  case isFalse hnone => split <;> simp [hnone]

/-- A commit keeps the numbers of cases and profiles. -/
theorem Numbered.reviewed (hnumbered : before.Numbered) :
    (before.reviewed review row journeys).Numbered := by
  have hprofiles : ∀ msisdn, (before.kyc.profiles.find? msisdn).isSome →
      ((before.reviewed review row journeys).kyc.profiles.find? msisdn).isSome := by
    intro msisdn hfound
    cases hnumber : row.customerMsisdn with
    | none => simpa [Accounts.reviewed, State.decide, State.endReview, hnumber] using hfound
    | some number =>
      simp only [Accounts.reviewed, State.decide, State.endReview, hnumber, Option.elim_some,
        Table.find?_modify]
      split
      case isTrue => simpa using hfound
      case isFalse => exact hfound
  have horigin : ∀ found ∈ (before.reviewed review row journeys).kyc.cases.rows,
      ∃ old ∈ before.kyc.cases.rows, old.customerMsisdn = found.customerMsisdn ∧
        old.customerId = found.customerId := by
    intro found hfound
    rcases mem_decidedCases.mp hfound with ⟨hold, _⟩ | ⟨old, hold, rfl⟩
    · exact ⟨found, hold, rfl, rfl⟩
    · exact ⟨old, (Table.find?_eq_some.mp hold).1, rfl, rfl⟩
  constructor
  · intro found hfound msisdn hmsisdn
    obtain ⟨old, hold, hsame, _⟩ := horigin found hfound
    exact hprofiles msisdn (hnumbered.known old hold msisdn (hsame ▸ hmsisdn))
  · intro customer hcustomer msisdn hlegacy
    obtain ⟨hphone, hprofile⟩ := hnumbered.legacy customer hcustomer msisdn hlegacy
    exact ⟨hphone, hprofiles msisdn hprofile⟩
  · intro found hfound customer hcustomer hid msisdn hmsisdn
    obtain ⟨old, hold, hsame, hsameId⟩ := horigin found hfound
    exact hnumbered.phone old hold customer hcustomer (hsameId ▸ hid) msisdn (hsame ▸ hmsisdn)

/-- What the reviews have read stays right while approvals are only added. -/
theorem ReadRight.mono (hread : before.ReadRight review row)
    (happroved : ∀ msisdn, before.HasApprovedCase msisdn → after.HasApprovedCase msisdn) :
    after.ReadRight review row where
  found := by
    intro hfound
    obtain ⟨msisdn, hmsisdn, hcause⟩ := hread.found hfound
    exact ⟨msisdn, hmsisdn, hcause.imp id (happroved msisdn)⟩
  own := hread.own

theorem Book.reviewed (hbook : before.Book) (hreview : review ∈ before.kyc.reviews)
    (hrow : before.kyc.cases.find? review.caseId = some row)
    (hinformed : before.Informed review row) :
    (before.reviewed review row journeys).Book ∧
      KeepsDecisions before (before.reviewed review row journeys) := by
  obtain ⟨awaited, hawaited, hawaits⟩ := hbook.locks.awaited review hreview
  rw [hrow] at hawaited
  cases hawaited
  have happroved := hasApprovedCase_reviewed journeys hrow hawaits
  have hread := hbook.reviews review hreview row hrow
  have hmono : ∀ msisdn, before.HasApprovedCase msisdn →
      (before.reviewed review row journeys).HasApprovedCase msisdn :=
    fun msisdn hbefore => (happroved msisdn).mpr (.inl hbefore)
  constructor
  · constructor
    · intro msisdn profile hprofile
      rw [happroved]
      have hstatus := profile_reviewed hprofile
      split at hstatus
      case isTrue hnumber =>
        rw [hstatus, profileStatus_eq_one]
        constructor
        · intro hfound
          obtain ⟨number, hsame, haction | happrovedCase⟩ := hread.found hfound
          · exact .inr ⟨haction, .inl hnumber⟩
          · cases hnumber.symm.trans hsame
            exact .inl happrovedCase
        · rintro (hbefore | ⟨haction, _⟩)
          · exact hinformed.1 msisdn hnumber hbefore
          · exact hread.own haction (by simp [hnumber])
      case isFalse hnumber =>
        rw [hbook.agree msisdn profile hstatus]
        constructor
        · exact .inl
        · rintro (hbefore | ⟨haction, hsame | ⟨customer, hcustomer, hid, hlegacy⟩⟩)
          · exact hbefore
          · exact absurd hsame hnumber
          · exact (hinformed.2 haction customer hcustomer hid msisdn hlegacy).resolve_left hnumber
    · exact hbook.numbered.reviewed
    · exact hbook.locks.of_ended hreview (fun _ hne => Table.find?_modify_of_ne _ hne
        (Case.reviewed review.action review.actor review.now) (Case.reviewed_id _ _ _)) rfl
    · intro other hother found hfound
      have hne := hbook.locks.others_ne hreview other hother
      have hsame : before.kyc.cases.find? other.caseId = some found :=
        (Table.find?_modify_of_ne _ hne (Case.reviewed review.action review.actor review.now)
          (Case.reviewed_id _ _ _)).symm.trans hfound
      exact (hbook.reviews other (List.mem_of_mem_erase hother) found hsame).mono hmono
    · exact fun owner howner => hmono owner (hbook.approvals owner howner)
  · intro found hfound hdecided
    refine ⟨found, Table.find?_key (mem_decidedCases.mpr (.inl ⟨hfound, ?_⟩)), rfl⟩
    intro hid
    have hsame := Table.find?_key hfound
    rw [hid, hrow] at hsame
    cases hsame
    rcases hawaits with hstatus | hstatus <;> rw [hstatus] at hdecided <;> revert hdecided <;>
      decide

theorem Book.undone (hbook : before.Book) (hreview : review ∈ before.kyc.reviews) :
    ({ before with kyc := before.kyc.endReview review } : Accounts).Book ∧
      KeepsDecisions before { before with kyc := before.kyc.endReview review } := by
  have hwrite : CaseWrite before.kyc.profiles before.kyc.cases before.kyc.cases := .same
  refine ⟨?_, keepsDecisions_of_write hwrite⟩
  refine hbook.of_write hwrite rfl hbook.agree (fun _ hfound => hfound) ?_ ?_ fun _ hfound =>
    .inl hfound
  · exact hbook.locks.of_ended hreview (fun _ _ => rfl) rfl
  · exact fun other hother => .inl (List.mem_of_mem_erase hother)

/-! ## Allocations -/

theorem Registered.profiled_id (row : Registered) :
    ({ row with legacyProfileMsisdn := some row.phone } : Registered).id = row.id := rfl

theorem Profile.kept_msisdn (row : Profile) : (id row).msisdn = row.msisdn := rfl

/-- The database after the first transaction of an allocation. -/
def allocated (accounts : Accounts) (customer : Registered) : Accounts :=
  { accounts with
    allocations := accounts.allocations.erase customer.id
    registry := accounts.registry.modify customer.id
      (fun customer => { customer with legacyProfileMsisdn := some customer.phone })
      Registered.profiled_id
    directory := accounts.directory.addProfile customer.phone
    kyc :=
      { accounts.kyc with
        profiles := accounts.kyc.profiles.upsert
          { msisdn := customer.phone, kycStatus := 1 } id Profile.kept_msisdn
        cases := accounts.kyc.cases.map (Case.numbered customer.id customer.phone)
          (Case.numbered_id customer.id customer.phone) } }

theorem prepareAllocation_cases {customerId : ℕ}
    (hstep : before.prepareAllocation customerId = some after) :
    ∃ customer, before.registry.find? customerId = some customer ∧
      after = before.allocated customer := by
  unfold prepareAllocation at hstep
  split at hstep
  case h_1 => cases hstep
  case h_2 customer hcustomer =>
    simp only [Option.ite_none_right_eq_some, Option.some.injEq] at hstep
    obtain ⟨_, rfl⟩ := hstep
    have hid : customer.id = customerId := (Table.find?_eq_some.mp hcustomer).2
    subst hid
    exact ⟨customer, hcustomer, rfl⟩

variable {customer : Registered}

theorem mem_allocated_cases {found : Case} :
    found ∈ (before.allocated customer).kyc.cases.rows ↔
      ∃ old ∈ before.kyc.cases.rows, old.numbered customer.id customer.phone = found := by
  simp only [allocated, Table.rows_map, List.mem_map]

theorem find?_allocated_cases (caseId : ℕ) :
    (before.allocated customer).kyc.cases.find? caseId =
      (before.kyc.cases.find? caseId).map (Case.numbered customer.id customer.phone) :=
  Table.find?_map _ _ (Case.numbered_id customer.id customer.phone) caseId

theorem mem_allocated_registry {other : Registered} :
    other ∈ (before.allocated customer).registry.rows ↔
      ∃ old ∈ before.registry.rows, (if old.id = customer.id then
        { old with legacyProfileMsisdn := some old.phone } else old) = other := by
  simp only [allocated, Table.modify, Table.rows_map, List.mem_map]

/-- The allocation makes its number the one of its customer. -/
theorem legacy_allocated (hnumbered : before.Numbered)
    (hcustomer : customer ∈ before.registry.rows) {customerId : Option ℕ} {msisdn : ℤ} :
    (∃ other ∈ (before.allocated customer).registry.rows,
        customerId = some other.id ∧ other.legacyProfileMsisdn = some msisdn) ↔
      (∃ other ∈ before.registry.rows,
        customerId = some other.id ∧ other.legacyProfileMsisdn = some msisdn) ∨
        customerId = some customer.id ∧ msisdn = customer.phone := by
  have hunique : ∀ other ∈ before.registry.rows, other.id = customer.id → other = customer :=
    fun other hother hid => before.registry.eq_of_key_eq hother hcustomer hid
  constructor
  · rintro ⟨other, hother, hid, hlegacy⟩
    obtain ⟨old, hold, rfl⟩ := mem_allocated_registry.mp hother
    by_cases hsame : old.id = customer.id
    case pos =>
      rw [if_pos hsame] at hid hlegacy
      right
      refine ⟨hid.trans (congrArg some hsame), ?_⟩
      rw [← hunique old hold hsame]
      exact (Option.some.inj hlegacy).symm
    case neg =>
      rw [if_neg hsame] at hid hlegacy
      exact .inl ⟨old, hold, hid, hlegacy⟩
  · rintro (⟨other, hother, hid, hlegacy⟩ | ⟨hid, rfl⟩)
    · refine ⟨_, mem_allocated_registry.mpr ⟨other, hother, rfl⟩, ?_⟩
      by_cases hsame : other.id = customer.id
      case pos =>
        rw [if_pos hsame]
        exact ⟨hid, congrArg some (hnumbered.legacy other hother msisdn hlegacy).1.symm⟩
      case neg =>
        rw [if_neg hsame]
        exact ⟨hid, hlegacy⟩
    · refine ⟨_, mem_allocated_registry.mpr ⟨customer, hcustomer, rfl⟩, ?_⟩
      rw [if_pos rfl]
      exact ⟨hid, rfl⟩

/-- An allocation gives its number to the approved cases of its customer. -/
theorem hasApprovedCase_allocated (hnumbered : before.Numbered)
    (hcustomer : customer ∈ before.registry.rows) (msisdn : ℤ) :
    (before.allocated customer).HasApprovedCase msisdn ↔
      before.HasApprovedCase msisdn ∨
        msisdn = customer.phone ∧ before.CustomerApproved customer.id := by
  constructor
  · rintro ⟨found, hfound, hstatus, howner⟩
    obtain ⟨old, hold, rfl⟩ := mem_allocated_cases.mp hfound
    rw [Case.numbered_status] at hstatus
    rw [OfCustomer, legacy_allocated hnumbered hcustomer, Case.numbered_customerId,
      Case.numbered_customerMsisdn] at howner
    rcases howner with hmsisdn | hlegacy | ⟨hid, hphone⟩
    · split at hmsisdn
      case isTrue hown => exact .inr ⟨(Option.some.inj hmsisdn).symm, old, hold, hstatus, hown.1⟩
      case isFalse => exact .inl ⟨old, hold, hstatus, .inl hmsisdn⟩
    · exact .inl ⟨old, hold, hstatus, .inr hlegacy⟩
    · exact .inr ⟨hphone, old, hold, hstatus, hid⟩
  · intro hcause
    have hrow : ∃ old ∈ before.kyc.cases.rows, old.status = .approved ∧
        (before.OfCustomer old msisdn ∨ msisdn = customer.phone ∧
          old.customerId = some customer.id) := by
      rcases hcause with ⟨old, hold, hstatus, howner⟩ | ⟨hphone, old, hold, hstatus, hid⟩
      · exact ⟨old, hold, hstatus, .inl howner⟩
      · exact ⟨old, hold, hstatus, .inr ⟨hphone, hid⟩⟩
    obtain ⟨old, hold, hstatus, howner⟩ := hrow
    refine ⟨_, mem_allocated_cases.mpr ⟨old, hold, rfl⟩, ?_, ?_⟩
    · rw [Case.numbered_status, hstatus]
    · rw [OfCustomer, legacy_allocated hnumbered hcustomer, Case.numbered_customerId,
        Case.numbered_customerMsisdn]
      by_cases hid : old.customerId = some customer.id
      case pos =>
        rw [if_pos ⟨hid, hstatus⟩]
        left
        rcases howner with (hmsisdn | ⟨other, hother, hotherId, hlegacy⟩) | ⟨hphone, _⟩
        · rw [hnumbered.phone old hold customer hcustomer hid msisdn hmsisdn]
        · cases before.registry.eq_of_key_eq hother hcustomer
            (Option.some.inj (hotherId.symm.trans hid))
          rw [(hnumbered.legacy customer hcustomer msisdn hlegacy).1]
        · rw [hphone]
      case neg =>
        rw [if_neg fun hown => hid hown.1]
        rcases howner with (hmsisdn | hlegacy) | ⟨_, hother⟩
        · exact .inl hmsisdn
        · exact .inr (.inl hlegacy)
        · exact absurd hother hid

theorem profile_allocated {msisdn : ℤ} {profile : Profile}
    (hprofile : (before.allocated customer).kyc.profiles.find? msisdn = some profile) :
    before.kyc.profiles.find? msisdn = some profile ∨
      msisdn = customer.phone ∧ before.kyc.profiles.find? msisdn = none ∧
        profile.kycStatus = 1 := by
  simp only [allocated, Table.find?_upsert] at hprofile
  split at hprofile
  case isTrue hsame =>
    cases hfound : before.kyc.profiles.find? msisdn with
    | none =>
      rw [hfound] at hprofile
      cases hprofile
      exact .inr ⟨hsame, rfl, rfl⟩
    | some old =>
      rw [hfound] at hprofile
      exact .inl hprofile
  case isFalse => exact .inl hprofile

theorem isSome_profile_allocated {msisdn : ℤ}
    (hprofile : (before.kyc.profiles.find? msisdn).isSome ∨ msisdn = customer.phone) :
    ((before.allocated customer).kyc.profiles.find? msisdn).isSome := by
  simp only [allocated, Table.find?_upsert]
  split
  case isTrue => rfl
  case isFalse hne => exact hprofile.resolve_right hne

theorem Book.allocated (hbook : before.Book) (hcustomer : customer ∈ before.registry.rows)
    (hentitled : before.Entitled customer) :
    (before.allocated customer).Book ∧ KeepsDecisions before (before.allocated customer) := by
  have happroved := hasApprovedCase_allocated hbook.numbered hcustomer
  have hmono : ∀ msisdn, before.HasApprovedCase msisdn →
      (before.allocated customer).HasApprovedCase msisdn :=
    fun msisdn hbefore => (happroved msisdn).mpr (.inl hbefore)
  constructor
  · constructor
    · intro msisdn profile hprofile
      rw [happroved]
      rcases profile_allocated hprofile with hold | ⟨rfl, hnone, hstatus⟩
      · rw [hbook.agree msisdn profile hold]
        constructor
        · exact .inl
        · rintro (hbefore | ⟨rfl, hown⟩)
          · exact hbefore
          · by_contra hmissing
            apply hentitled.2 profile hold ?_ hown
            rwa [Ne, hbook.agree _ profile hold]
      · refine iff_of_true hstatus ?_
        rcases hentitled.1 (by simp [hnone]) with hbefore | hown
        · exact .inl hbefore
        · exact .inr ⟨rfl, hown⟩
    · constructor
      · intro found hfound msisdn hmsisdn
        obtain ⟨old, hold, rfl⟩ := mem_allocated_cases.mp hfound
        rw [Case.numbered_customerMsisdn] at hmsisdn
        apply isSome_profile_allocated
        split at hmsisdn
        case isTrue => exact .inr (Option.some.inj hmsisdn).symm
        case isFalse => exact .inl (hbook.numbered.known old hold msisdn hmsisdn)
      · intro other hother msisdn hlegacy
        obtain ⟨old, hold, rfl⟩ := mem_allocated_registry.mp hother
        by_cases hsame : old.id = customer.id
        case pos =>
          rw [if_pos hsame] at hlegacy ⊢
          cases before.registry.eq_of_key_eq hold hcustomer hsame
          cases hlegacy
          exact ⟨rfl, isSome_profile_allocated (.inr rfl)⟩
        case neg =>
          rw [if_neg hsame] at hlegacy ⊢
          obtain ⟨hphone, hprofile⟩ := hbook.numbered.legacy old hold msisdn hlegacy
          exact ⟨hphone, isSome_profile_allocated (.inl hprofile)⟩
      · intro found hfound other hother hid msisdn hmsisdn
        obtain ⟨old, hold, rfl⟩ := mem_allocated_cases.mp hfound
        obtain ⟨was, hwas, rfl⟩ := mem_allocated_registry.mp hother
        have hphone : (if was.id = customer.id then
            { was with legacyProfileMsisdn := some was.phone } else was).phone = was.phone := by
          split <;> rfl
        have hwasId : (if was.id = customer.id then
            { was with legacyProfileMsisdn := some was.phone } else was).id = was.id := by
          split <;> rfl
        rw [hphone]
        rw [hwasId, Case.numbered_customerId] at hid
        rw [Case.numbered_customerMsisdn] at hmsisdn
        split at hmsisdn
        case isTrue hown =>
          cases before.registry.eq_of_key_eq hwas hcustomer
            (Option.some.inj (hid.symm.trans hown.1))
          exact (Option.some.inj hmsisdn).symm
        case isFalse => exact hbook.numbered.phone old hold was hwas hid msisdn hmsisdn
    · constructor
      · intro review hreview
        obtain ⟨row, hrow, hawaits⟩ := hbook.locks.awaited review hreview
        refine ⟨row.numbered customer.id customer.phone, ?_, ?_⟩
        · rw [find?_allocated_cases, hrow, Option.map_some]
        · rwa [Case.numbered_status]
      · exact hbook.locks.exclusive
    · intro review hreview found hfound
      rw [find?_allocated_cases] at hfound
      obtain ⟨row, hrow, rfl⟩ := Option.map_eq_some_iff.mp hfound
      obtain ⟨awaited, hawaited, hawaits⟩ := hbook.locks.awaited review hreview
      cases hrow.symm.trans hawaited
      rw [Case.numbered_of_ne]
      · exact (hbook.reviews review hreview row hrow).mono hmono
      · rintro hstatus
        rw [hstatus] at hawaits
        revert hawaits
        decide
    · exact fun owner howner => hmono owner (hbook.approvals owner howner)
  · intro found hfound _
    refine ⟨found.numbered customer.id customer.phone, ?_, Case.numbered_status _ _ _⟩
    rw [find?_allocated_cases, Table.find?_key hfound, Option.map_some]

/-! ## Wallets and journeys -/

/-- A step beside the cases and the reviews that writes profiles as the cases have it. -/
theorem Book.of_profiles (hbook : before.Book) (hcases : after.kyc.cases = before.kyc.cases)
    (hreviews : after.kyc.reviews = before.kyc.reviews)
    (hregistry : after.registry = before.registry)
    (hprofiles : ∀ msisdn profile, after.kyc.profiles.find? msisdn = some profile →
      before.kyc.profiles.find? msisdn = some profile ∨
        profile.kycStatus ≠ 1 ∧ ¬ before.HasApprovedCase msisdn ∨
          profile.kycStatus = 1 ∧ before.HasApprovedCase msisdn)
    (hkept : ∀ msisdn, (before.kyc.profiles.find? msisdn).isSome →
      (after.kyc.profiles.find? msisdn).isSome)
    (happrovals : ∀ owner, (after.approvals owner).isSome →
      (before.approvals owner).isSome ∨ before.HasApprovedCase owner) :
    after.Book ∧ KeepsDecisions before after := by
  have hwrite : CaseWrite after.kyc.profiles before.kyc.cases after.kyc.cases := by
    rw [hcases]
    exact .same
  refine ⟨?_, keepsDecisions_of_write hwrite⟩
  refine hbook.of_write hwrite hregistry ?_ hkept ?_ ?_ happrovals
  · exact hbook.agree.of_kept (hasApprovedCase_of_write hwrite hregistry) hprofiles
  · refine ⟨?_, hreviews ▸ hbook.locks.exclusive⟩
    rw [hreviews, hcases]
    exact hbook.locks.awaited
  · intro review hreview
    exact .inl (hreviews ▸ hreview)

/-- A step beside the cases, the profiles and the reviews. -/
theorem Book.of_same (hbook : before.Book) (hcases : after.kyc.cases = before.kyc.cases)
    (hprofiles : after.kyc.profiles = before.kyc.profiles)
    (hreviews : after.kyc.reviews = before.kyc.reviews)
    (hregistry : after.registry = before.registry)
    (happrovals : ∀ owner, (after.approvals owner).isSome →
      (before.approvals owner).isSome ∨ before.HasApprovedCase owner) :
    after.Book ∧ KeepsDecisions before after := by
  refine hbook.of_profiles hcases hreviews hregistry ?_ ?_ happrovals
  · exact fun _ _ hprofile => .inl (hprofiles ▸ hprofile)
  · exact fun _ hfound => hprofiles ▸ hfound

theorem hasApprovedCase_of_approvedKycCase {kycRequired : Bool} {owner : ℤ}
    (hfound : (before.approvedKycCase kycRequired owner).isSome) :
    before.HasApprovedCase owner := by
  unfold approvedKycCase at hfound
  split at hfound
  case isTrue =>
    obtain ⟨msisdn, hsame, row, hrow, hmsisdn, hstatus⟩ := approvedCase_isSome.mp hfound
    cases hsame
    exact ⟨row, hrow, hstatus, .inl hmsisdn⟩
  case isFalse => cases hfound

/-- What a call has read under the lock of its customer. -/
theorem isSome_update_approvedKycCase {kycRequired : Bool} {owner other : ℤ}
    (hfound : (Function.update before.approvals owner
      (before.approvedKycCase kycRequired owner) other).isSome) :
    (before.approvals other).isSome ∨ before.HasApprovedCase other := by
  by_cases hsame : other = owner
  case pos =>
    subst hsame
    rw [Function.update_self] at hfound
    exact .inr (hasApprovedCase_of_approvedKycCase hfound)
  case neg =>
    rw [Function.update_of_ne hsame] at hfound
    exact .inl hfound

/-- What is left when a call of a customer has ended. -/
theorem isSome_update_none {owner other : ℤ}
    (hfound : (Function.update before.approvals owner none other).isSome) :
    (before.approvals other).isSome ∨ before.HasApprovedCase other := by
  by_cases hsame : other = owner
  case pos =>
    rw [hsame, Function.update_self] at hfound
    cases hfound
  case neg =>
    rw [Function.update_of_ne hsame] at hfound
    exact .inl hfound

/-- A customer without a profile gets one that is not verified. -/
theorem find?_withProfile (hnumbered : before.Numbered) {owner msisdn : ℤ} {profile : Profile}
    (hprofile : (before.withProfile owner).find? msisdn = some profile) :
    before.kyc.profiles.find? msisdn = some profile ∨
      profile.kycStatus ≠ 1 ∧ ¬ before.HasApprovedCase msisdn := by
  rw [withProfile, Table.find?_upsert] at hprofile
  split at hprofile
  case isTrue =>
    cases hfound : before.kyc.profiles.find? msisdn with
    | none =>
      rw [hfound] at hprofile
      cases hprofile
      refine .inr ⟨zero_ne_one, fun happroved => ?_⟩
      simpa [hfound] using hnumbered.profile happroved
    | some old =>
      rw [hfound] at hprofile
      exact .inl hprofile
  case isFalse => exact .inl hprofile

theorem isSome_withProfile {owner msisdn : ℤ}
    (hprofile : (before.kyc.profiles.find? msisdn).isSome ∨ msisdn = owner) :
    ((before.withProfile owner).find? msisdn).isSome := by
  rw [withProfile, Table.find?_upsert]
  split
  case isTrue => rfl
  case isFalse hne => exact hprofile.resolve_right hne

/-- A new draft of a customer that has a profile now, or no number, keeps the book. -/
theorem Book.drafted (hbook : before.Book) {draft : Case} {cases : Table Case.id}
    (hinsert : before.kyc.cases.insert? draft = some cases) (hstatus : draft.status = .draft)
    (howner : draft.customerMsisdn = none ∨ draft.customerId = none)
    (hknown : ∀ msisdn ∈ draft.customerMsisdn, (after.kyc.profiles.find? msisdn).isSome)
    (hcases : after.kyc.cases = cases) (hreviews : after.kyc.reviews = before.kyc.reviews)
    (hregistry : after.registry = before.registry)
    (happrovals : after.approvals = before.approvals)
    (hprofiles : ∀ msisdn profile, after.kyc.profiles.find? msisdn = some profile →
      before.kyc.profiles.find? msisdn = some profile ∨
        profile.kycStatus ≠ 1 ∧ ¬ before.HasApprovedCase msisdn)
    (hkept : ∀ msisdn, (before.kyc.profiles.find? msisdn).isSome →
      (after.kyc.profiles.find? msisdn).isSome) :
    after.Book ∧ KeepsDecisions before after := by
  have hwrite : CaseWrite after.kyc.profiles before.kyc.cases after.kyc.cases :=
    .added (hcases ▸ hinsert) hstatus howner hknown
  refine ⟨?_, keepsDecisions_of_write hwrite⟩
  refine hbook.of_write hwrite hregistry ?_ hkept ?_ ?_ ?_
  · refine hbook.agree.of_kept (hasApprovedCase_of_write hwrite hregistry) ?_
    intro msisdn profile hprofile
    exact (hprofiles msisdn profile hprofile).imp_right .inl
  · exact hbook.locks.of_inserted hinsert hcases hreviews
  · intro review hreview
    exact .inl (hreviews ▸ hreview)
  · intro owner hfound
    exact .inl (happrovals ▸ hfound)

theorem Book.startKyc (hbook : before.Book) {instanceId : ℕ} {resumeTokenHash : String} {id : ℕ}
    {documentType : DocumentType} {now : ℤ}
    (hstep : before.startKyc instanceId resumeTokenHash id documentType now = some after) :
    after.Book ∧ KeepsDecisions before after := by
  unfold Accounts.startKyc at hstep
  split at hstep
  case h_1 => cases hstep
  case h_2 =>
    split at hstep
    case h_1 =>
      cases hstep
      exact hbook.of_same rfl rfl rfl rfl fun _ hfound => .inl hfound
    case h_2 =>
      simp only [Option.bind_eq_some_iff, Option.map_eq_some_iff] at hstep
      obtain ⟨cases, hinsert, links, _, rfl⟩ := hstep
      exact hbook.drafted hinsert rfl (.inl rfl) (fun _ hnone => nomatch hnone) rfl rfl rfl rfl
        (fun _ _ hprofile => .inl hprofile) fun _ hfound => hfound

theorem Book.createCustomer (hbook : before.Book) {customer : NewCustomer}
    {circumstances : Circumstances} {id : ℕ} {documentType : DocumentType} {actor : String}
    {now : ℤ} (hstep : before.createCustomer customer circumstances id documentType actor now =
      some after) : after.Book ∧ KeepsDecisions before after := by
  unfold Accounts.createCustomer at hstep
  dsimp only at hstep
  split at hstep
  case h_1 => cases hstep
  case h_2 directory _ =>
    split at hstep
    case isTrue =>
      cases hstep
      exact hbook.of_same rfl rfl rfl rfl fun _ hfound => isSome_update_approvedKycCase hfound
    case isFalse =>
      rw [Option.ite_none_left_eq_some, Option.map_eq_some_iff] at hstep
      obtain ⟨_, found, hfound, rfl⟩ := hstep
      unfold awaitedCase at hfound
      split at hfound
      case h_1 =>
        simp only [Option.ite_none_right_eq_some, Option.some.injEq] at hfound
        obtain ⟨_, rfl⟩ := hfound
        exact hbook.of_profiles rfl rfl rfl
          (fun _ _ hprofile => (find?_withProfile hbook.numbered hprofile).imp_right .inl)
          (fun _ hfound => isSome_withProfile (.inl hfound)) fun _ hfound => .inl hfound
      case h_2 =>
        obtain ⟨cases, hinsert, rfl⟩ := Option.map_eq_some_iff.mp hfound
        refine hbook.drafted hinsert rfl (.inr rfl) ?_ rfl rfl rfl rfl
          (fun _ _ hprofile => find?_withProfile hbook.numbered hprofile)
          fun _ hfound => isSome_withProfile (.inl hfound)
        rintro msisdn ⟨rfl⟩
        exact isSome_withProfile (.inr rfl)

/-- An account that is opened verifies the profile of a customer with an approved case only. -/
theorem find?_openAccount (hbook : before.Book) {owner walletMsisdn msisdn : ℤ}
    {profile : Profile}
    (hprofile : (before.openAccount owner walletMsisdn).profiles.find? msisdn = some profile) :
    before.kyc.profiles.find? msisdn = some profile ∨
      profile.kycStatus ≠ 1 ∧ ¬ before.HasApprovedCase msisdn ∨
        profile.kycStatus = 1 ∧ before.HasApprovedCase msisdn := by
  simp only [openAccount, Table.find?_modify] at hprofile
  by_cases hchanged : msisdn = owner ∧ (before.approvals owner).isSome
  case pos =>
    obtain ⟨rfl, happroved⟩ := hchanged
    rw [if_pos rfl] at hprofile
    obtain ⟨old, _, rfl⟩ := Option.map_eq_some_iff.mp hprofile
    refine .inr (.inr ⟨?_, hbook.approvals msisdn happroved⟩)
    simp [happroved]
  case neg =>
    have hsame : (before.withProfile owner).find? msisdn = some profile := by
      split at hprofile
      case isTrue howner =>
        have hnone : ¬ (before.approvals owner).isSome := fun hfound => hchanged ⟨howner, hfound⟩
        simpa [hnone] using hprofile
      case isFalse => exact hprofile
    exact (find?_withProfile hbook.numbered hsame).imp_right .inl

/-- The commit of a call that opens a wallet keeps the book. -/
theorem Book.finish (hbook : before.Book) {owner : ℤ}
    (hstep : before.finish owner = some after) :
    after.Book ∧ KeepsDecisions before after := by
  unfold Accounts.finish at hstep
  split at hstep
  case h_1 clearance wallet _ _ =>
    obtain ⟨directory, _, rfl⟩ := Option.map_eq_some_iff.mp hstep
    split
    case h_1 =>
      refine hbook.of_profiles rfl rfl rfl (fun _ _ hprofile => find?_openAccount hbook hprofile)
        ?_ fun _ hfound => isSome_update_none hfound
      intro msisdn hfound
      simp only [openAccount, Table.find?_modify]
      split
      case isTrue =>
        rw [Option.isSome_map]
        exact isSome_withProfile (.inl hfound)
      case isFalse => exact isSome_withProfile (.inl hfound)
    case h_2 => exact hbook.of_same rfl rfl rfl rfl fun _ hfound => isSome_update_none hfound
  case h_2 => cases hstep

/-! ## The service, the wallets and the journeys -/

theorem Book.step (hbook : before.Book) {event : AccountEvent} (hsteady : before.Steady event)
    (hstep : accountStep before event = some after) :
    after.Book ∧ KeepsDecisions before after := by
  have hsame : ∀ {next : Accounts}, next.kyc = before.kyc → next.registry = before.registry →
      next.approvals = before.approvals → next.Book ∧ KeepsDecisions before next := by
    intro next hkyc hregistry happrovals
    refine hbook.of_same ?_ ?_ ?_ hregistry ?_
    · rw [hkyc]
    · rw [hkyc]
    · rw [hkyc]
    · exact fun _ hfound => .inl (happrovals ▸ hfound)
  cases event with
  | kyc event =>
    obtain ⟨kyc, hkyc, rfl⟩ := Option.map_eq_some_iff.mp hstep
    by_cases hevent : ∃ review, event = .commitReview review
    case pos =>
      obtain ⟨review, rfl⟩ := hevent
      obtain ⟨hreview, row, hrow, ⟨_, _, rfl⟩ | ⟨journeys, hjourneys, rfl⟩⟩ :=
        commitReview_cases hkyc
      · exact hbook.undone hreview
      · apply hbook.reviewed hreview hrow (hsteady ?_ row hrow)
        rw [Commits, hjourneys]
        rfl
    case neg => exact hbook.kyc hsteady hkyc fun review hreview => hevent ⟨review, hreview⟩
  | createCustomer customer circumstances id documentType actor now =>
    exact hbook.createCustomer hstep
  | completeCustomerAccountOpening owner circumstances =>
    simp only [accountStep, Accounts.completeCustomerAccountOpening] at hstep
    split at hstep
    case h_1 => cases hstep
    case h_2 opening _ =>
      obtain ⟨directory, _, rfl⟩ := Option.map_eq_some_iff.mp hstep
      refine hbook.of_same rfl rfl rfl rfl fun other hfound => ?_
      dsimp only at hfound
      split at hfound
      case isTrue => exact .inl hfound
      case isFalse => exact isSome_update_approvedKycCase hfound
  | createAdditional owner request circumstances number =>
    obtain ⟨directory, _, rfl⟩ := Option.map_eq_some_iff.mp hstep
    exact hsame rfl rfl rfl
  | insertWallet owner =>
    simp only [accountStep, Accounts.insertWallet] at hstep
    split at hstep
    case h_1 => cases hstep
    case h_2 =>
      simp only [Option.ite_none_right_eq_some, Option.some.injEq] at hstep
      obtain ⟨_, rfl⟩ := hstep
      exact hsame rfl rfl rfl
  | finish owner => exact hbook.finish hstep
  | rollback owner =>
    cases hstep
    exact hbook.of_same rfl rfl rfl rfl fun _ hfound => isSome_update_none hfound
  | applyWalletType walletCode walletType =>
    cases hstep
    exact hsame rfl rfl rfl
  | changeWalletCode walletMsisdn walletCode =>
    simp only [accountStep, Accounts.changeWalletCode] at hstep
    split at hstep
    case h_1 => cases hstep
    case h_2 =>
      simp only [Option.ite_none_right_eq_some, Option.some.injEq] at hstep
      obtain ⟨_, rfl⟩ := hstep
      exact hsame rfl rfl rfl
  | startKyc instanceId resumeTokenHash id documentType now => exact hbook.startKyc hstep
  | allocateWallet instanceId resumeTokenHash now =>
    obtain ⟨found, _, rfl⟩ := Option.map_eq_some_iff.mp hstep
    exact hsame rfl rfl rfl
  | prepareAllocation customerId =>
    obtain ⟨customer, hcustomer, rfl⟩ := prepareAllocation_cases hstep
    exact hbook.allocated (Table.find?_eq_some.mp hcustomer).1 (hsteady customer hcustomer)
  | advance request =>
    obtain ⟨journeys, _, rfl⟩ := Option.map_eq_some_iff.mp hstep
    exact hbook.of_same rfl rfl rfl rfl fun _ hfound => .inl hfound

/-! ## Steps that break an agreement -/

/-- A case that is given a status beside the decisions was none of the decided. -/
theorem not_keepsDecisions {caseId : ℕ} {status : CaseStatus} (hstatus : ¬ status.Decided)
    (hdecided : ¬ before.kyc.Undecided caseId)
    (hcase : ∀ row, before.kyc.cases.find? caseId = some row →
      ∃ moved, after.kyc.cases.find? caseId = some moved ∧ moved.status = status) :
    ¬ KeepsDecisions before after := by
  intro hkeeps
  simp only [State.Undecided, not_forall, not_not] at hdecided
  obtain ⟨row, hrow, hdecided⟩ := hdecided
  obtain ⟨hmem, hid⟩ := Table.find?_eq_some.mp hrow
  obtain ⟨kept, hkept, hsame⟩ := hkeeps row hmem hdecided
  obtain ⟨moved, hmoved, hmovedStatus⟩ := hcase row hrow
  rw [hid, hmoved] at hkept
  cases hkept
  rw [← hsame, hmovedStatus] at hdecided
  exact hstatus hdecided

/-- A review that is not informed parts the profile from the cases. -/
theorem Book.not_agree_reviewed (hbook : before.Book) (hreview : review ∈ before.kyc.reviews)
    (hrow : before.kyc.cases.find? review.caseId = some row)
    (hinformed : ¬ before.Informed review row) :
    ¬ (before.reviewed review row journeys).ProfilesAgree := by
  intro hagree
  obtain ⟨awaited, hawaited, hawaits⟩ := hbook.locks.awaited review hreview
  rw [hrow] at hawaited
  cases hawaited
  have happroved := hasApprovedCase_reviewed journeys hrow hawaits
  have hnumbered : (before.reviewed review row journeys).Numbered := hbook.numbered.reviewed
  have hstatus : ∀ msisdn, (before.reviewed review row journeys).HasApprovedCase msisdn →
      ∃ profile, (before.reviewed review row journeys).kyc.profiles.find? msisdn = some profile ∧
        profile.kycStatus = 1 := by
    intro msisdn hsome
    obtain ⟨profile, hprofile⟩ := Option.isSome_iff_exists.mp (hnumbered.profile hsome)
    exact ⟨profile, hprofile, (hagree msisdn profile hprofile).mpr hsome⟩
  apply hinformed
  constructor
  · intro msisdn hnumber hbefore
    obtain ⟨profile, hprofile, hone⟩ := hstatus msisdn ((happroved msisdn).mpr (.inl hbefore))
    have hwritten := profile_reviewed hprofile
    rw [if_pos (show row.customerMsisdn = some msisdn from hnumber)] at hwritten
    exact profileStatus_eq_one.mp (hwritten.symm.trans hone)
  · intro haction customer hcustomer hid msisdn hlegacy
    by_contra hnone
    rw [not_or] at hnone
    obtain ⟨profile, hprofile, hone⟩ := hstatus msisdn
      ((happroved msisdn).mpr (.inr ⟨haction, .inr ⟨customer, hcustomer, hid, hlegacy⟩⟩))
    have hkept := profile_reviewed hprofile
    rw [if_neg hnone.1] at hkept
    exact hnone.2 ((hbook.agree msisdn profile hkept).mp hone)

/-- An allocation that is not entitled parts the profile from the cases. -/
theorem Book.not_agree_allocated (hbook : before.Book)
    (hcustomer : customer ∈ before.registry.rows) (hentitled : ¬ before.Entitled customer) :
    ¬ (before.allocated customer).ProfilesAgree := by
  intro hagree
  have happroved := hasApprovedCase_allocated hbook.numbered hcustomer
  apply hentitled
  constructor
  · intro hnone
    have hsome : ((before.allocated customer).kyc.profiles.find? customer.phone).isSome :=
      isSome_profile_allocated (.inr rfl)
    obtain ⟨profile, hprofile⟩ := Option.isSome_iff_exists.mp hsome
    have hone : profile.kycStatus = 1 := by
      rcases profile_allocated hprofile with hold | ⟨_, _, hone⟩
      · rw [hold] at hnone
        cases hnone
      · exact hone
    have hcause := (happroved customer.phone).mp ((hagree _ profile hprofile).mp hone)
    exact hcause.imp id And.right
  · intro profile hprofile hzero hown
    have hkept : (before.allocated customer).kyc.profiles.find? customer.phone =
        some profile := by
      refine (Table.find?_upsert _ _ _ _ _).trans ?_
      rw [if_pos rfl, hprofile]
      rfl
    apply hzero
    exact (hagree _ profile hkept).mpr ((happroved customer.phone).mpr (.inr ⟨rfl, hown⟩))

/-- A step that is not steady changes a decision or parts a profile from the cases. -/
theorem Book.breaks (hbook : before.Book) {event : AccountEvent} (hsteady : ¬ before.Steady event)
    (hstep : accountStep before event = some after) :
    ¬ (KeepsDecisions before after ∧ after.ProfilesAgree) := by
  rintro ⟨hkeeps, hagree⟩
  cases event with
  | kyc event =>
    obtain ⟨kyc, hkyc, rfl⟩ := Option.map_eq_some_iff.mp hstep
    cases event with
    | storeResult call result acknowledged =>
      obtain ⟨_, hkyc⟩ := Option.ite_none_right_eq_some.mp hkyc
      cases hkyc
      refine not_keepsDecisions (by decide : ¬ CaseStatus.manualReview.Decided) hsteady ?_
        hkeeps
      intro row hrow
      exact ⟨row.verified result, Table.find?_modify_of_find? hrow (Case.verified result)
        (Case.verified_id _), rfl⟩
    | recordFailure call =>
      obtain ⟨_, hkyc⟩ := Option.ite_none_right_eq_some.mp hkyc
      cases hkyc
      refine not_keepsDecisions (by decide : ¬ CaseStatus.failed.Decided) hsteady ?_ hkeeps
      intro row hrow
      exact ⟨row.inStatus .failed, Table.find?_modify_of_find? hrow (Case.inStatus .failed)
        (Case.inStatus_id _), rfl⟩
    | commitReview review =>
      obtain ⟨hreview, row, hrow, hend⟩ := commitReview_cases hkyc
      apply hsteady
      intro hcommits found hfound
      rw [hrow] at hfound
      cases hfound
      by_contra hinformed
      rcases hend with ⟨error, herror, _⟩ | ⟨journeys, _, rfl⟩
      · rw [Commits, herror] at hcommits
        cases hcommits
      · exact hbook.not_agree_reviewed hreview hrow hinformed hagree
    | _ => exact absurd trivial hsteady
  | prepareAllocation customerId =>
    obtain ⟨customer, hcustomer, rfl⟩ := prepareAllocation_cases hstep
    apply hsteady
    intro found hfound
    rw [hcustomer] at hfound
    cases hfound
    by_contra hentitled
    exact hbook.not_agree_allocated (Table.find?_eq_some.mp hcustomer).1 hentitled hagree
  | _ => exact absurd trivial hsteady

end

end Accounts

/-! ## Runs -/

theorem KeepsDecisions.refl (accounts : Accounts) : KeepsDecisions accounts accounts :=
  fun row hrow _ => ⟨row, Table.find?_key hrow, rfl⟩

theorem KeepsDecisions.trans {before middle after : Accounts}
    (hearlier : KeepsDecisions before middle) (hlater : KeepsDecisions middle after) :
    KeepsDecisions before after := by
  intro row hrow hdecided
  obtain ⟨kept, hkept, hstatus⟩ := hearlier row hrow hdecided
  obtain ⟨hmem, hid⟩ := Table.find?_eq_some.mp hkept
  obtain ⟨last, hlast, hsame⟩ := hlater kept hmem (hstatus ▸ hdecided)
  exact ⟨last, hid ▸ hlast, hsame.trans hstatus⟩

/-- Tables that agree, whose numbers have their profiles, with no review and no call that opens a
wallet under way. -/
structure Accounts.Quiet (accounts : Accounts) : Prop where
  agree : accounts.ProfilesAgree
  numbered : accounts.Numbered
  reviews : accounts.kyc.reviews = []
  approvals : ∀ owner, accounts.approvals owner = none

theorem Accounts.Quiet.book {start : Accounts} (hquiet : start.Quiet) : start.Book where
  agree := hquiet.agree
  numbered := hquiet.numbered
  locks := by
    constructor
    · intro review hreview
      rw [hquiet.reviews] at hreview
      cases hreview
    · rw [hquiet.reviews]
      exact List.nodup_nil
  reviews := by
    intro review hreview
    rw [hquiet.reviews] at hreview
    cases hreview
  approvals := by
    intro owner howner
    rw [hquiet.approvals owner] at howner
    cases howner

/-- While every step is steady, profiles agree with the cases and decided cases keep their status;
and the first step that is not changes a decision or parts a profile from the cases. -/
theorem decisions_agree {start : Accounts} (hquiet : start.Quiet) :
    (∀ middle, ReachesUnder accountStep Accounts.Steady start middle → middle.ProfilesAgree ∧
      ∀ finish, ReachesUnder accountStep Accounts.Steady middle finish →
        KeepsDecisions middle finish) ∧
    ∀ before event after, ReachesUnder accountStep Accounts.Steady start before →
      accountStep before event = some after → ¬ before.Steady event →
        ¬ (KeepsDecisions before after ∧ after.ProfilesAgree) := by
  have hbook : ∀ state, ReachesUnder accountStep Accounts.Steady start state → state.Book :=
    fun state hrun => hrun.preserves Accounts.Book
      (fun _ _ _ hbefore hsteady hstep => (hbefore.step hsteady hstep).1) hquiet.book
  constructor
  · intro middle hrun
    refine ⟨(hbook middle hrun).agree, fun finish hlater => ?_⟩
    have hboth : finish.Book ∧ KeepsDecisions middle finish := by
      apply hlater.preserves (fun state => state.Book ∧ KeepsDecisions middle state)
      · intro before event after hbefore hsteady hstep
        obtain ⟨hafter, hkeeps⟩ := hbefore.1.step hsteady hstep
        exact ⟨hafter, hbefore.2.trans hkeeps⟩
      · exact ⟨hbook middle hrun, .refl middle⟩
    exact hboth.2
  · intro before event after hrun hstep hsteady
    exact (hbook before hrun).breaks hsteady hstep

/-- A customer with a profile and without a case. -/
def newcomer : Accounts where
  kyc :=
    { cases := .empty
      profiles := .single { msisdn := 7, kycStatus := 0 }
      requests := .empty
      links := .empty
      journeys :=
        { versions := .empty
          instances := .empty
          customers := .empty } }
  directory := Directory.empty
  walletTypes := fun _ => none
  registry := .empty

theorem newcomer_quiet : newcomer.Quiet where
  agree := by
    intro msisdn profile hprofile
    obtain ⟨hmem, rfl⟩ := Table.find?_eq_some.mp hprofile
    cases List.mem_singleton.mp hmem
    exact iff_of_false zero_ne_one fun happroved => by
      obtain ⟨_, hrow, _⟩ := happroved
      cases hrow
  numbered :=
    { known := by
        intro row hrow
        cases hrow
      legacy := by
        intro customer hcustomer
        cases hcustomer
      phone := by
        intro row hrow
        cases hrow }
  reviews := rfl
  approvals := fun _ => rfl

/-- The way of a case to its approval, after a second transaction of the verification that was
acknowledged or not. -/
def untilApproved (acknowledged : Bool) : List AccountEvent :=
  ([.create 1 { customerMsisdn := 7, documentType := .passport } "operator" 0,
    .upload { caseId := 1, role := .passport, sha256 := "front" },
    .storeDocument { document := { caseId := 1, role := .passport, sha256 := "front" } },
    .upload { caseId := 1, role := .selfie, sha256 := "selfie" },
    .storeDocument { document := { caseId := 1, role := .selfie, sha256 := "selfie" } },
    .submit 1,
    .storeResult { caseId := 1, number := 1 } { score := 80, screening := .clear } acknowledged,
    .review 1 .approve "checker" 1,
    .commitReview
      { caseId := 1
        action := .approve
        actor := "checker"
        approvedCaseId := some 1
        now := 1 }] : List Event).map .kyc

/-- The approval of a case verifies the profile, and both last. -/
theorem decisions_agree_approved : ∃ middle,
    ReachesUnder accountStep Accounts.Steady newcomer middle ∧
    middle.HasApprovedCase 7 ∧ middle.ProfilesAgree ∧
      ∀ finish, ReachesUnder accountStep Accounts.Steady middle finish →
        KeepsDecisions middle finish := by
  have hany : (runInputs (guardedStep accountStep Accounts.Steady) newcomer
      (untilApproved true)).any (fun state => decide (state.HasApprovedCase 7)) := by
    decide +kernel
  obtain ⟨middle, hrun, hfacts⟩ := (Option.any_eq_true _ _).mp hany
  have hreaches := (Reaches.of_runInputs hrun).under
  exact ⟨middle, hreaches, of_decide_eq_true hfacts,
    (decisions_agree newcomer_quiet).1 middle hreaches⟩

/-- When the commit of a verification is not acknowledged, an approved case fails and leaves a
verified profile without an approved case. -/
theorem approved_case_fails : newcomer.Quiet ∧ ∃ middle finish,
    Reaches accountStep newcomer middle ∧ Reaches accountStep middle finish ∧
    (∃ row ∈ middle.kyc.cases.rows, row.id = 1 ∧ row.status = .approved) ∧
    (∃ row ∈ finish.kyc.cases.rows, row.id = 1 ∧ row.status = .failed) ∧
    (∃ profile ∈ finish.kyc.profiles.rows, profile.msisdn = 7 ∧ profile.kycStatus = 1) ∧
    ¬ finish.HasApprovedCase 7 := by
  have hany : (runInputs accountStep newcomer (untilApproved false)).any (fun middle =>
      (decide (∃ row ∈ middle.kyc.cases.rows, row.id = 1 ∧ row.status = .approved)) &&
      (runInputs accountStep middle
        [.kyc (.noteFailure { caseId := 1, number := 1, stage := .caught }),
          .kyc (.recordFailure { caseId := 1, number := 1, stage := .noted })]).any
        (fun finish => decide
          ((∃ row ∈ finish.kyc.cases.rows, row.id = 1 ∧ row.status = .failed) ∧
            (∃ profile ∈ finish.kyc.profiles.rows, profile.msisdn = 7 ∧ profile.kycStatus = 1) ∧
            ¬ finish.HasApprovedCase 7))) := by
    decide +kernel
  obtain ⟨middle, hfirst, hboth⟩ := (Option.any_eq_true _ _).mp hany
  rw [Bool.and_eq_true] at hboth
  obtain ⟨finish, hlast, hfacts⟩ := (Option.any_eq_true _ _).mp hboth.2
  exact ⟨newcomer_quiet, middle, finish, Reaches.of_runInputs hfirst, Reaches.of_runInputs hlast,
    of_decide_eq_true hboth.1, of_decide_eq_true hfacts⟩

end Finify.Kyc
