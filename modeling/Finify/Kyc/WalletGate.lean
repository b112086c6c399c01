/-
# The KYC gate on wallets

Whichever call writes the type or the owner of a customer's wallet, the trigger has the last word
on it; and a request to open an account is OPENED in the transaction that inserts the wallet.
-/

import Finify.Kyc.Accounts

namespace Finify.Kyc

open Finify.Foundations Finify.Wallets

/-! ## What is kept -/

/-- The type did not need KYC, or the owner had an approved case. -/
def Clearance.Compliant (clearance : Clearance) : Prop :=
  clearance.kycNeeded = false ∨ clearance.kycApproved = true

instance (clearance : Clearance) : Decidable clearance.Compliant :=
  inferInstanceAs (Decidable (_ ∨ _))

/-- The observation is of the type and the owner that the wallet has. -/
def Clearance.Of (wallet : Wallet) (clearance : Clearance) : Prop :=
  clearance.walletCode = wallet.walletCode ∧ clearance.ownerMsisdn = wallet.ownerMsisdn

namespace Accounts

/-- Every wallet of a customer complied when its type or its owner was last written. -/
def Cleared (accounts : Accounts) : Prop :=
  ∀ wallet ∈ accounts.directory.wallets.rows, wallet.isCustomer →
    ∃ clearance, accounts.clearances wallet.walletMsisdn = some clearance ∧
      clearance.Of wallet ∧ clearance.Compliant

/-- Every opened request has a wallet of its customer. -/
def OpenedWithWallet (accounts : Accounts) : Prop :=
  ∀ owner request, accounts.kyc.requests.find? owner = some request → request.status = .opened →
    ∃ wallet ∈ accounts.directory.wallets.rows,
      request.walletMsisdn = some wallet.walletMsisdn ∧ wallet.OwnedBy owner

/-- No call that opens a wallet is under way. -/
structure Idle (accounts : Accounts) : Prop where
  pending : ∀ owner, accounts.directory.pending owner = none
  inserted : ∀ owner, accounts.inserted owner = none

/-- The wallets and requests are in order, and so are the calls under way: they open wallets of
the customer whose lock they hold, and what they have inserted complied. -/
structure Gated (accounts : Accounts) : Prop where
  cleared : accounts.Cleared
  opened : accounts.OpenedWithWallet
  owned : ∀ owner wallet, accounts.walletOf owner = some wallet → wallet.OwnedBy owner
  inserted : ∀ owner clearance, accounts.inserted owner = some clearance →
    ∃ wallet, accounts.walletOf owner = some wallet ∧ clearance.Of wallet ∧
      (wallet.isCustomer → clearance.Compliant)

end Accounts

/-! ## The trigger -/

/-- A row of a customer that the trigger lets pass complies. -/
theorem compliant_of_enforceWalletKyc {accounts : Accounts} {wallet : Wallet}
    (hpasses : accounts.enforceWalletKyc wallet) (hcustomer : wallet.isCustomer) :
    (accounts.clearance wallet).Compliant := by
  simp only [Accounts.enforceWalletKyc, hcustomer, Bool.not_true, Bool.false_eq_true, if_false]
    at hpasses
  cases hneeded : accounts.kycNeeded wallet.walletCode with
  | false => exact .inl hneeded
  | true =>
    right
    obtain ⟨walletType, htype, hneeds⟩ := (Option.any_eq_true _ _).mp hneeded
    rw [htype] at hpasses
    simp only [Option.map_some, of_decide_eq_true hneeds, Option.getD_some] at hpasses
    exact hpasses

/-! ## The calls -/

/-- A call that begins leaves the wallets and takes a free lock for a wallet of its customer. -/
structure Begins (before after : Directory) (owner : ℤ) : Prop where
  wallets : after.wallets = before.wallets
  others : ∀ other, other ≠ owner → after.pending other = before.pending other
  own : after.pending owner = before.pending owner ∨ before.pending owner = none ∧
    ∃ call, after.pending owner = some call ∧ ∀ wallet, (∃ opening, call = .opening wallet opening) ∨
      call = .adding wallet → wallet.OwnedBy owner

section

variable {before after : Directory} {owner : ℤ}

theorem Begins.of_setPending (hfree : before.Free owner) {call : OwnerCall}
    (hcall : ∀ wallet, (∃ opening, call = .opening wallet opening) ∨ call = .adding wallet →
      wallet.OwnedBy owner) : Begins before (before.setPending owner (some call)) owner where
  wallets := rfl
  others := by
    intro other hne
    rw [Directory.setPending_pending, if_neg hne]
  own := by
    right
    refine ⟨Option.isNone_iff_eq_none.mp hfree, call, ?_, hcall⟩
    rw [Directory.setPending_pending, if_pos rfl]

theorem createCustomer_begins {customer : NewCustomer} {findings : Findings}
    (hstep : before.createCustomer customer findings = some after) :
    Begins before after customer.msisdn := by
  dsimp only [Directory.createCustomer] at hstep
  obtain ⟨hfree, hstep⟩ := Option.ite_none_right_eq_some.mp hstep
  obtain ⟨_, hstep⟩ := Option.ite_none_left_eq_some.mp hstep
  obtain ⟨_, hstep⟩ := Option.ite_none_left_eq_some.mp hstep
  obtain ⟨kycNeeded, _, hstep⟩ := Option.bind_eq_some_iff.mp hstep
  obtain ⟨_, hstep⟩ := Option.ite_none_left_eq_some.mp hstep
  split at hstep
  case isTrue =>
    obtain ⟨_, hstep⟩ := Option.ite_none_left_eq_some.mp hstep
    cases hstep
    exact ⟨rfl, fun _ _ => rfl, .inl rfl⟩
  case isFalse =>
    cases hstep
    apply Begins.of_setPending hfree
    rintro wallet (⟨opening, hopening⟩ | hadding)
    · cases hopening
      exact ⟨rfl, rfl⟩
    · cases hadding

theorem completeCustomerAccountOpening_begins {findings : Findings}
    (hstep : before.completeCustomerAccountOpening owner findings = some after) :
    Begins before after owner := by
  unfold Directory.completeCustomerAccountOpening at hstep
  obtain ⟨hfree, hstep⟩ := Option.ite_none_right_eq_some.mp hstep
  obtain ⟨_, hstep⟩ := Option.ite_none_right_eq_some.mp hstep
  obtain ⟨opening, _, hstep⟩ := Option.bind_eq_some_iff.mp hstep
  split at hstep
  case isTrue =>
    cases hstep
    exact ⟨rfl, fun _ _ => rfl, .inl rfl⟩
  case isFalse =>
    obtain ⟨kycNeeded, _, hstep⟩ := Option.bind_eq_some_iff.mp hstep
    obtain ⟨_, hstep⟩ := Option.ite_none_left_eq_some.mp hstep
    obtain ⟨_, hstep⟩ := Option.ite_none_left_eq_some.mp hstep
    obtain ⟨_, hstep⟩ := Option.ite_none_left_eq_some.mp hstep
    cases hstep
    apply Begins.of_setPending hfree
    rintro wallet (⟨opening, hopening⟩ | hadding)
    · cases hopening
      exact ⟨rfl, rfl⟩
    · cases hadding

theorem createAdditionalForActor_begins {number : ℤ} {request : NewWallet} {findings : Findings}
    (hstep : before.createAdditionalForActor owner request findings number = some after) :
    Begins before after owner := by
  unfold Directory.createAdditionalForActor at hstep
  obtain ⟨hfree, hstep⟩ := Option.ite_none_right_eq_some.mp hstep
  obtain ⟨_, hstep⟩ := Option.ite_none_left_eq_some.mp hstep
  obtain ⟨kycNeeded, _, hstep⟩ := Option.bind_eq_some_iff.mp hstep
  obtain ⟨_, hstep⟩ := Option.ite_none_left_eq_some.mp hstep
  obtain ⟨_, hstep⟩ := Option.ite_none_left_eq_some.mp hstep
  obtain ⟨main, _, hstep⟩ := Option.bind_eq_some_iff.mp hstep
  dsimp only at hstep
  obtain ⟨_, hstep⟩ := Option.ite_none_left_eq_some.mp hstep
  cases hstep
  apply Begins.of_setPending hfree
  rintro wallet (⟨opening, hopening⟩ | hadding)
  · cases hopening
  · cases hadding
    exact ⟨rfl, rfl⟩

/-- The wallet that a call inserts is the only thing that its commit adds. -/
theorem finish_inserts {wallet : Wallet}
    (hcall : (∃ opening, before.pending owner = some (.opening wallet opening)) ∨
      before.pending owner = some (.adding wallet))
    (hstep : before.finish owner = some after) :
    before.wallets.find? wallet.walletMsisdn = none ∧
      after.wallets.rows = before.wallets.rows ++ [wallet] ∧
      after.pending = Function.update before.pending owner none := by
  obtain ⟨call, hpending, hstep⟩ := Option.bind_eq_some_iff.mp hstep
  have hinserted : ∀ inserted, before.insertWallet wallet = some inserted →
      before.wallets.find? wallet.walletMsisdn = none ∧
        inserted.wallets.rows = before.wallets.rows ++ [wallet] ∧
        inserted.pending = before.pending := by
    intro inserted hinsert
    unfold Directory.insertWallet at hinsert
    obtain ⟨_, hinsert⟩ := Option.ite_none_left_eq_some.mp hinsert
    obtain ⟨wallets, hwallets, rfl⟩ := Option.map_eq_some_iff.mp hinsert
    exact ⟨(Table.insert?_eq_some hwallets).1, (Table.insert?_eq_some hwallets).2, rfl⟩
  rcases hcall with ⟨opening, hopening⟩ | hadding
  · rw [hopening] at hpending
    cases hpending
    obtain ⟨inserted, hinsert, hstep⟩ := Option.bind_eq_some_iff.mp hstep
    obtain ⟨hfresh, hrows, hcalls⟩ := hinserted inserted hinsert
    cases hstep
    refine ⟨hfresh, hrows, ?_⟩
    rw [← hcalls]
    rfl
  · rw [hadding] at hpending
    cases hpending
    obtain ⟨inserted, hinsert, hstep⟩ := Option.bind_eq_some_iff.mp hstep
    obtain ⟨hfresh, hrows, hcalls⟩ := hinserted inserted hinsert
    cases hstep
    refine ⟨hfresh, hrows, ?_⟩
    rw [← hcalls]
    rfl

end

namespace Accounts

section

variable {before after : Accounts}

theorem walletOf_congr {owner : ℤ}
    (hpending : after.directory.pending owner = before.directory.pending owner) :
    after.walletOf owner = before.walletOf owner := by
  unfold walletOf
  rw [hpending]

theorem walletOf_eq_some {owner : ℤ} {wallet : Wallet}
    (hwallet : before.walletOf owner = some wallet) :
    (∃ opening, before.directory.pending owner = some (.opening wallet opening)) ∨
      before.directory.pending owner = some (.adding wallet) := by
  unfold walletOf at hwallet
  split at hwallet
  case h_1 found opening hpending =>
    cases hwallet
    exact .inl ⟨opening, hpending⟩
  case h_2 found hpending =>
    cases hwallet
    exact .inr hpending
  case h_3 => cases hwallet

/-! ## Steps that insert nothing -/

/-- Steps that leave the wallets and the calls that open them. -/
theorem Gated.of_same (hgated : before.Gated)
    (hwallets : after.directory.wallets = before.directory.wallets)
    (hpending : after.directory.pending = before.directory.pending)
    (hinserted : after.inserted = before.inserted)
    (hclearances : after.clearances = before.clearances) (hopened : after.OpenedWithWallet) :
    after.Gated where
  cleared := by
    rw [Cleared, hwallets, hclearances]
    exact hgated.cleared
  opened := hopened
  owned := by
    intro owner wallet hwallet
    rw [walletOf_congr (congrFun hpending owner)] at hwallet
    exact hgated.owned owner wallet hwallet
  inserted := by
    intro owner clearance hclearance
    rw [hinserted] at hclearance
    rw [walletOf_congr (congrFun hpending owner)]
    exact hgated.inserted owner clearance hclearance

/-- Steps that begin a call. -/
theorem Gated.of_begins (hgated : before.Gated) {owner : ℤ}
    (hbegins : Begins before.directory after.directory owner)
    (hinserted : after.inserted = before.inserted)
    (hclearances : after.clearances = before.clearances) (hopened : after.OpenedWithWallet) :
    after.Gated where
  cleared := by
    rw [Cleared, hbegins.wallets, hclearances]
    exact hgated.cleared
  opened := hopened
  owned := by
    intro other wallet hwallet
    by_cases hother : other = owner
    case neg =>
      rw [walletOf_congr (hbegins.others other hother)] at hwallet
      exact hgated.owned other wallet hwallet
    case pos =>
      subst hother
      rcases hbegins.own with hsame | ⟨_, call, hcall, howned⟩
      · rw [walletOf_congr hsame] at hwallet
        exact hgated.owned other wallet hwallet
      · apply howned wallet
        rcases walletOf_eq_some hwallet with ⟨opening, hopening⟩ | hadding
        · rw [hcall] at hopening
          exact .inl ⟨opening, Option.some.inj hopening⟩
        · rw [hcall] at hadding
          exact .inr (Option.some.inj hadding)
  inserted := by
    intro other clearance hclearance
    rw [hinserted] at hclearance
    obtain ⟨wallet, hwallet, hfacts⟩ := hgated.inserted other clearance hclearance
    refine ⟨wallet, ?_, hfacts⟩
    by_cases hother : other = owner
    case neg => rw [walletOf_congr (hbegins.others other hother), hwallet]
    case pos =>
      subst hother
      rcases hbegins.own with hsame | ⟨hfree, _⟩
      · rw [walletOf_congr hsame, hwallet]
      · rcases walletOf_eq_some hwallet with ⟨opening, hopening⟩ | hadding
        · rw [hfree] at hopening
          cases hopening
        · rw [hfree] at hadding
          cases hadding

/-! ## Requests -/

theorem OpenedWithWallet.of_requests (hopened : before.OpenedWithWallet)
    (hwallets : ∀ wallet ∈ before.directory.wallets.rows, ∀ owner, wallet.OwnedBy owner →
      ∃ kept ∈ after.directory.wallets.rows, kept.walletMsisdn = wallet.walletMsisdn ∧
        kept.OwnedBy owner)
    (hrequests : ∀ owner request, after.kyc.requests.find? owner = some request →
      request.status = .opened → before.kyc.requests.find? owner = some request) :
    after.OpenedWithWallet := by
  intro owner request hrequest hstatus
  obtain ⟨wallet, hmem, hmsisdn, howned⟩ :=
    hopened owner request (hrequests owner request hrequest hstatus) hstatus
  obtain ⟨kept, hkept, hsame, hkeptOwned⟩ := hwallets wallet hmem owner howned
  exact ⟨kept, hkept, by rw [hmsisdn, hsame], hkeptOwned⟩

theorem OpenedWithWallet.of_same (hopened : before.OpenedWithWallet)
    (hwallets : after.directory.wallets = before.directory.wallets)
    (hrequests : after.kyc.requests = before.kyc.requests) : after.OpenedWithWallet := by
  apply hopened.of_requests
  · intro wallet hmem owner howned
    exact ⟨wallet, hwallets ▸ hmem, rfl, howned⟩
  · intro owner request hrequest _
    rwa [hrequests] at hrequest

end

end Accounts

theorem reviewed_opened {caseId : ℕ} {approvedCaseId : Option ℕ} {action : ReviewAction}
    {request : OpeningRequest}
    (hopened : (request.reviewed caseId approvedCaseId action).status = .opened) :
    request.reviewed caseId approvedCaseId action = request := by
  unfold OpeningRequest.reviewed at hopened ⊢
  split
  case isTrue => rfl
  case isFalse hstatus =>
    rw [if_neg hstatus] at hopened
    simp only [requestStatus] at hopened
    split at hopened
    case isTrue => cases hopened
    case isFalse => split at hopened <;> cases hopened

/-- The KYC service opens no request. -/
theorem requests_step {before after : State} {event : Event}
    (hstep : step before event = some after) (owner : ℤ) (request : OpeningRequest)
    (hrequest : after.requests.find? owner = some request) (hopened : request.status = .opened) :
    before.requests.find? owner = some request := by
  by_cases hevent : ∃ review, event = .commitReview review
  case neg =>
    rwa [(step_leaves hstep fun review hreview => hevent ⟨review, hreview⟩).2.1] at hrequest
  case pos =>
    obtain ⟨review, rfl⟩ := hevent
    obtain ⟨_, row, _, ⟨_, _, rfl⟩ | ⟨_, _, rfl⟩⟩ := commitReview_cases hstep
    · exact hrequest
    · cases hmsisdn : row.customerMsisdn with
      | none => simpa [State.decide, State.endReview, hmsisdn] using hrequest
      | some msisdn =>
        simp only [State.decide, State.endReview, hmsisdn, Option.elim_some,
          Table.find?_modify] at hrequest
        split at hrequest
        case isTrue =>
          obtain ⟨old, hold, rfl⟩ := Option.map_eq_some_iff.mp hrequest
          rw [reviewed_opened hopened]
          exact hold
        case isFalse => exact hrequest

namespace Accounts

/-! ## Steps -/

section

variable {before after : Accounts}

/-- A call that has no effect, or none any more, leaves the others. -/
theorem Gated.of_ended (hgated : before.Gated) {owner : ℤ}
    (hpending : after.directory.pending = Function.update before.directory.pending owner none)
    (hinserted : after.inserted = Function.update before.inserted owner none)
    (hcleared : after.Cleared) (hopened : after.OpenedWithWallet) : after.Gated where
  cleared := hcleared
  opened := hopened
  owned := by
    intro other wallet hwallet
    by_cases hother : other = owner
    case pos =>
      subst hother
      rcases walletOf_eq_some hwallet with ⟨opening, hcall⟩ | hcall <;> simp [hpending] at hcall
    case neg =>
      have hsame : after.walletOf other = before.walletOf other :=
        walletOf_congr (by simp [hpending, hother])
      rw [hsame] at hwallet
      exact hgated.owned other wallet hwallet
  inserted := by
    intro other clearance hclearance
    by_cases hother : other = owner
    case pos =>
      subst hother
      simp [hinserted] at hclearance
    case neg =>
      have hsame : after.walletOf other = before.walletOf other :=
        walletOf_congr (by simp [hpending, hother])
      rw [hinserted, Function.update_of_ne hother] at hclearance
      rw [hsame]
      exact hgated.inserted other clearance hclearance

/-- The commit of a call adds its wallet with its observation, and may open the request of its
customer. -/
theorem Gated.finish (hgated : before.Gated) {owner : ℤ}
    (hstep : before.finish owner = some after) : after.Gated := by
  unfold Accounts.finish at hstep
  split at hstep
  case h_2 => cases hstep
  case h_1 clearance wallet hclearance hwallet =>
    obtain ⟨directory, hfinish, rfl⟩ := Option.map_eq_some_iff.mp hstep
    obtain ⟨hfresh, hrows, hpending⟩ := finish_inserts (walletOf_eq_some hwallet) hfinish
    have howned := hgated.owned owner wallet hwallet
    obtain ⟨same, hsame, hof, hcompliant⟩ := hgated.inserted owner clearance hclearance
    rw [hwallet] at hsame
    cases hsame
    apply hgated.of_ended hpending rfl
    · intro other hmem hcustomer
      change other ∈ directory.wallets.rows at hmem
      rw [hrows] at hmem
      rcases List.mem_append.mp hmem with hold | hnew
      · have hne : other.walletMsisdn ≠ wallet.walletMsisdn :=
          Table.find?_eq_none.mp hfresh other hold
        change ∃ found, Function.update before.clearances _ _ other.walletMsisdn = some found ∧ _
        rw [Function.update_of_ne hne]
        exact hgated.cleared other hold hcustomer
      · rw [List.mem_singleton.mp hnew] at hcustomer ⊢
        exact ⟨clearance, Function.update_self .., hof, hcompliant hcustomer⟩
    · have hkept : ∀ other ∈ before.directory.wallets.rows, ∀ customer, other.OwnedBy customer →
          ∃ kept ∈ directory.wallets.rows, kept.walletMsisdn = other.walletMsisdn ∧
            kept.OwnedBy customer := by
        intro other hother customer hcustomer
        rw [hrows]
        exact ⟨other, List.mem_append_left _ hother, rfl, hcustomer⟩
      split
      case h_2 =>
        apply hgated.opened.of_requests hkept
        exact fun _ _ hrequest _ => hrequest
      case h_1 =>
        intro customer request hrequest hstatus
        simp only [Accounts.openAccount, Table.find?_upsert] at hrequest
        split at hrequest
        case isFalse =>
          obtain ⟨other, hother, hmsisdn, hcustomer⟩ :=
            hgated.opened customer request hrequest hstatus
          obtain ⟨kept, hmem, hsame, hkeptOwned⟩ := hkept other hother customer hcustomer
          exact ⟨kept, hmem, by rw [hmsisdn, hsame], hkeptOwned⟩
        case isTrue hcustomer =>
          change customer = owner at hcustomer
          refine ⟨wallet, ?_, ?_, hcustomer ▸ howned⟩
          · change wallet ∈ directory.wallets.rows
            rw [hrows]
            exact List.mem_append_right _ (List.mem_singleton_self wallet)
          · cases hfound : before.kyc.requests.find? customer with
            | none | some old =>
              rw [hfound] at hrequest
              cases hrequest
              rfl

theorem Gated.insertWallet (hgated : before.Gated) {owner : ℤ}
    (hstep : before.insertWallet owner = some after) : after.Gated := by
  unfold Accounts.insertWallet at hstep
  split at hstep
  case h_1 => cases hstep
  case h_2 wallet hwallet =>
    simp only [Option.ite_none_right_eq_some, Option.some.injEq] at hstep
    obtain ⟨⟨_, hpasses⟩, rfl⟩ := hstep
    refine ⟨hgated.cleared, hgated.opened, hgated.owned, ?_⟩
    intro other clearance hclearance
    by_cases hother : other = owner
    case pos =>
      subst hother
      simp only [Function.update_self, Option.some.injEq] at hclearance
      subst hclearance
      exact ⟨wallet, hwallet, ⟨rfl, rfl⟩, compliant_of_enforceWalletKyc hpasses⟩
    case neg =>
      simp only [Function.update_of_ne hother] at hclearance
      exact hgated.inserted other clearance hclearance

/-- A wallet that changes its type is observed again. -/
theorem Gated.changeWalletCode (hgated : before.Gated) {walletMsisdn walletCode : ℤ}
    (hstep : before.changeWalletCode walletMsisdn walletCode = some after) : after.Gated := by
  unfold Accounts.changeWalletCode at hstep
  split at hstep
  case h_1 => cases hstep
  case h_2 wallet hwallet =>
    simp only [Option.ite_none_right_eq_some, Option.some.injEq] at hstep
    obtain ⟨⟨_, hpasses⟩, rfl⟩ := hstep
    have hmem : ∀ other, other ∈ (before.directory.wallets.modify walletMsisdn
          (fun wallet => { wallet with walletCode := walletCode }) fun _ => rfl).rows ↔
        ∃ old ∈ before.directory.wallets.rows,
          (if old.walletMsisdn = walletMsisdn then { old with walletCode := walletCode }
            else old) = other := by
      intro other
      simp only [Table.modify, Table.rows_map, List.mem_map]
    refine ⟨?_, ?_, hgated.owned, hgated.inserted⟩
    · intro other hother hcustomer
      obtain ⟨old, hold, rfl⟩ := (hmem other).mp hother
      split at hcustomer
      case isTrue hid =>
        have hfound := Table.find?_key hold
        rw [hid, hwallet] at hfound
        cases hfound
        simp only [hid, if_true, Function.update_self, Option.some.injEq]
        exact ⟨_, rfl, ⟨rfl, rfl⟩, compliant_of_enforceWalletKyc hpasses hcustomer⟩
      case isFalse hid =>
        simp only [hid, if_false, Function.update_of_ne hid]
        exact hgated.cleared old hold hcustomer
    · apply hgated.opened.of_requests
      · intro old hold owner howned
        refine ⟨_, (hmem _).mpr ⟨old, hold, rfl⟩, ?_, ?_⟩
        · split <;> rfl
        · split <;> exact howned
      · exact fun _ _ hrequest _ => hrequest

/-- Every step keeps the gate. -/
theorem Gated.step (hgated : before.Gated) {event : AccountEvent}
    (hstep : accountStep before event = some after) : after.Gated := by
  cases event with
  | kyc event =>
    obtain ⟨kyc, hkyc, rfl⟩ := Option.map_eq_some_iff.mp hstep
    refine hgated.of_same rfl rfl rfl rfl ?_
    apply hgated.opened.of_requests
    · exact fun wallet hmem _ howned => ⟨wallet, hmem, rfl, howned⟩
    · exact requests_step hkyc
  | createCustomer customer circumstances id documentType actor now =>
    simp only [accountStep, Accounts.createCustomer] at hstep
    split at hstep
    case h_1 => cases hstep
    case h_2 directory hbegun =>
      have hbegins := createCustomer_begins hbegun
      split at hstep
      case isTrue =>
        cases hstep
        exact hgated.of_begins hbegins rfl rfl (hgated.opened.of_same hbegins.wallets rfl)
      case isFalse =>
        obtain ⟨_, hstep⟩ := Option.ite_none_left_eq_some.mp hstep
        obtain ⟨found, _, rfl⟩ := Option.map_eq_some_iff.mp hstep
        refine hgated.of_begins hbegins rfl rfl ?_
        apply hgated.opened.of_requests
        · exact fun wallet hmem _ howned => ⟨wallet, hbegins.wallets ▸ hmem, rfl, howned⟩
        · intro owner request hrequest hstatus
          simp only [Table.find?_upsert] at hrequest
          split at hrequest
          case isFalse => exact hrequest
          case isTrue =>
            cases hfound : before.kyc.requests.find? owner with
            | none | some old =>
              rw [hfound] at hrequest
              cases hrequest
              cases hstatus
  | completeCustomerAccountOpening owner circumstances =>
    simp only [accountStep, Accounts.completeCustomerAccountOpening] at hstep
    split at hstep
    case h_1 => cases hstep
    case h_2 =>
      obtain ⟨directory, hbegun, rfl⟩ := Option.map_eq_some_iff.mp hstep
      have hbegins := completeCustomerAccountOpening_begins hbegun
      exact hgated.of_begins hbegins rfl rfl (hgated.opened.of_same hbegins.wallets rfl)
  | createAdditional owner request circumstances number =>
    obtain ⟨directory, hbegun, rfl⟩ := Option.map_eq_some_iff.mp hstep
    have hbegins := createAdditionalForActor_begins hbegun
    exact hgated.of_begins hbegins rfl rfl (hgated.opened.of_same hbegins.wallets rfl)
  | insertWallet owner => exact hgated.insertWallet hstep
  | finish owner => exact hgated.finish hstep
  | rollback owner =>
    cases hstep
    exact hgated.of_ended rfl rfl hgated.cleared hgated.opened
  | applyWalletType walletCode walletType =>
    cases hstep
    exact hgated.of_same rfl rfl rfl rfl hgated.opened
  | changeWalletCode walletMsisdn walletCode => exact hgated.changeWalletCode hstep
  | startKyc instanceId resumeTokenHash id documentType now =>
    simp only [accountStep, Accounts.startKyc] at hstep
    split at hstep
    case h_1 => cases hstep
    case h_2 =>
      split at hstep
      case h_1 =>
        cases hstep
        exact hgated
      case h_2 =>
        obtain ⟨_, _, hstep⟩ := Option.bind_eq_some_iff.mp hstep
        obtain ⟨_, _, rfl⟩ := Option.map_eq_some_iff.mp hstep
        exact hgated.of_same rfl rfl rfl rfl hgated.opened
  | allocateWallet instanceId resumeTokenHash now | advance request =>
    obtain ⟨_, _, rfl⟩ := Option.map_eq_some_iff.mp hstep
    exact hgated.of_same rfl rfl rfl rfl hgated.opened
  | prepareAllocation customerId =>
    simp only [accountStep, Accounts.prepareAllocation] at hstep
    split at hstep
    case h_1 => cases hstep
    case h_2 =>
      simp only [Option.ite_none_right_eq_some, Option.some.injEq] at hstep
      obtain ⟨_, rfl⟩ := hstep
      exact hgated.of_same rfl rfl rfl rfl hgated.opened

end

/-! ## Runs -/

/-- Without calls under way the gate is about wallets and requests alone. -/
theorem Idle.gated {accounts : Accounts} (hidle : accounts.Idle) (hcleared : accounts.Cleared)
    (hopened : accounts.OpenedWithWallet) : accounts.Gated where
  cleared := hcleared
  opened := hopened
  owned := by
    intro owner wallet hwallet
    rcases walletOf_eq_some hwallet with ⟨opening, hcall⟩ | hcall <;>
      simp [hidle.pending] at hcall
  inserted := by
    intro owner clearance hclearance
    rw [hidle.inserted] at hclearance
    cases hclearance

end Accounts

/-- Whatever order the calls take, every wallet of a customer was, when its type and owner were
last written, of a type that did not need KYC or its owner had an approved case; and every opened
request has its wallet. -/
theorem wallets_pass_the_gate {start finish : Accounts} (hidle : start.Idle)
    (hcleared : start.Cleared) (hopened : start.OpenedWithWallet)
    (hrun : Reaches accountStep start finish) : finish.Cleared ∧ finish.OpenedWithWallet := by
  have hgated : finish.Gated :=
    hrun.preserves Accounts.Gated (fun _ _ _ hbefore hstep => hbefore.step hstep)
      (hidle.gated hcleared hopened)
  exact ⟨hgated.cleared, hgated.opened⟩

/-- A verified customer without a wallet, and a wallet type that needs KYC. -/
def verifiedCustomer : Accounts where
  kyc :=
    { cases :=
        .single
          { id := 1
            customerMsisdn := some 7
            documentType := .passport
            status := .approved
            createdBy := "operator"
            createdAt := 0 }
      profiles := .single { msisdn := 7, kycStatus := 1 }
      requests := .empty
      links := .empty
      journeys :=
        { versions := .empty
          instances := .empty
          customers := .empty } }
  directory := { Directory.empty with profiles := [7] }
  walletTypes := fun code => if code = 103 then some { isKycNeeded := some true } else none
  registry := .empty

/-- The customer is given a wallet of the type, and it has passed the gate. -/
theorem wallets_pass_the_gate_verified : ∃ finish, Reaches accountStep verifiedCustomer finish ∧
    (∃ wallet ∈ finish.directory.wallets.rows, wallet.isCustomer) ∧
    finish.Cleared ∧ finish.OpenedWithWallet := by
  have hany : (runInputs accountStep verifiedCustomer
      [.createCustomer { msisdn := 7, currency := "UGX" } {} 2 .passport "operator" 0,
        .insertWallet 7, .finish 7]).any
      (fun state => decide (∃ wallet ∈ state.directory.wallets.rows, wallet.isCustomer)) := by
    decide
  obtain ⟨finish, hrun, hfacts⟩ := (Option.any_eq_true _ _).mp hany
  have hreaches := Reaches.of_runInputs hrun
  have hempty : verifiedCustomer.Cleared := fun wallet hwallet => nomatch hwallet
  have hnone : verifiedCustomer.OpenedWithWallet := fun _ _ hrequest => nomatch hrequest
  exact ⟨finish, hreaches, of_decide_eq_true hfacts,
    wallets_pass_the_gate ⟨fun _ => rfl, fun _ => rfl⟩ hempty hnone hreaches⟩

end Finify.Kyc
