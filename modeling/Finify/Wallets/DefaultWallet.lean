/-
# One default wallet for each customer

Whatever steps the calls take, a customer who has a wallet has exactly one default
wallet, and it is open.  Two things carry this: who has a wallet has a default one,
which no call takes away, and a row that a call has read under its lock stays as it
was until the call ends.
-/

import Finify.Wallets.Directory

namespace Finify.Wallets

open Finify.Foundations

/-! ## What a step does -/

/-- The effects that an accepted step can have. -/
inductive Directory.Effect (before : Directory) : Directory → Prop
  | same : Effect before before
  | requested (owner : ℤ) (opening : Opening) :
      Effect before ((before.addProfile owner).setOpening owner opening)
  | opening {owner walletCode : ℤ} {currency : String} {iban swiftBic : Option String}
      (opening : Opening) :
      Effect before (before.setPending owner
        (some (.opening (Directory.defaultWallet owner walletCode currency iban swiftBic) opening)))
  | adding {owner : ℤ} {wallet main : Wallet} (howned : wallet.OwnedBy owner)
      (hplain : wallet.isDefault = false ∧ wallet.purpose = .customerAdditional)
      (hmain : main ∈ before.wallets.rows) (hmainOwned : main.OwnedBy owner)
      (hpurpose : main.purpose = .customerMain) :
      Effect before (before.setPending owner (some (.adding wallet)))
  | locked {owner : ℤ} {wallet : Wallet} (hwallet : wallet ∈ before.wallets.rows)
      (howned : wallet.OwnedBy owner) (hactive : wallet.status = .active)
      (hfree : before.changing wallet.walletMsisdn = none) :
      Effect before (before.setPending owner (some (.locked wallet.walletMsisdn)))
  | cleared {owner walletId : ℤ} (hpending : before.pending owner = some (.locked walletId))
      (hfree : ∀ row ∈ before.defaultRows owner, before.changing row = none) :
      Effect before (before.setPending owner
        (some (.cleared walletId (before.defaultRows owner))))
  | opened {owner : ℤ} {wallet : Wallet} {opening : Opening} {after : Directory}
      (hpending : before.pending owner = some (.opening wallet opening))
      (hindex : ¬ Directory.IndexTaken before.wallets.rows wallet)
      (hinsert : after.wallets.rows = before.wallets.rows ++ [wallet])
      (hcalls : after.pending = Function.update before.pending owner none ∧
        after.changing = before.changing) : Effect before after
  | added {owner : ℤ} {wallet : Wallet} {after : Directory}
      (hpending : before.pending owner = some (.adding wallet))
      (hinsert : after.wallets.rows = before.wallets.rows ++ [wallet])
      (hcalls : after.pending = Function.update before.pending owner none ∧
        after.changing = before.changing) : Effect before after
  | chosen {owner walletId : ℤ} {rows : List ℤ}
      (hpending : before.pending owner = some (.cleared walletId rows))
      (hcontested : ¬ before.Contested owner walletId rows) :
      Effect before ((before.rechoose owner walletId rows).setPending owner none)
  | dropped (owner : ℤ) : Effect before (before.setPending owner none)
  | changing {wallet : Wallet} {status : Status} (hwallet : wallet ∈ before.wallets.rows)
      (hfree : before.changing wallet.walletMsisdn = none) (hlocked : ¬ before.Locked wallet)
      (hdefault : wallet.isDefault → status = .active) :
      Effect before (before.setChanging wallet.walletMsisdn (some status))
  | written {walletId : ℤ} {status : Status} (hchanging : before.changing walletId = some status) :
      Effect before ((before.restate walletId status).setChanging walletId none)
  | droppedChange (walletId : ℤ) : Effect before (before.setChanging walletId none)

namespace Directory

variable {before after : Directory}

theorem insertWallet_eq_some {wallet : Wallet} (hinsert : before.insertWallet wallet = some after) :
    ¬ IndexTaken before.wallets.rows wallet ∧
      after.wallets.rows = before.wallets.rows ++ [wallet] ∧ after.pending = before.pending ∧
        after.changing = before.changing := by
  unfold insertWallet at hinsert
  obtain ⟨hindex, hinsert⟩ := Option.ite_none_left_eq_some.mp hinsert
  obtain ⟨wallets, hwallets, rfl⟩ := Option.map_eq_some_iff.mp hinsert
  exact ⟨hindex, (Table.insert?_eq_some hwallets).2, rfl, rfl⟩

theorem createCustomer_effect {customer : NewCustomer} {findings : Findings}
    (hstep : before.createCustomer customer findings = some after) : before.Effect after := by
  dsimp only [createCustomer] at hstep
  obtain ⟨_, hstep⟩ := Option.ite_none_right_eq_some.mp hstep
  obtain ⟨_, hstep⟩ := Option.ite_none_left_eq_some.mp hstep
  obtain ⟨_, hstep⟩ := Option.ite_none_left_eq_some.mp hstep
  obtain ⟨kycNeeded, _, hstep⟩ := Option.bind_eq_some_iff.mp hstep
  obtain ⟨_, hstep⟩ := Option.ite_none_left_eq_some.mp hstep
  split at hstep
  case isTrue =>
    obtain ⟨_, hstep⟩ := Option.ite_none_left_eq_some.mp hstep
    cases hstep
    exact .requested _ _
  case isFalse =>
    cases hstep
    exact .opening _

theorem completeCustomerAccountOpening_effect {owner : ℤ} {findings : Findings}
    (hstep : before.completeCustomerAccountOpening owner findings = some after) :
    before.Effect after := by
  unfold completeCustomerAccountOpening at hstep
  obtain ⟨_, hstep⟩ := Option.ite_none_right_eq_some.mp hstep
  obtain ⟨_, hstep⟩ := Option.ite_none_right_eq_some.mp hstep
  obtain ⟨opening, _, hstep⟩ := Option.bind_eq_some_iff.mp hstep
  split at hstep
  case isTrue =>
    cases hstep
    exact .same
  case isFalse =>
    obtain ⟨kycNeeded, _, hstep⟩ := Option.bind_eq_some_iff.mp hstep
    obtain ⟨_, hstep⟩ := Option.ite_none_left_eq_some.mp hstep
    obtain ⟨_, hstep⟩ := Option.ite_none_left_eq_some.mp hstep
    obtain ⟨_, hstep⟩ := Option.ite_none_left_eq_some.mp hstep
    cases hstep
    exact .opening _

theorem createAdditional_effect {owner number : ℤ} {request : NewWallet} {findings : Findings}
    (hstep : before.createAdditionalForActor owner request findings number = some after) :
    before.Effect after := by
  unfold createAdditionalForActor at hstep
  obtain ⟨_, hstep⟩ := Option.ite_none_right_eq_some.mp hstep
  obtain ⟨_, hstep⟩ := Option.ite_none_left_eq_some.mp hstep
  obtain ⟨kycNeeded, _, hstep⟩ := Option.bind_eq_some_iff.mp hstep
  obtain ⟨_, hstep⟩ := Option.ite_none_left_eq_some.mp hstep
  obtain ⟨_, hstep⟩ := Option.ite_none_left_eq_some.mp hstep
  obtain ⟨main, hmain, hstep⟩ := Option.bind_eq_some_iff.mp hstep
  have hfound := List.find?_some hmain
  simp only [decide_eq_true_eq] at hfound
  dsimp only at hstep
  obtain ⟨_, hstep⟩ := Option.ite_none_left_eq_some.mp hstep
  cases hstep
  exact .adding ⟨rfl, rfl⟩ ⟨rfl, rfl⟩ (List.mem_of_find?_eq_some hmain) hfound.1 hfound.2.1

theorem setDefault_effect {owner walletId : ℤ}
    (hstep : before.setDefaultForActor owner walletId = some after) : before.Effect after := by
  unfold setDefaultForActor at hstep
  obtain ⟨hfree, hstep⟩ := Option.ite_none_right_eq_some.mp hstep
  obtain ⟨wallet, hfind, hstep⟩ := Option.bind_eq_some_iff.mp hstep
  obtain ⟨hmem, rfl⟩ := Table.find?_eq_some.mp hfind
  obtain ⟨howned, hstep⟩ := Option.ite_none_right_eq_some.mp hstep
  cases hstep
  exact .locked hmem howned.1 howned.2 hfree.2

theorem clearDefault_effect {owner : ℤ} (hstep : before.clearDefault owner = some after) :
    before.Effect after := by
  unfold clearDefault at hstep
  split at hstep
  case h_2 => cases hstep
  case h_1 walletId hpending =>
    dsimp only at hstep
    obtain ⟨hfree, hstep⟩ := Option.ite_none_right_eq_some.mp hstep
    cases hstep
    exact .cleared hpending hfree

theorem finish_effect {owner : ℤ} (hstep : before.finish owner = some after) :
    before.Effect after := by
  obtain ⟨call, hpending, hstep⟩ := Option.bind_eq_some_iff.mp hstep
  cases call with
  | opening wallet opening =>
    obtain ⟨inserted, hinserted, hstep⟩ := Option.bind_eq_some_iff.mp hstep
    obtain ⟨hindex, hrows, hcalls, hchanging⟩ := insertWallet_eq_some hinserted
    cases hstep
    refine .opened hpending hindex hrows ⟨?_, hchanging⟩
    show Function.update inserted.pending owner none = _
    rw [hcalls]
  | adding wallet =>
    obtain ⟨inserted, hinserted, hstep⟩ := Option.bind_eq_some_iff.mp hstep
    obtain ⟨_, hrows, hcalls, hchanging⟩ := insertWallet_eq_some hinserted
    cases hstep
    refine .added hpending hrows ⟨?_, hchanging⟩
    show Function.update inserted.pending owner none = _
    rw [hcalls]
  | locked walletId => cases hstep
  | cleared walletId rows =>
    dsimp only at hstep
    obtain ⟨hcontested, hstep⟩ := Option.ite_none_left_eq_some.mp hstep
    cases hstep
    exact .chosen hpending hcontested

theorem changeStatus_effect {walletId : ℤ} {status : Status}
    (hstep : before.changeStatus walletId status = some after) : before.Effect after := by
  obtain ⟨wallet, hfind, hstep⟩ := Option.bind_eq_some_iff.mp hstep
  obtain ⟨hmem, rfl⟩ := Table.find?_eq_some.mp hfind
  obtain ⟨hfree, hstep⟩ := Option.ite_none_right_eq_some.mp hstep
  obtain ⟨_, hstep⟩ := Option.ite_none_left_eq_some.mp hstep
  obtain ⟨hdefault, hstep⟩ := Option.ite_none_left_eq_some.mp hstep
  split at hstep
  case isTrue =>
    cases hstep
    exact .same
  case isFalse =>
    cases hstep
    exact .changing hmem hfree.1 hfree.2 fun h => by
      by_contra hne
      exact hdefault ⟨h, hne⟩

theorem writeStatus_effect {walletId : ℤ} (hstep : before.writeStatus walletId = some after) :
    before.Effect after := by
  obtain ⟨status, hchanging, hstep⟩ := Option.bind_eq_some_iff.mp hstep
  obtain ⟨wallet, _, hstep⟩ := Option.bind_eq_some_iff.mp hstep
  obtain ⟨_, hstep⟩ := Option.ite_none_left_eq_some.mp hstep
  cases hstep
  exact .written hchanging

theorem step_effect {event : WalletEvent} (hstep : before.step event = some after) :
    before.Effect after := by
  cases event with
  | createCustomer customer findings => exact createCustomer_effect hstep
  | completeCustomerAccountOpening owner findings =>
    exact completeCustomerAccountOpening_effect hstep
  | createAdditional owner request findings number => exact createAdditional_effect hstep
  | setDefault owner walletId => exact setDefault_effect hstep
  | clearDefault owner => exact clearDefault_effect hstep
  | finish owner => exact finish_effect hstep
  | rollback owner =>
    cases hstep
    exact .dropped owner
  | changeStatus walletId status => exact changeStatus_effect hstep
  | writeStatus walletId => exact writeStatus_effect hstep
  | rollbackStatus walletId =>
    cases hstep
    exact .droppedChange walletId

end Directory

/-! ## What the directory keeps -/

/-- A default wallet is the main one and open, and a customer who has a wallet has exactly
one default wallet. -/
structure Served (wallets : List Wallet) : Prop where
  opened : ∀ wallet ∈ wallets, wallet.isCustomer → wallet.isDefault → wallet.status ≠ .closed
  main : ∀ wallet ∈ wallets, wallet.isCustomer →
    (wallet.isDefault ↔ wallet.purpose = .customerMain)
  served : ∀ owner, ∀ wallet ∈ wallets, wallet.OwnedBy owner →
    ∃ other ∈ wallets, other.OwnedBy owner ∧ other.isDefault
  unique : ∀ owner, ∀ first ∈ wallets, ∀ second ∈ wallets, first.OwnedBy owner →
    second.OwnedBy owner → first.isDefault → second.isDefault → first = second

/-- What the calls under way have read still holds. -/
structure Directory.Reserved (directory : Directory) : Prop where
  opening : ∀ owner wallet opening, directory.pending owner = some (.opening wallet opening) →
    ∃ walletCode currency iban swiftBic,
      wallet = Directory.defaultWallet owner walletCode currency iban swiftBic
  adding : ∀ owner wallet, directory.pending owner = some (.adding wallet) →
    (wallet.OwnedBy owner ∧ wallet.isDefault = false ∧ wallet.purpose = .customerAdditional) ∧
      ∃ main ∈ directory.wallets.rows, main.OwnedBy owner ∧ main.isDefault
  target : ∀ owner call, directory.pending owner = some call →
    ∀ walletId, (call = .locked walletId ∨ ∃ rows, call = .cleared walletId rows) →
      ∃ wallet ∈ directory.wallets.rows, wallet.walletMsisdn = walletId ∧
        wallet.OwnedBy owner ∧ wallet.status = .active
  held : ∀ owner call, directory.pending owner = some call → ∀ walletId ∈ call.held,
    directory.changing walletId = none ∧
      ∃ wallet ∈ directory.wallets.rows, wallet.walletMsisdn = walletId ∧ wallet.OwnedBy owner
  changing : ∀ walletId status, directory.changing walletId = some status →
    ∃ wallet ∈ directory.wallets.rows, wallet.walletMsisdn = walletId ∧
      (wallet.isDefault → status = .active)

/-- The rows are served, and the calls under way are right about them. -/
structure Directory.Sound (directory : Directory) : Prop where
  rows : Served directory.wallets.rows
  calls : directory.Reserved

/-! ## Calls begin and end -/

namespace Directory.Reserved

variable {directory : Directory}

/-- A call may begin or go on if it is right about the rows. -/
theorem setPending (hreserved : directory.Reserved) {owner : ℤ} {call : Option OwnerCall}
    (hopening : ∀ wallet opening, call = some (.opening wallet opening) →
      ∃ walletCode currency iban swiftBic,
        wallet = Directory.defaultWallet owner walletCode currency iban swiftBic)
    (hadding : ∀ wallet, call = some (.adding wallet) →
      (wallet.OwnedBy owner ∧ wallet.isDefault = false ∧ wallet.purpose = .customerAdditional) ∧
        ∃ main ∈ directory.wallets.rows, main.OwnedBy owner ∧ main.isDefault)
    (htarget : ∀ own, call = some own → ∀ walletId,
      (own = .locked walletId ∨ ∃ rows, own = .cleared walletId rows) →
        ∃ wallet ∈ directory.wallets.rows, wallet.walletMsisdn = walletId ∧
          wallet.OwnedBy owner ∧ wallet.status = .active)
    (hheld : ∀ own, call = some own → ∀ walletId ∈ own.held,
      directory.changing walletId = none ∧
        ∃ wallet ∈ directory.wallets.rows, wallet.walletMsisdn = walletId ∧
          wallet.OwnedBy owner) : (directory.setPending owner call).Reserved where
  opening := by
    intro other wallet opening hpending
    rw [Directory.setPending_pending] at hpending
    split at hpending
    case isTrue hsame => exact hsame ▸ hopening wallet opening hpending
    case isFalse => exact hreserved.opening other wallet opening hpending
  adding := by
    intro other wallet hpending
    rw [Directory.setPending_pending] at hpending
    split at hpending
    case isTrue hsame => exact hsame ▸ hadding wallet hpending
    case isFalse => exact hreserved.adding other wallet hpending
  target := by
    intro other own hpending
    rw [Directory.setPending_pending] at hpending
    split at hpending
    case isTrue hsame => exact hsame ▸ htarget own hpending
    case isFalse => exact hreserved.target other own hpending
  held := by
    intro other own hpending
    rw [Directory.setPending_pending] at hpending
    split at hpending
    case isTrue hsame => exact hsame ▸ hheld own hpending
    case isFalse => exact hreserved.held other own hpending
  changing := hreserved.changing

/-- A call may end. -/
theorem drop (hreserved : directory.Reserved) (owner : ℤ) :
    (directory.setPending owner none).Reserved :=
  hreserved.setPending (fun _ _ h => by cases h) (fun _ h => by cases h) (fun _ h => by cases h)
    fun _ h => by cases h

/-- A change of status may end. -/
theorem dropChange (hreserved : directory.Reserved) (walletId : ℤ) :
    (directory.setChanging walletId none).Reserved where
  opening := hreserved.opening
  adding := hreserved.adding
  target := hreserved.target
  held := by
    intro owner call hpending other hother
    obtain ⟨hfree, hwallet⟩ := hreserved.held owner call hpending other hother
    refine ⟨?_, hwallet⟩
    rw [Directory.setChanging_changing]
    split
    case isTrue => rfl
    case isFalse => exact hfree
  changing := by
    intro other status hchanging
    rw [Directory.setChanging_changing] at hchanging
    obtain ⟨_, hchanging⟩ := Option.ite_none_left_eq_some.mp hchanging
    exact hreserved.changing other status hchanging

/-- A change of status may begin on a row that no call holds. -/
theorem beginChange (hreserved : directory.Reserved) {wallet : Wallet} {status : Status}
    (hwallet : wallet ∈ directory.wallets.rows) (hlocked : ¬ directory.Locked wallet)
    (hdefault : wallet.isDefault → status = .active) :
    (directory.setChanging wallet.walletMsisdn (some status)).Reserved where
  opening := hreserved.opening
  adding := hreserved.adding
  target := hreserved.target
  held := by
    intro owner call hpending other hother
    obtain ⟨hfree, own, hown, hkey, howned⟩ := hreserved.held owner call hpending other hother
    refine ⟨?_, own, hown, hkey, howned⟩
    rw [Directory.setChanging_changing]
    split
    case isFalse => exact hfree
    case isTrue hsame =>
      obtain rfl : own = wallet := Table.eq_of_key_eq _ hown hwallet (hkey.trans hsame)
      exact absurd ⟨call, howned.2 ▸ hpending, hkey ▸ hother⟩ hlocked
  changing := by
    intro other new hchanging
    rw [Directory.setChanging_changing] at hchanging
    split at hchanging
    case isTrue hsame =>
      cases hchanging
      exact ⟨wallet, hwallet, hsame.symm, hdefault⟩
    case isFalse => exact hreserved.changing other new hchanging

/-- Rows may be inserted. -/
theorem insert (hreserved : directory.Reserved) {after : Directory} {wallet : Wallet}
    (hinsert : after.wallets.rows = directory.wallets.rows ++ [wallet])
    (hpending : after.pending = directory.pending) (hchanging : after.changing = directory.changing) :
    after.Reserved where
  opening := by
    rw [hpending]
    exact hreserved.opening
  adding := by
    intro owner new hnew
    rw [hpending] at hnew
    obtain ⟨hplain, main, hmain, hdefault⟩ := hreserved.adding owner new hnew
    exact ⟨hplain, main, hinsert ▸ List.mem_append_left _ hmain, hdefault⟩
  target := by
    intro owner call hcall walletId hshape
    rw [hpending] at hcall
    obtain ⟨row, hrow, hrest⟩ := hreserved.target owner call hcall walletId hshape
    exact ⟨row, hinsert ▸ List.mem_append_left _ hrow, hrest⟩
  held := by
    intro owner call hcall walletId hheld
    rw [hpending] at hcall
    obtain ⟨hfree, row, hrow, hrest⟩ := hreserved.held owner call hcall walletId hheld
    exact ⟨hchanging ▸ hfree, row, hinsert ▸ List.mem_append_left _ hrow, hrest⟩
  changing := by
    intro walletId status hstatus
    rw [hchanging] at hstatus
    obtain ⟨row, hrow, hrest⟩ := hreserved.changing walletId status hstatus
    exact ⟨row, hinsert ▸ List.mem_append_left _ hrow, hrest⟩

end Directory.Reserved

/-! ## Writes -/

namespace Served

variable {wallets : List Wallet}

/-- A customer without an open default wallet has no wallet at all. -/
theorem not_owned (hserved : Served wallets) {owner walletCode : ℤ} {currency : String}
    {iban swiftBic : Option String}
    (hindex : ¬ Directory.IndexTaken wallets
      (Directory.defaultWallet owner walletCode currency iban swiftBic)) :
    ∀ wallet ∈ wallets, ¬ wallet.OwnedBy owner := by
  intro wallet hwallet howned
  obtain ⟨other, hother, hotherOwned, hdefault⟩ := hserved.served owner wallet hwallet howned
  have hopen := hserved.opened other hother hotherOwned.1 hdefault
  exact hindex ⟨other, hother,
    .inr (.inl ⟨rfl, rfl, (fun h => by cases h), hotherOwned, hdefault, hopen⟩)⟩

/-- A first wallet is the default one. -/
theorem first (hserved : Served wallets) {owner walletCode : ℤ} {currency : String}
    {iban swiftBic : Option String}
    (hindex : ¬ Directory.IndexTaken wallets
      (Directory.defaultWallet owner walletCode currency iban swiftBic)) :
    Served (wallets ++ [Directory.defaultWallet owner walletCode currency iban swiftBic]) where
  opened := by
    intro wallet hwallet hcustomer hdefault
    rcases List.mem_append.mp hwallet with hold | hnew
    · exact hserved.opened wallet hold hcustomer hdefault
    · obtain rfl := List.mem_singleton.mp hnew
      exact fun h => by cases h
  main := by
    intro wallet hwallet hcustomer
    rcases List.mem_append.mp hwallet with hold | hnew
    · exact hserved.main wallet hold hcustomer
    · obtain rfl := List.mem_singleton.mp hnew
      exact iff_of_true rfl rfl
  served := by
    intro other wallet hwallet howned
    rcases List.mem_append.mp hwallet with hold | hnew
    · obtain ⟨main, hmain, hrest⟩ := hserved.served other wallet hold howned
      exact ⟨main, List.mem_append_left _ hmain, hrest⟩
    · obtain rfl := List.mem_singleton.mp hnew
      exact ⟨_, List.mem_append_right _ (List.mem_singleton_self _), howned, rfl⟩
  unique := by
    intro other one hone two htwo hfirst hsecond hfirstDefault hsecondDefault
    have hnone := hserved.not_owned hindex
    rcases List.mem_append.mp hone with hone | hone
    · rcases List.mem_append.mp htwo with htwo | htwo
      · exact hserved.unique other one hone two htwo hfirst hsecond hfirstDefault hsecondDefault
      · obtain rfl := List.mem_singleton.mp htwo
        exact absurd ⟨hfirst.1, hfirst.2.trans hsecond.2.symm⟩ (hnone one hone)
    · obtain rfl := List.mem_singleton.mp hone
      rcases List.mem_append.mp htwo with htwo | htwo
      · exact absurd ⟨hsecond.1, hsecond.2.trans hfirst.2.symm⟩ (hnone two htwo)
      · exact (List.mem_singleton.mp htwo).symm

/-- Another wallet is not the default one. -/
theorem another (hserved : Served wallets) {owner : ℤ} {wallet main : Wallet}
    (howned : wallet.OwnedBy owner)
    (hplain : wallet.isDefault = false ∧ wallet.purpose = .customerAdditional)
    (hmain : main ∈ wallets) (hmainOwned : main.OwnedBy owner) (hdefault : main.isDefault) :
    Served (wallets ++ [wallet]) where
  opened := by
    intro other hother hcustomer hother'
    rcases List.mem_append.mp hother with hold | hnew
    · exact hserved.opened other hold hcustomer hother'
    · obtain rfl := List.mem_singleton.mp hnew
      rw [hplain.1] at hother'
      cases hother'
  main := by
    intro other hother hcustomer
    rcases List.mem_append.mp hother with hold | hnew
    · exact hserved.main other hold hcustomer
    · obtain rfl := List.mem_singleton.mp hnew
      simp [hplain]
  served := by
    intro other own hown hother
    rcases List.mem_append.mp hown with hold | hnew
    · obtain ⟨found, hfound, hrest⟩ := hserved.served other own hold hother
      exact ⟨found, List.mem_append_left _ hfound, hrest⟩
    · obtain rfl := List.mem_singleton.mp hnew
      obtain rfl : owner = other := howned.2.symm.trans hother.2
      exact ⟨main, List.mem_append_left _ hmain, hmainOwned, hdefault⟩
  unique := by
    have hold : ∀ other ∈ wallets ++ [wallet], other.isDefault → other ∈ wallets := by
      intro other hother hother'
      rcases List.mem_append.mp hother with hold | hnew
      · exact hold
      · obtain rfl := List.mem_singleton.mp hnew
        rw [hplain.1] at hother'
        cases hother'
    intro other one hone two htwo hfirst hsecond hfirstDefault hsecondDefault
    exact hserved.unique other one (hold one hone hfirstDefault) two
      (hold two htwo hsecondDefault) hfirst hsecond hfirstDefault hsecondDefault

end Served

/-! ### Choosing -/

namespace Directory

variable {directory : Directory} {owner walletId : ℤ} {rows : List ℤ} {wallet : Wallet}

theorem rechosen_ownedBy (other : ℤ) :
    (rechosen owner walletId rows wallet).OwnedBy other ↔ wallet.OwnedBy other := by
  unfold rechosen
  split
  case isTrue => rfl
  case isFalse => split <;> rfl

theorem rechosen_isCustomer :
    (rechosen owner walletId rows wallet).isCustomer = wallet.isCustomer := by
  unfold rechosen
  split
  case isTrue => rfl
  case isFalse => split <;> rfl

theorem rechosen_status : (rechosen owner walletId rows wallet).status = wallet.status := by
  unfold rechosen
  split
  case isTrue => rfl
  case isFalse => split <;> rfl

/-- Rows of other customers stay. -/
theorem rechosen_of_not_owned (howned : ¬ wallet.OwnedBy owner) :
    rechosen owner walletId rows wallet = wallet := by
  unfold rechosen
  rw [if_neg fun h => howned h.1, if_neg fun h => howned h.1]

/-- Rows that the call does not hold stay. -/
theorem rechosen_of_not_held (hheld : wallet.walletMsisdn ∉ walletId :: rows) :
    rechosen owner walletId rows wallet = wallet := by
  rw [List.mem_cons, not_or] at hheld
  unfold rechosen
  rw [if_neg fun h => hheld.1 h.2, if_neg fun h => hheld.2 h.2]

/-- Of the rows of the customer, the chosen one is the default and main one, and no other. -/
theorem rechosen_default (hserved : Served directory.wallets.rows)
    (hcontested : ¬ directory.Contested owner walletId rows)
    (hwallet : wallet ∈ directory.wallets.rows) (howned : wallet.OwnedBy owner) :
    ((rechosen owner walletId rows wallet).isDefault ↔ wallet.walletMsisdn = walletId) ∧
      ((rechosen owner walletId rows wallet).purpose = .customerMain ↔
        wallet.walletMsisdn = walletId) := by
  by_cases hchosen : wallet.walletMsisdn = walletId
  · unfold rechosen
    rw [if_pos ⟨howned, hchosen⟩]
    simp [hchosen]
  · by_cases hcleared : wallet.walletMsisdn ∈ rows
    · have hpurpose : (if wallet.purpose = .customerMain then Purpose.customerAdditional
          else wallet.purpose) ≠ .customerMain := by
        split
        case isTrue => exact fun h => by cases h
        case isFalse hother => exact hother
      unfold rechosen
      rw [if_neg fun h => hchosen h.2, if_pos ⟨howned, hcleared⟩]
      exact ⟨by simp [hchosen], iff_of_false hpurpose hchosen⟩
    · -- A row that the first update has not found is neither default nor main.
      have hnot : ¬ wallet.isDefault := by
        intro hdefault
        have hopen := hserved.opened wallet hwallet howned.1 hdefault
        exact hcontested ⟨wallet, hwallet, howned, hchosen, hcleared, .inl hdefault, hopen⟩
      have hmain : wallet.purpose ≠ .customerMain := fun h =>
        hnot ((hserved.main wallet hwallet howned.1).mpr h)
      rw [rechosen_of_not_held (by simp [hchosen, hcleared])]
      exact ⟨iff_of_false hnot hchosen, iff_of_false hmain hchosen⟩

theorem mem_rechoose : wallet ∈ (directory.rechoose owner walletId rows).wallets.rows ↔
    ∃ old ∈ directory.wallets.rows, rechosen owner walletId rows old = wallet :=
  List.mem_map

/-- After the choice the customer has the chosen wallet as the default one. -/
theorem served_rechoose (hserved : Served directory.wallets.rows)
    (hcontested : ¬ directory.Contested owner walletId rows) {target : Wallet}
    (htarget : target ∈ directory.wallets.rows) (hkey : target.walletMsisdn = walletId)
    (htargetOwned : target.OwnedBy owner) (hactive : target.status = .active) :
    Served (directory.rechoose owner walletId rows).wallets.rows where
  opened := by
    intro wallet hwallet hcustomer hdefault
    obtain ⟨old, hold, rfl⟩ := mem_rechoose.mp hwallet
    rw [rechosen_isCustomer] at hcustomer
    rw [rechosen_status]
    by_cases howned : old.OwnedBy owner
    · have hchosen := (rechosen_default hserved hcontested hold howned).1.mp hdefault
      obtain rfl : old = target := Table.eq_of_key_eq _ hold htarget (hchosen.trans hkey.symm)
      rw [hactive]
      exact fun h => by cases h
    · rw [rechosen_of_not_owned howned] at hdefault
      exact hserved.opened old hold hcustomer hdefault
  main := by
    intro wallet hwallet hcustomer
    obtain ⟨old, hold, rfl⟩ := mem_rechoose.mp hwallet
    rw [rechosen_isCustomer] at hcustomer
    by_cases howned : old.OwnedBy owner
    · obtain ⟨hdefault, hmain⟩ := rechosen_default hserved hcontested hold howned
      exact hdefault.trans hmain.symm
    · rw [rechosen_of_not_owned howned]
      exact hserved.main old hold hcustomer
  served := by
    intro other wallet hwallet hother
    obtain ⟨old, hold, rfl⟩ := mem_rechoose.mp hwallet
    rw [rechosen_ownedBy] at hother
    by_cases hsame : owner = other
    · subst hsame
      exact ⟨_, mem_rechoose.mpr ⟨target, htarget, rfl⟩, (rechosen_ownedBy _).mpr htargetOwned,
        (rechosen_default hserved hcontested htarget htargetOwned).1.mpr hkey⟩
    · obtain ⟨main, hmain, hmainOwned, hdefault⟩ := hserved.served other old hold hother
      have hnot : ¬ main.OwnedBy owner := fun h => hsame (h.2.symm.trans hmainOwned.2)
      exact ⟨main, mem_rechoose.mpr ⟨main, hmain, rechosen_of_not_owned hnot⟩, hmainOwned,
        hdefault⟩
  unique := by
    intro other one hone two htwo hfirst hsecond hfirstDefault hsecondDefault
    obtain ⟨old, hold, rfl⟩ := mem_rechoose.mp hone
    obtain ⟨old', hold', rfl⟩ := mem_rechoose.mp htwo
    rw [rechosen_ownedBy] at hfirst hsecond
    by_cases hsame : owner = other
    · subst hsame
      have hkeyOne := (rechosen_default hserved hcontested hold hfirst).1.mp hfirstDefault
      have hkeyTwo := (rechosen_default hserved hcontested hold' hsecond).1.mp hsecondDefault
      rw [Table.eq_of_key_eq _ hold hold' (hkeyOne.trans hkeyTwo.symm)]
    · have hnot : ∀ {row : Wallet}, row.OwnedBy other → ¬ row.OwnedBy owner :=
        fun howned h => hsame (h.2.symm.trans howned.2)
      rw [rechosen_of_not_owned (hnot hfirst)] at hfirstDefault ⊢
      rw [rechosen_of_not_owned (hnot hsecond)] at hsecondDefault ⊢
      exact hserved.unique other old hold old' hold' hfirst hsecond hfirstDefault hsecondDefault

/-- The choice touches no row that another call relies on. -/
theorem Reserved.rechoose (hreserved : directory.Reserved)
    (hpending : directory.pending owner = some (.cleared walletId rows)) :
    ((directory.rechoose owner walletId rows).setPending owner none).Reserved := by
  have hkeep : ∀ {row : Wallet} {other : ℤ}, row ∈ directory.wallets.rows → other ≠ owner →
      row.OwnedBy other → row ∈ (directory.rechoose owner walletId rows).wallets.rows := by
    intro row other hrow hne howned
    exact mem_rechoose.mpr ⟨row, hrow, rechosen_of_not_owned fun h => hne (howned.2.symm.trans h.2)⟩
  have hothers : ∀ {other : ℤ} {call : OwnerCall},
      ((directory.rechoose owner walletId rows).setPending owner none).pending other = some call →
        other ≠ owner ∧ directory.pending other = some call := by
    intro other call hcall
    rw [setPending_pending] at hcall
    obtain ⟨hne, hcall⟩ := Option.ite_none_left_eq_some.mp hcall
    exact ⟨hne, hcall⟩
  refine ⟨?opening, ?adding, ?target, ?held, ?changing⟩
  case opening =>
    intro other wallet opening hcall
    exact hreserved.opening other wallet opening (hothers hcall).2
  case adding =>
    intro other wallet hcall
    obtain ⟨hne, hcall⟩ := hothers hcall
    obtain ⟨hplain, main, hmain, hmainOwned, hdefault⟩ := hreserved.adding other wallet hcall
    exact ⟨hplain, main, hkeep hmain hne hmainOwned, hmainOwned, hdefault⟩
  case target =>
    intro other call hcall id hshape
    obtain ⟨hne, hcall⟩ := hothers hcall
    obtain ⟨row, hrow, hkey, howned, hactive⟩ := hreserved.target other call hcall id hshape
    exact ⟨row, hkeep hrow hne howned, hkey, howned, hactive⟩
  case held =>
    intro other call hcall id hheld
    obtain ⟨hne, hcall⟩ := hothers hcall
    obtain ⟨hfree, row, hrow, hkey, howned⟩ := hreserved.held other call hcall id hheld
    exact ⟨hfree, row, hkeep hrow hne howned, hkey, howned⟩
  case changing =>
    intro id status hstatus
    have hstatus : directory.changing id = some status := hstatus
    obtain ⟨row, hrow, hkey, hdefault⟩ := hreserved.changing id status hstatus
    have hnot : row.walletMsisdn ∉ walletId :: rows := by
      intro hheld
      have hfree := (hreserved.held owner _ hpending _ hheld).1
      rw [hkey, hstatus] at hfree
      cases hfree
    exact ⟨row, mem_rechoose.mpr ⟨row, hrow, rechosen_of_not_held hnot⟩, hkey, hdefault⟩

/-! ### Changing the status -/

theorem mem_restate {status : Status} :
    wallet ∈ (directory.restate walletId status).wallets.rows ↔
      ∃ old ∈ directory.wallets.rows,
        (if old.walletMsisdn = walletId then { old with status := status } else old) = wallet :=
  List.mem_map

variable (directory) in
/-- A row in its new status, as to owner, default and purpose, is the old one. -/
theorem exists_restate {status : Status} (hwallet : wallet ∈ directory.wallets.rows) :
    ∃ moved ∈ (directory.restate walletId status).wallets.rows,
      moved.walletMsisdn = wallet.walletMsisdn ∧ moved.isCustomer = wallet.isCustomer ∧
        moved.ownerMsisdn = wallet.ownerMsisdn ∧ moved.isDefault = wallet.isDefault := by
  refine ⟨_, mem_restate.mpr ⟨wallet, hwallet, rfl⟩, ?_⟩
  split <;> exact ⟨rfl, rfl, rfl, rfl⟩

/-- The default wallet is only ever made active. -/
theorem served_restate (hserved : Served directory.wallets.rows) {status : Status}
    (hdefault : ∀ row ∈ directory.wallets.rows, row.walletMsisdn = walletId → row.isDefault →
      status = .active) : Served (directory.restate walletId status).wallets.rows where
  opened := by
    intro wallet hwallet hcustomer hisDefault
    obtain ⟨old, hold, rfl⟩ := mem_restate.mp hwallet
    split at hcustomer
    case isTrue hkey =>
      rw [if_pos hkey] at hisDefault ⊢
      rw [hdefault old hold hkey hisDefault]
      exact fun h => by cases h
    case isFalse hkey =>
      rw [if_neg hkey] at hisDefault ⊢
      exact hserved.opened old hold hcustomer hisDefault
  main := by
    intro wallet hwallet hcustomer
    obtain ⟨old, hold, rfl⟩ := mem_restate.mp hwallet
    split at hcustomer
    case isTrue hkey =>
      rw [if_pos hkey]
      exact hserved.main old hold hcustomer
    case isFalse hkey =>
      rw [if_neg hkey]
      exact hserved.main old hold hcustomer
  served := by
    intro owner wallet hwallet howned
    obtain ⟨old, hold, rfl⟩ := mem_restate.mp hwallet
    have holdOwned : old.OwnedBy owner := by
      split at howned <;> exact howned
    obtain ⟨main, hmain, hmainOwned, hmainDefault⟩ := hserved.served owner old hold holdOwned
    obtain ⟨moved, hmoved, _, hcustomer, howner, hmovedDefault⟩ :=
      exists_restate directory hmain
    exact ⟨moved, hmoved, ⟨hcustomer ▸ hmainOwned.1, howner ▸ hmainOwned.2⟩,
      hmovedDefault ▸ hmainDefault⟩
  unique := by
    intro owner one hone two htwo hfirst hsecond hfirstDefault hsecondDefault
    obtain ⟨old, hold, rfl⟩ := mem_restate.mp hone
    obtain ⟨old', hold', rfl⟩ := mem_restate.mp htwo
    have hsame : old = old' := by
      apply hserved.unique owner old hold old' hold'
      · split at hfirst <;> exact hfirst
      · split at hsecond <;> exact hsecond
      · split at hfirstDefault <;> exact hfirstDefault
      · split at hsecondDefault <;> exact hsecondDefault
    rw [hsame]

/-- The row that is written is one that no call of its owner relies on. -/
theorem Reserved.restate (hreserved : directory.Reserved) {status : Status}
    (hchanging : directory.changing walletId = some status) :
    ((directory.restate walletId status).setChanging walletId none).Reserved := by
  have hwritten : (directory.restate walletId status).Reserved := by
    refine ⟨hreserved.opening, ?adding, ?target, ?held, ?changing⟩
    case adding =>
      intro owner wallet hcall
      obtain ⟨hplain, main, hmain, hmainOwned, hdefault⟩ := hreserved.adding owner wallet hcall
      obtain ⟨moved, hmoved, _, hcustomer, howner, hmovedDefault⟩ :=
        exists_restate directory hmain
      exact ⟨hplain, moved, hmoved, ⟨hcustomer ▸ hmainOwned.1, howner ▸ hmainOwned.2⟩,
        hmovedDefault ▸ hdefault⟩
    case target =>
      intro owner call hcall id hshape
      have hheld : id ∈ call.held := by
        rcases hshape with rfl | ⟨rows, rfl⟩ <;> exact List.mem_cons_self
      have hfree := (hreserved.held owner call hcall id hheld).1
      obtain ⟨row, hrow, hkey, hrest⟩ := hreserved.target owner call hcall id hshape
      have hne : row.walletMsisdn ≠ walletId := by
        intro hsame
        rw [← hkey, hsame, hchanging] at hfree
        cases hfree
      exact ⟨row, mem_restate.mpr ⟨row, hrow, if_neg hne⟩, hkey, hrest⟩
    case held =>
      intro owner call hcall id hheld
      obtain ⟨hfree, row, hrow, hkey, howned⟩ := hreserved.held owner call hcall id hheld
      obtain ⟨moved, hmoved, hmovedKey, hcustomer, howner, _⟩ :=
        exists_restate directory hrow
      exact ⟨hfree, moved, hmoved, hmovedKey.trans hkey, hcustomer ▸ howned.1,
        howner ▸ howned.2⟩
    case changing =>
      intro id other hother
      obtain ⟨row, hrow, hkey, hdefault⟩ := hreserved.changing id other hother
      obtain ⟨moved, hmoved, hmovedKey, _, _, hmovedDefault⟩ :=
        exists_restate directory hrow
      exact ⟨moved, hmoved, hmovedKey.trans hkey, fun h => hdefault (hmovedDefault ▸ h)⟩
  exact hwritten.dropChange walletId

/-! ## Steps and runs -/

theorem mem_defaultRows {id : ℤ} (hid : id ∈ directory.defaultRows owner) :
    ∃ wallet ∈ directory.wallets.rows, wallet.walletMsisdn = id ∧ wallet.OwnedBy owner := by
  obtain ⟨wallet, hwallet, rfl⟩ := List.mem_map.mp hid
  have hfound := List.of_mem_filter hwallet
  simp only [decide_eq_true_eq] at hfound
  exact ⟨wallet, List.mem_of_mem_filter hwallet, rfl, hfound.1⟩

theorem Sound.step {before after : Directory} (hsound : before.Sound)
    (heffect : before.Effect after) : after.Sound := by
  obtain ⟨hrows, hcalls⟩ := hsound
  cases heffect with
  | same => exact ⟨hrows, hcalls⟩
  | requested owner opening =>
    exact ⟨hrows, hcalls.opening, hcalls.adding, hcalls.target, hcalls.held, hcalls.changing⟩
  | @opening owner walletCode currency iban swiftBic request =>
    refine ⟨hrows, hcalls.setPending ?_ (fun _ h => by cases h) ?_ ?_⟩
    · intro wallet opening hcall
      cases hcall
      exact ⟨walletCode, currency, iban, swiftBic, rfl⟩
    · intro own hcall id hshape
      cases hcall
      rcases hshape with h | ⟨_, h⟩ <;> cases h
    · intro own hcall id hheld
      cases hcall
      cases hheld
  | @adding owner wallet main howned hplain hmain hmainOwned hpurpose =>
    refine ⟨hrows, hcalls.setPending (fun _ _ h => by cases h) ?_ ?_ ?_⟩
    · intro new hcall
      cases hcall
      exact ⟨⟨howned, hplain⟩, main, hmain, hmainOwned,
        (hrows.main main hmain hmainOwned.1).mpr hpurpose⟩
    · intro own hcall id hshape
      cases hcall
      rcases hshape with h | ⟨_, h⟩ <;> cases h
    · intro own hcall id hheld
      cases hcall
      cases hheld
  | @locked owner wallet hwallet howned hactive hfree =>
    refine ⟨hrows, hcalls.setPending (fun _ _ h => by cases h) (fun _ h => by cases h) ?_ ?_⟩
    · intro own hcall id hshape
      cases hcall
      rcases hshape with h | ⟨_, h⟩
      · cases h
        exact ⟨wallet, hwallet, rfl, howned, hactive⟩
      · cases h
    · intro own hcall id hheld
      cases hcall
      obtain rfl := List.mem_singleton.mp hheld
      exact ⟨hfree, wallet, hwallet, rfl, howned⟩
  | @cleared owner walletId hpending hfree =>
    have htarget := hcalls.target owner _ hpending walletId (.inl rfl)
    refine ⟨hrows, hcalls.setPending (fun _ _ h => by cases h) (fun _ h => by cases h) ?_ ?_⟩
    · intro own hcall id hshape
      cases hcall
      rcases hshape with h | ⟨_, h⟩
      · cases h
      · cases h
        exact htarget
    · intro own hcall id hheld
      cases hcall
      rcases List.mem_cons.mp hheld with rfl | hrow
      · exact hcalls.held owner _ hpending _ (List.mem_singleton_self _)
      · exact ⟨hfree id hrow, mem_defaultRows hrow⟩
  | @opened owner wallet opening after hpending hindex hinsert hafter =>
    obtain ⟨walletCode, currency, iban, swiftBic, rfl⟩ :=
      hcalls.opening owner wallet opening hpending
    refine ⟨hinsert ▸ hrows.first hindex, ?_⟩
    exact (hcalls.drop owner).insert hinsert hafter.1 hafter.2
  | @added owner wallet after hpending hinsert hafter =>
    obtain ⟨⟨howned, hplain⟩, main, hmain, hmainOwned, hdefault⟩ :=
      hcalls.adding owner wallet hpending
    refine ⟨hinsert ▸ hrows.another howned hplain hmain hmainOwned hdefault, ?_⟩
    exact (hcalls.drop owner).insert hinsert hafter.1 hafter.2
  | @chosen owner walletId rows hpending hcontested =>
    obtain ⟨target, htarget, hkey, howned, hactive⟩ :=
      hcalls.target owner _ hpending walletId (.inr ⟨rows, rfl⟩)
    exact ⟨served_rechoose hrows hcontested htarget hkey howned hactive,
      hcalls.rechoose hpending⟩
  | dropped owner => exact ⟨hrows, hcalls.drop owner⟩
  | changing hwallet hfree hlocked hdefault =>
    exact ⟨hrows, hcalls.beginChange hwallet hlocked hdefault⟩
  | @written walletId status hchanging =>
    refine ⟨served_restate hrows fun row hrow hkey hdefault => ?_, hcalls.restate hchanging⟩
    obtain ⟨found, hfound, hfoundKey, hactive⟩ := hcalls.changing walletId status hchanging
    obtain rfl : row = found := Table.eq_of_key_eq _ hrow hfound (hkey.trans hfoundKey.symm)
    exact hactive hdefault
  | droppedChange walletId => exact ⟨hrows, hcalls.dropChange walletId⟩

/-- No call is under way. -/
structure Idle (directory : Directory) : Prop where
  pending : ∀ owner, directory.pending owner = none
  changing : ∀ walletId, directory.changing walletId = none

theorem Idle.reserved (hidle : directory.Idle) : directory.Reserved where
  opening owner _ _ hcall := by simp [hidle.pending owner] at hcall
  adding owner _ hcall := by simp [hidle.pending owner] at hcall
  target owner _ hcall := by simp [hidle.pending owner] at hcall
  held owner _ hcall := by simp [hidle.pending owner] at hcall
  changing walletId _ hstatus := by simp [hidle.changing walletId] at hstatus

theorem Sound.run {start finish : Directory} (hsound : start.Sound)
    (hrun : Reaches Directory.step start finish) : finish.Sound :=
  hrun.preserves Directory.Sound (fun _ _ _ hsound hstep => hsound.step (step_effect hstep)) hsound

end Directory

/-- In every interleaving of the calls, a customer who has an open wallet has exactly one
default wallet, and that wallet is not closed. -/
theorem one_default_wallet {start finish : Directory} (hserved : Served start.wallets.rows)
    (hidle : start.Idle) (hrun : Reaches Directory.step start finish) {owner : ℤ}
    (hopen : finish.HasOpen owner) :
    ∃ wallet ∈ finish.wallets.rows, wallet.OwnedBy owner ∧ wallet.isDefault ∧
      wallet.status ≠ .closed ∧
      ∀ other ∈ finish.wallets.rows, other.OwnedBy owner → other.isDefault → other = wallet := by
  have hsound : finish.Sound := Directory.Sound.run ⟨hserved, hidle.reserved⟩ hrun
  obtain ⟨own, hown, howned, _⟩ := hopen
  obtain ⟨wallet, hwallet, hwalletOwned, hdefault⟩ := hsound.rows.served owner own hown howned
  refine ⟨wallet, hwallet, hwalletOwned, hdefault,
    hsound.rows.opened wallet hwallet hwalletOwned.1 hdefault, ?_⟩
  intro other hother hotherOwned hotherDefault
  exact hsound.rows.unique owner other hother wallet hwallet hotherOwned hwalletOwned
    hotherDefault hdefault

/-- A customer is created, opens another wallet, makes it the default one, and has the
first one closed. -/
def secondDefault : List WalletEvent :=
  let findings : Findings :=
    { profileActive := true
      currencyActive := true
      kycNeeded := some true
      kycApproved := true
      isCustomerType := fun _ => true }
  [.createCustomer { msisdn := 7, currency := "UGX" } findings, .finish 7,
    .createAdditional 7 { walletCode := 103, currency := "GBP" } findings 99, .finish 7,
    .setDefault 7 99, .clearDefault 7, .finish 7, .changeStatus 7 .closed, .writeStatus 7]

theorem one_default_wallet_second : ∃ finish,
    runInputs Directory.step .empty secondDefault = some finish ∧
      ∃ wallet ∈ finish.wallets.rows, wallet.OwnedBy 7 ∧ wallet.isDefault ∧
        wallet.status ≠ .closed ∧
        ∀ other ∈ finish.wallets.rows, other.OwnedBy 7 → other.isDefault → other = wallet := by
  have hopen : ((runInputs Directory.step .empty secondDefault).any
      fun finish => finish.HasOpen 7) = true := by decide +kernel
  obtain ⟨finish, hfinish, hhas⟩ := (Option.any_eq_true _ _).mp hopen
  have hserved : Served Directory.empty.wallets.rows :=
    ⟨by simp [Directory.empty], by simp [Directory.empty], by simp [Directory.empty],
      by simp [Directory.empty]⟩
  exact ⟨finish, hfinish, one_default_wallet hserved ⟨fun _ => rfl, fun _ => rfl⟩
    (Reaches.of_runInputs hfinish) (of_decide_eq_true hhas)⟩

end Finify.Wallets
