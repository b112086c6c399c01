/-
# Reference data changes only through approvals

An approval that commits holds the lock of a pending request whose base is the
live record, and one request of a record is pending at a time; so the live record
is written by approvals only.  It reads back as it was proposed exactly where the
proposal gives the flags that are read through `COALESCE` and counts that can be
cast.
-/

import Finify.Posting.Decision
import Finify.Reference.Requests

namespace Finify.Reference

open Foundations
open Posting (bind_eq_ok)

section

variable {state after : State} {draft : Draft} {approval : Approval} {request : Request} {key : Key}

/-! ## Snapshots -/

theorem Row.key_of_snapshot {row : Row} {current : Snapshot}
    (hread : row.snapshot = some current) : current.key = row.key := by
  cases row with
  | keyword row => cases hread; rfl
  | walletType row => cases hread; rfl
  | aml row =>
    obtain ⟨value, hvalue, rfl⟩ := Option.map_eq_some_iff.mp hread
    obtain ⟨_, hrow⟩ := Option.ite_none_right_eq_some.mp hvalue
    exact Option.some.inj hrow ▸ rfl

theorem Row.rowId_of_snapshot {row : Row} {current : Snapshot}
    (hread : row.snapshot = some current) : ∀ id ∈ current.rowId, id = row.rowId := by
  cases row with
  | keyword row => cases hread; simp [Snapshot.rowId]
  | walletType row => cases hread; simp [Snapshot.rowId]
  | aml row =>
    obtain ⟨value, hvalue, rfl⟩ := Option.map_eq_some_iff.mp hread
    obtain ⟨_, hrow⟩ := Option.ite_none_right_eq_some.mp hvalue
    obtain rfl := Option.some.inj hrow
    intro id hid
    exact (Option.some.inj hid).symm

theorem State.snapshot_eq_some {current : Snapshot} :
    state.snapshot key = .ok (some current) ↔
      ∃ row, state.live.find? key = some row ∧ row.snapshot = some current := by
  rw [snapshot]
  cases hfind : state.live.find? key with
  | none => simp
  | some row => cases hread : row.snapshot <;> simp [hread]

theorem State.snapshot_congr (hlive : after.live.find? key = state.live.find? key) :
    after.snapshot key = state.snapshot key := by
  rw [snapshot, hlive, snapshot]

theorem State.existing_eq_ok {missing : String} {current : Snapshot}
    (hexisting : state.existing key missing = .ok current) :
    state.snapshot key = .ok (some current) ∧ current.key = key := by
  rw [existing] at hexisting
  cases hsnapshot : state.snapshot key with
  | error => rw [hsnapshot] at hexisting; cases hexisting
  | ok found =>
    rw [hsnapshot] at hexisting
    cases found with
    | none => cases hexisting
    | some found =>
      cases hexisting
      obtain ⟨row, hfind, hread⟩ := snapshot_eq_some.mp hsnapshot
      exact ⟨rfl, (Row.key_of_snapshot hread).trans (Table.find?_eq_some.mp hfind).2⟩

/-! ## Proposals -/

/-- A proposal is for the record of its request, and has the number of its base. -/
structure Formed (key : Key) (action : Action) (base : Option Snapshot) (proposed : Snapshot) :
    Prop where
  key : proposed.key = key
  create : base = none ↔ action = .create
  rowId : ∀ id ∈ proposed.rowId, base.bind Snapshot.rowId = some id

/-- What an update or a deletion proposes for a record that is there. -/
theorem formed_of_existing {missing : String} {current proposed : Snapshot} {action : Action}
    (hexisting : state.existing key missing = .ok current) (hkey : proposed.key = current.key)
    (hrowId : proposed.rowId = current.rowId) (haction : action ≠ .create) :
    Formed key action (some current) proposed where
  key := hkey.trans (State.existing_eq_ok hexisting).2
  create := by simp [haction]
  rowId id hid := by
    rw [hrowId] at hid
    exact hid

theorem State.draft_formed {input : Input} {actor : Actor}
    (hdraft : state.draft input actor = .ok draft) :
    Formed draft.key draft.action draft.base draft.proposed := by
  cases input with
  | createKeyword keyword dto | createWalletType walletId dto =>
    cases hdraft
    exact ⟨rfl, by simp, by simp [Snapshot.rowId]⟩
  | createAmlConfiguration walletCode keyword dto =>
    obtain ⟨_, _, hdraft⟩ := bind_eq_ok hdraft
    obtain ⟨_, _, hdraft⟩ := bind_eq_ok hdraft
    cases hdraft
    exact ⟨rfl, by simp, by simp [Snapshot.rowId, CreateAmlDto.proposal]⟩
  | updateKeyword keyword dto | deleteKeyword keyword | updateWalletType walletId dto
  | deleteWalletType walletId | deleteAmlConfiguration walletCode keyword =>
    obtain ⟨current, hexisting, hdraft⟩ := bind_eq_ok hdraft
    cases current <;> cases hdraft
    exact formed_of_existing hexisting rfl rfl (by simp)
  | updateAmlConfiguration walletCode keyword dto =>
    obtain ⟨current, hexisting, hdraft⟩ := bind_eq_ok hdraft
    cases current
    case aml current =>
      obtain ⟨_, _, hdraft⟩ := bind_eq_ok hdraft
      cases hdraft
      exact formed_of_existing hexisting rfl rfl (by simp)
    all_goals cases hdraft

/-! ## What is known between two steps -/

/-- An approval under way holds its request, which is pending, and once it has compared them the
base is the live record. -/
structure State.Holds (state : State) (approval : Approval) : Prop where
  request : state.requests.find? approval.request.id = some approval.request
  pending : approval.request.status = .pending
  allowed : approval.request.allows approval.actor = true
  base : approval.compared = true → state.snapshot approval.request.key = .ok approval.request.base

structure State.Sound (state : State) : Prop where
  onePending : ∀ first ∈ state.requests.rows, ∀ second ∈ state.requests.rows,
    first.status = .pending → second.status = .pending → first.key = second.key → first = second
  decidedOnce : state.decided.Nodup
  decided : ∀ id ∈ state.decided, ∃ request, state.requests.find? id = some request ∧
    request.status ≠ .pending
  within : ∀ row, .aml row ∈ state.live.rows → row.isWithinLimits = true
  requests : ∀ request ∈ state.requests.rows,
    Formed request.key request.action request.base request.proposed
  drafts : ∀ draft ∈ state.drafts, Formed draft.key draft.action draft.base draft.proposed
  approvals : ∀ approval ∈ state.approvals, state.Holds approval
  distinct : state.approvals.Pairwise fun first second => first.request.id ≠ second.request.id

/-- No call has been made yet, and the constraints hold of the live AML configurations. -/
structure State.Initial (state : State) : Prop where
  within : ∀ row, .aml row ∈ state.live.rows → row.isWithinLimits = true
  requests : state.requests.rows = []
  drafts : state.drafts = []
  approvals : state.approvals = []
  decided : state.decided = []

theorem State.Initial.sound (hinitial : state.Initial) : state.Sound where
  onePending := by simp [hinitial.requests]
  decidedOnce := by simp [hinitial.decided]
  decided := by simp [hinitial.decided]
  within := hinitial.within
  requests := by simp [hinitial.requests]
  drafts := by simp [hinitial.drafts]
  approvals := by simp [hinitial.approvals]
  distinct := by simp [hinitial.approvals]

theorem State.Sound.kept (hsound : state.Sound) : state.Kept where
  onePending := hsound.onePending
  decidedOnce := hsound.decidedOnce
  inOrder row hrow := by
    have hwithin := of_decide_eq_true (hsound.within row hrow)
    exact ⟨hwithin.2.1.1, hwithin.2.1.2, hwithin.2.2⟩

theorem State.Sound.permits (hsound : state.Sound) (hmem : approval ∈ state.approvals)
    (hcompared : approval.compared = true) : state.Permits approval where
  request := (hsound.approvals approval hmem).request
  pending := (hsound.approvals approval hmem).pending
  allowed := by simpa [Request.allows] using (hsound.approvals approval hmem).allowed
  base := (hsound.approvals approval hmem).base hcompared

/-! ## Requests that are made -/

theorem State.Sound.withDrafts (hsound : state.Sound) {drafts : List Draft}
    (hdrafts : ∀ draft ∈ drafts, Formed draft.key draft.action draft.base draft.proposed) :
    State.Sound { state with drafts := drafts } :=
  { hsound with
    drafts := hdrafts
    approvals := fun approval hmem => { hsound.approvals approval hmem with } }

theorem State.pending?_eq_none :
    state.pending? key = none ↔
      ∀ request ∈ state.requests.rows, request.key = key → request.status ≠ .pending := by
  rw [pending?, List.find?_eq_none]
  simp

theorem State.Sound.insert (hsound : state.Sound) (hmem : draft ∈ state.drafts)
    (hinsert : state.insert draft = .ok after) : after.Sound := by
  rw [State.insert] at hinsert
  split at hinsert
  next => cases hinsert
  next hfree =>
    cases hinsert
    have hnone := State.pending?_eq_none.mp (Option.not_isSome_iff_eq_none.mp hfree)
    have hkeeps : ∀ id request, state.requests.find? id = some request →
        (state.requests.append draft.request draft.request_id).find? id = some request := by
      intro id request hfind
      obtain ⟨hrow, hid⟩ := Log.find?_eq_some.mp hfind
      rw [Log.find?_append_of_ne, hfind]
      exact hid ▸ (state.requests.below request hrow).ne
    refine { hsound with onePending := ?_, decided := ?_, requests := ?_, approvals := ?_ }
    · intro first hfirst second hsecond hpending hpending' hkey
      rcases List.mem_append.mp hfirst with hold | hnew <;>
        rcases List.mem_append.mp hsecond with hold' | hnew'
      · exact hsound.onePending first hold second hold' hpending hpending' hkey
      · rw [List.mem_singleton.mp hnew'] at hkey
        exact absurd hpending (hnone first hold hkey)
      · rw [List.mem_singleton.mp hnew] at hkey
        exact absurd hpending' (hnone second hold' hkey.symm)
      · rw [List.mem_singleton.mp hnew, List.mem_singleton.mp hnew']
    · intro id hid
      obtain ⟨request, hfind, hstatus⟩ := hsound.decided id hid
      exact ⟨request, hkeeps id request hfind, hstatus⟩
    · intro request hrequest
      rcases List.mem_append.mp hrequest with hold | hnew
      · exact hsound.requests request hold
      · rw [List.mem_singleton.mp hnew]
        exact hsound.drafts draft hmem
    · intro approval happroval
      have hholds := hsound.approvals approval happroval
      exact { hholds with request := hkeeps _ _ hholds.request }

/-! ## Approvals under way -/

theorem State.Sound.rollback (hsound : state.Sound) (approval : Approval) :
    State.Sound { state with approvals := state.approvals.erase approval } :=
  { hsound with
    approvals := fun other hother =>
      { hsound.approvals other (List.mem_of_mem_erase hother) with }
    distinct := hsound.distinct.sublist List.erase_sublist }

/-- The other approvals under way are of other requests. -/
theorem State.Sound.other_ids (hsound : state.Sound) (hmem : approval ∈ state.approvals) :
    ∀ other ∈ state.approvals.erase approval, other.request.id ≠ approval.request.id := by
  intro other hother
  have hperm := (List.perm_cons_erase hmem).pairwise_iff
    (R := fun first second : Approval => first.request.id ≠ second.request.id)
    (fun hne => hne.symm)
  exact ((List.pairwise_cons.mp (hperm.mp hsound.distinct)).1 other hother).symm

theorem State.not_locked {id : ℕ} (hfree : state.locked id ≠ true) :
    ∀ approval ∈ state.approvals, approval.request.id ≠ id := by
  intro approval hmem hsame
  apply hfree
  rw [State.locked, List.any_eq_true]
  exact ⟨approval, hmem, decide_eq_true hsame⟩

theorem State.Sound.lock (hsound : state.Sound) {id : ℕ} {actor : Actor}
    (hfree : state.locked id ≠ true) (hlock : state.lock id actor = .ok approval) :
    State.Sound { state with approvals := approval :: state.approvals } := by
  rw [State.lock] at hlock
  split at hlock
  next => cases hlock
  next request hfind =>
    obtain ⟨_, hpending, hlock⟩ := bind_eq_ok hlock
    obtain ⟨_, hallowed, hlock⟩ := bind_eq_ok hlock
    cases hlock
    rw [Request.assertPending] at hpending
    rw [Request.assertDifferentUser] at hallowed
    split at hpending
    case isFalse => cases hpending
    split at hallowed
    case isFalse => cases hallowed
    rename_i hstatus hallows
    have hid := (Log.find?_eq_some.mp hfind).2
    refine { hsound with approvals := ?_, distinct := List.pairwise_cons.mpr ⟨?_, hsound.distinct⟩ }
    · intro other hother
      rcases List.mem_cons.mp hother with rfl | hold
      · exact ⟨hid.symm ▸ hfind, hstatus, hallows, fun hcompared => by cases hcompared⟩
      · exact { hsound.approvals other hold with }
    · exact fun other hother hsame =>
        State.not_locked hfree other hother (hsame.symm.trans hid)

/-- What a comparison that succeeds has found. -/
theorem State.compare_eq_ok
    (hcompare : state.compare request = .ok ())
    (hformed : request.base = none ↔ request.action = .create) :
    state.snapshot request.key = .ok request.base := by
  obtain ⟨current, hsnapshot, hchecks⟩ := bind_eq_ok hcompare
  rw [hsnapshot]
  split at hchecks
  next => cases hchecks
  next hcreate =>
    split at hchecks
    next => cases hchecks
    next =>
      split at hchecks
      next => cases hchecks
      next hbase =>
        by_cases haction : request.action = .create
        · have hnone : current = none := by
            simpa [haction] using hcreate
          rw [hnone, hformed.mpr haction]
        · have hsame : current = request.base := by
            simpa [haction] using hbase
          rw [hsame]

theorem State.Sound.compare (hsound : state.Sound) (hmem : approval ∈ state.approvals)
    (hcompare : state.compare approval.request = .ok ()) :
    State.Sound { state with
      approvals := { approval with compared := true } :: state.approvals.erase approval } := by
  have hholds := hsound.approvals approval hmem
  have hrequest := (Log.find?_eq_some.mp hholds.request).1
  refine { hsound.rollback approval with approvals := ?_, distinct := ?_ }
  · intro other hother
    rcases List.mem_cons.mp hother with rfl | hold
    · exact ⟨hholds.request, hholds.pending, hholds.allowed, fun _ =>
        State.compare_eq_ok hcompare (hsound.requests _ hrequest).create⟩
    · exact { hsound.approvals other (List.mem_of_mem_erase hold) with }
  · refine List.pairwise_cons.mpr ⟨?_, (hsound.rollback approval).distinct⟩
    exact fun other hother => (hsound.other_ids hmem other hother).symm

/-! ## Decisions -/

/-- A decision of a pending request that no approval holds. -/
theorem State.Sound.settle (hsound : state.Sound) {status : Status} {checkerId : Option ℕ}
    (hfind : state.requests.find? request.id = some request) (hpending : request.status = .pending)
    (hstatus : status ≠ .pending)
    (hfree : ∀ approval ∈ state.approvals, approval.request.id ≠ request.id) :
    (state.settle request.id status checkerId).Sound := by
  have hself : (state.settle request.id status checkerId).requests.find? request.id =
      some (request.settled status checkerId) := by
    rw [State.settle, Log.modify, Log.find?_map, hfind]
    simp
  have hother : ∀ id, id ≠ request.id →
      (state.settle request.id status checkerId).requests.find? id = state.requests.find? id :=
    fun id hne => Log.find?_modify_of_ne _ hne _ (Request.settled_id status checkerId)
  have hrows : ∀ row ∈ (state.settle request.id status checkerId).requests.rows,
      (row = request.settled status checkerId) ∨ row ∈ state.requests.rows := by
    intro row hrow
    have hmodified : row ∈ (state.requests.modify request.id (Request.settled status checkerId)
        (Request.settled_id status checkerId)).rows := hrow
    obtain ⟨old, hold, rfl⟩ := Log.mem_modify.mp hmodified
    by_cases hid : old.id = request.id
    · have hfound := Log.find?_eq_some.mpr ⟨hold, hid⟩
      rw [hfind] at hfound
      rw [if_pos hid, ← Option.some.inj hfound]
      exact .inl rfl
    · rw [if_neg hid]
      exact .inr hold
  refine { hsound with
    onePending := ?_, decidedOnce := ?_, decided := ?_, requests := ?_, approvals := ?_ }
  · intro first hfirst second hsecond hpending hpending' hkey
    rcases hrows first hfirst with rfl | hold
    · exact absurd hpending hstatus
    · rcases hrows second hsecond with rfl | hold'
      · exact absurd hpending' hstatus
      · exact hsound.onePending first hold second hold' hpending hpending' hkey
  · refine List.nodup_cons.mpr ⟨?_, hsound.decidedOnce⟩
    intro hdecided
    obtain ⟨other, hfound, hdone⟩ := hsound.decided _ hdecided
    rw [hfind] at hfound
    exact hdone (Option.some.inj hfound ▸ hpending)
  · intro id hid
    by_cases hsame : id = request.id
    · subst hsame
      exact ⟨_, hself, hstatus⟩
    · obtain ⟨other, hfound, hdone⟩ :=
        hsound.decided id ((List.mem_cons.mp hid).resolve_left hsame)
      exact ⟨other, (hother id hsame).trans hfound, hdone⟩
  · intro row hrow
    rcases hrows row hrow with rfl | hold
    · exact hsound.requests request (Log.find?_eq_some.mp hfind).1
    · exact hsound.requests row hold
  · intro approval hmem
    have hholds := hsound.approvals approval hmem
    exact { hholds with request := (hother _ (hfree approval hmem)).trans hholds.request }

theorem State.Sound.reject (hsound : state.Sound) {id : ℕ} {actor : Actor}
    (hfree : state.locked id ≠ true) (hreject : state.reject id actor = .ok after) :
    after.Sound ∧ after.live = state.live := by
  rw [State.reject] at hreject
  split at hreject
  next => cases hreject
  next request hfind =>
    obtain rfl := (Log.find?_eq_some.mp hfind).2
    split at hreject
    next hpending =>
      split at hreject
      next => cases hreject
      next =>
        cases hreject
        exact ⟨hsound.settle hfind hpending.1 (by simp) (State.not_locked hfree), rfl⟩
    next =>
      obtain ⟨_, _, hreject⟩ := bind_eq_ok hreject
      obtain ⟨_, _, hreject⟩ := bind_eq_ok hreject
      cases hreject

theorem State.Sound.cancel (hsound : state.Sound) {id : ℕ} {actor : Actor}
    (hfree : state.locked id ≠ true) (hcancel : state.cancel id actor = .ok after) :
    after.Sound ∧ after.live = state.live := by
  rw [State.cancel] at hcancel
  split at hcancel
  next hmaker =>
    obtain ⟨request, hfind, hpending⟩ := (Option.any_eq_true _ _).mp hmaker
    obtain rfl := (Log.find?_eq_some.mp hfind).2
    cases hcancel
    have hstatus := (of_decide_eq_true hpending).1
    exact ⟨hsound.settle hfind hstatus (by simp) (State.not_locked hfree), rfl⟩
  next => cases hcancel

/-! ## What an approval applies -/

/-- What is left of the live records by a proposal that is applied: its own row, and the others as
they were. -/
structure Applied (state : State) (request : Request) (row : Row) (after : State) : Prop where
  rest : after = { state with live := after.live, nextAml := after.nextAml }
  apply : ∃ rowId, request.proposed.apply rowId = some row ∧
    ∀ id ∈ request.proposed.rowId, id = rowId
  own : after.live.find? request.key = some row
  other : ∀ key, key ≠ request.key → after.live.find? key = state.live.find? key

/-- What an update of a record that is there has stored. -/
theorem State.update_eq_ok {old : Row} (haction : request.action ≠ .create)
    (hold : state.live.find? request.proposed.key = some old)
    (happly : state.apply request = .ok after) :
    ∃ row, request.proposed.apply old.rowId = some row ∧
      after = { state with live := state.live.modify row.key row.onto row.onto_key } := by
  rw [State.apply] at happly
  cases hcase : request.action with
  | create => exact absurd hcase haction
  | update | delete =>
    simp only [hcase, hold] at happly
    split at happly
    next => cases happly
    next row hrow => exact ⟨row, hrow, (Except.ok.inj happly).symm⟩

theorem State.apply_eq_ok
    (hformed : Formed request.key request.action request.base request.proposed)
    (hbase : state.snapshot request.key = .ok request.base)
    (happly : state.apply request = .ok after) : ∃ row, Applied state request row after := by
  by_cases haction : request.action = .create
  · rw [State.apply] at happly
    have hnone := hformed.create.mpr haction
    have hrowId : ∀ id ∈ request.proposed.rowId, id = state.nextAml := by
      intro id hid
      have hbound := hformed.rowId id hid
      rw [hnone] at hbound
      cases hbound
    simp only [haction] at happly
    split at happly
    next => cases happly
    next row hrow =>
      have hkey := (Snapshot.key_of_apply hrow).trans hformed.key
      split at happly
      next =>
        split at happly
        next => cases happly
        next live hinsert =>
          cases happly
          have hfind := Table.find?_of_insert? hinsert
          refine ⟨row, rfl, ⟨_, hrow, hrowId⟩, ?_, ?_⟩
          · rw [hfind, if_pos hkey.symm]
          · intro key hne
            rw [hfind, if_neg (hkey ▸ hne)]
      next => cases happly
  · obtain ⟨base, hsome⟩ := Option.ne_none_iff_exists'.mp fun hnone =>
      haction (hformed.create.mp hnone)
    obtain ⟨old, hold, hread⟩ := State.snapshot_eq_some.mp (hsome ▸ hbase)
    have hrowId : ∀ id ∈ request.proposed.rowId, id = old.rowId := by
      intro id hid
      have hbound := hformed.rowId id hid
      rw [hsome] at hbound
      exact Row.rowId_of_snapshot hread id hbound
    obtain ⟨row, hrow, hafter⟩ := State.update_eq_ok haction (hformed.key.symm ▸ hold) happly
    subst hafter
    have hkey := (Snapshot.key_of_apply hrow).trans hformed.key
    have holdKey := (Table.find?_eq_some.mp hold).2
    refine ⟨row, rfl, ⟨_, hrow, hrowId⟩, ?_, ?_⟩
    · have honto : row.onto old = row := if_pos (hkey.trans holdKey.symm)
      rw [← hkey, Table.find?_modify_of_find? (hkey ▸ hold), honto]
    · intro key hne
      exact Table.find?_modify_of_ne _ (hkey ▸ hne) _ row.onto_key

/-- The live records within their limits stay so. -/
theorem Applied.within {row : Row} (happlied : Applied state request row after)
    (hwithin : ∀ row, .aml row ∈ state.live.rows → row.isWithinLimits = true) :
    ∀ row, .aml row ∈ after.live.rows → row.isWithinLimits = true := by
  intro aml hmem
  have hfind := Table.find?_key hmem
  by_cases hkey : (Row.aml aml).key = request.key
  · rw [hkey, happlied.own] at hfind
    obtain rfl := Option.some.inj hfind
    obtain ⟨rowId, hrow, _⟩ := happlied.apply
    cases hproposed : request.proposed with
    | aml value =>
      rw [hproposed] at hrow
      obtain ⟨stored, hstored, hsame⟩ := Option.map_eq_some_iff.mp hrow
      cases hsame
      exact (Aml.apply_eq_some hstored).1
    | keyword value | walletType value =>
      rw [hproposed] at hrow
      obtain ⟨stored, _, hsame⟩ := Option.map_eq_some_iff.mp hrow
      cases hsame
  · rw [happlied.other _ hkey] at hfind
    exact hwithin aml (Table.find?_eq_some.mp hfind).1

/-- What a commit has applied and written. -/
theorem State.commit_eq_ok (hcommit : state.commit approval = .ok after) :
    ∃ applied, state.apply approval.request = .ok applied ∧
      after = { applied.settle approval.request.id .approved (some approval.actor.sub) with
        approvals := state.approvals.erase approval } := by
  obtain ⟨applied, happly, hcommit⟩ := bind_eq_ok hcommit
  split at hcommit
  next => cases hcommit
  next => exact ⟨applied, happly, (Except.ok.inj hcommit).symm⟩

/-- What a commit that was compared has applied. -/
theorem State.Sound.applied (hsound : state.Sound) (hmem : approval ∈ state.approvals)
    (hcompared : approval.compared = true) (hcommit : state.commit approval = .ok after) :
    ∃ row applied, Applied state approval.request row applied ∧
      after = { applied.settle approval.request.id .approved (some approval.actor.sub) with
        approvals := state.approvals.erase approval } := by
  obtain ⟨applied, happly, hafter⟩ := State.commit_eq_ok hcommit
  have hholds := hsound.approvals approval hmem
  have hformed := hsound.requests _ (Log.find?_eq_some.mp hholds.request).1
  obtain ⟨row, hrow⟩ := State.apply_eq_ok hformed (hholds.base hcompared) happly
  exact ⟨row, applied, hrow, hafter⟩

theorem State.Sound.commit (hsound : state.Sound) (hmem : approval ∈ state.approvals)
    (hcompared : approval.compared = true) (hcommit : state.commit approval = .ok after) :
    after.Sound := by
  obtain ⟨row, applied, happlied, rfl⟩ := hsound.applied hmem hcompared hcommit
  have hholds := hsound.approvals approval hmem
  have hrequest := Log.find?_eq_some.mp hholds.request
  rw [happlied.rest]
  -- the approval is gone, and what it has applied is of no other record that is being approved
  have hrest : State.Sound { state with
      live := applied.live
      nextAml := applied.nextAml
      approvals := state.approvals.erase approval } := by
    refine { hsound.rollback approval with
      within := happlied.within hsound.within
      approvals := ?_ }
    intro other hother
    have hothers := hsound.approvals other (List.mem_of_mem_erase hother)
    refine { hothers with base := ?_ }
    intro hbase
    have hkey : other.request.key ≠ approval.request.key := by
      intro hsame
      have hunique := hsound.onePending _ (Log.find?_eq_some.mp hothers.request).1 _ hrequest.1
        hothers.pending hholds.pending hsame
      exact hsound.other_ids hmem other hother (congrArg Request.id hunique)
    exact (State.snapshot_congr (happlied.other _ hkey)).trans (hothers.base hbase)
  exact hrest.settle hholds.request hholds.pending (by simp) (hsound.other_ids hmem)

/-! ## One step -/

/-- The proposal of an approval that commits can be read back. -/
def Orderly : Event → Prop
  | .commit approval => approval.request.proposed.Readable
  | _ => True

theorem State.Sound.step (hsound : state.Sound) {event : Event}
    (hstep : Reference.step state event = some after) : after.Sound := by
  cases event with
  | draft input actor =>
    obtain ⟨draft, hdraft, rfl⟩ := Option.map_eq_some_iff.mp hstep
    apply hsound.withDrafts
    intro other hother
    rcases List.mem_cons.mp hother with rfl | hold
    · exact State.draft_formed (ok_of_toOption hdraft)
    · exact hsound.drafts other hold
  | check draft =>
    obtain ⟨⟨hmem, _⟩, hafter⟩ := Option.ite_none_right_eq_some.mp hstep
    obtain ⟨_, _, rfl⟩ := Option.map_eq_some_iff.mp hafter
    apply hsound.withDrafts
    intro other hother
    rcases List.mem_cons.mp hother with rfl | hold
    · exact hsound.drafts draft hmem
    · exact hsound.drafts other (List.mem_of_mem_erase hold)
  | insert draft =>
    obtain ⟨⟨hmem, _⟩, hafter⟩ := Option.ite_none_right_eq_some.mp hstep
    obtain ⟨inserted, hinsert, rfl⟩ := Option.map_eq_some_iff.mp hafter
    apply (hsound.insert hmem (ok_of_toOption hinsert)).withDrafts
    exact fun other hother => hsound.drafts other (List.mem_of_mem_erase hother)
  | drop draft =>
    obtain ⟨_, hafter⟩ := Option.ite_none_right_eq_some.mp hstep
    rw [← Option.some.inj hafter]
    apply hsound.withDrafts
    exact fun other hother => hsound.drafts other (List.mem_of_mem_erase hother)
  | lock id actor =>
    obtain ⟨hfree, hafter⟩ := Option.ite_none_left_eq_some.mp hstep
    obtain ⟨approval, hlock, rfl⟩ := Option.map_eq_some_iff.mp hafter
    exact hsound.lock hfree (ok_of_toOption hlock)
  | compare approval =>
    obtain ⟨hmem, hafter⟩ := Option.ite_none_right_eq_some.mp hstep
    obtain ⟨_, hcompare, rfl⟩ := Option.map_eq_some_iff.mp hafter
    exact hsound.compare hmem (ok_of_toOption hcompare)
  | commit approval =>
    obtain ⟨⟨hmem, hcompared⟩, hafter⟩ := Option.ite_none_right_eq_some.mp hstep
    exact hsound.commit hmem hcompared (ok_of_toOption hafter)
  | rollback approval =>
    obtain ⟨_, hafter⟩ := Option.ite_none_right_eq_some.mp hstep
    exact Option.some.inj hafter ▸ hsound.rollback approval
  | reject id actor =>
    obtain ⟨hfree, hafter⟩ := Option.ite_none_left_eq_some.mp hstep
    exact (hsound.reject hfree (ok_of_toOption hafter)).1
  | cancel id actor =>
    obtain ⟨hfree, hafter⟩ := Option.ite_none_left_eq_some.mp hstep
    exact (hsound.cancel hfree (ok_of_toOption hafter)).1

/-- A step that commits no approval leaves the live records alone. -/
theorem State.Sound.live_of_step (hsound : state.Sound) {event : Event}
    (hevent : ∀ approval, event ≠ .commit approval)
    (hstep : Reference.step state event = some after) : after.live = state.live := by
  cases event with
  | draft input actor =>
    obtain ⟨_, _, rfl⟩ := Option.map_eq_some_iff.mp hstep
    rfl
  | check draft | compare approval =>
    obtain ⟨_, hafter⟩ := Option.ite_none_right_eq_some.mp hstep
    obtain ⟨_, _, rfl⟩ := Option.map_eq_some_iff.mp hafter
    rfl
  | insert draft =>
    obtain ⟨_, hafter⟩ := Option.ite_none_right_eq_some.mp hstep
    obtain ⟨inserted, hinsert, rfl⟩ := Option.map_eq_some_iff.mp hafter
    have hok := ok_of_toOption hinsert
    rw [State.insert] at hok
    split at hok <;> cases hok
    rfl
  | drop draft | rollback approval =>
    obtain ⟨_, hafter⟩ := Option.ite_none_right_eq_some.mp hstep
    exact Option.some.inj hafter ▸ rfl
  | lock id actor =>
    obtain ⟨_, hafter⟩ := Option.ite_none_left_eq_some.mp hstep
    obtain ⟨_, _, rfl⟩ := Option.map_eq_some_iff.mp hafter
    rfl
  | commit approval => exact absurd rfl (hevent approval)
  | reject id actor =>
    obtain ⟨hfree, hafter⟩ := Option.ite_none_left_eq_some.mp hstep
    exact (hsound.reject hfree (ok_of_toOption hafter)).2
  | cancel id actor =>
    obtain ⟨hfree, hafter⟩ := Option.ite_none_left_eq_some.mp hstep
    exact (hsound.cancel hfree (ok_of_toOption hafter)).2

/-- A step is lawful exactly if it commits no proposal that cannot be read back. -/
theorem State.Sound.lawful_iff (hsound : state.Sound) {event : Event}
    (hstep : Reference.step state event = some after) :
    Lawful state event after ↔ Orderly event := by
  by_cases hcommits : ∃ approval, event = .commit approval
  · obtain ⟨approval, rfl⟩ := hcommits
    obtain ⟨⟨hmem, hcompared⟩, hafter⟩ := Option.ite_none_right_eq_some.mp hstep
    obtain ⟨row, applied, happlied, rfl⟩ := hsound.applied hmem hcompared (ok_of_toOption hafter)
    obtain ⟨rowId, happly, hrowId⟩ := happlied.apply
    have hagrees := Snapshot.agrees_of_apply happly hrowId
    constructor
    · intro hlawful
      obtain ⟨current, hsnapshot, hfields⟩ := hlawful.agrees approval rfl
      obtain ⟨found, hfound, hread⟩ := State.snapshot_eq_some.mp hsnapshot
      obtain rfl := Option.some.inj (happlied.own.symm.trans hfound)
      exact hagrees.mp ⟨current, hread, hfields⟩
    · intro horderly
      obtain ⟨current, hread, hfields⟩ := hagrees.mpr horderly
      refine ⟨?_, ?_⟩
      · intro key hchanged
        by_cases hkey : key = approval.request.key
        · exact ⟨approval, rfl, hkey.symm, hsound.permits hmem hcompared⟩
        · exact absurd (happlied.other key hkey) hchanged
      · rintro _ ⟨⟩
        exact ⟨current, State.snapshot_eq_some.mpr ⟨row, happlied.own, hread⟩, hfields⟩
  · have hlive := hsound.live_of_step (fun approval hsame => hcommits ⟨approval, hsame⟩) hstep
    refine ⟨fun _ => ?_, fun _ => ⟨?_, ?_⟩⟩
    · cases event with
      | commit approval => exact absurd ⟨approval, rfl⟩ hcommits
      | _ => trivial
    · exact fun key hchanged => absurd (congrArg (fun live => live.find? key) hlive) hchanged
    · exact fun approval hsame => absurd ⟨approval, hsame⟩ hcommits

/-! ## Runs -/

/-- In every run one request of each record is pending at most, none is decided twice, and the AML
limits are in order; a live record changes only in an approval that may be applied, and agrees with
the proposal afterwards exactly if the proposal can be read back. -/
theorem reference_data_approved {start : State} (hstart : start.Initial)
    (hrun : Reaches step start state) :
    state.Kept ∧ ∀ event after, step state event = some after →
      (Lawful state event after ↔ Orderly event) := by
  have hsound : state.Sound := by
    apply hrun.preserves State.Sound _ hstart.sound
    exact fun before event after hbefore hstep => hbefore.step hstep
  exact ⟨hsound.kept, fun event after hstep => hsound.lawful_iff hstep⟩

end

/-! ## Two runs -/

def wallet : WalletType := walletTypeDefaults 103

def payment : KeywordRow where
  keyword := "PMNT"
  keywordDescription := none
  keywordScope := none
  isFinancial := some true
  chargeable := some "Y"
  kcIdLookup := none
  commissionable := some "Y"
  kcmIdLookup := none
  minimumTranAmount := 100
  involvedParty := none
  applyTds := none
  isRewardApplicable := false
  isSystemKeyword := false
  serviceStatus := true
  vatSource := "D"
  vatId := 1
  keywordDescriptionLocal := none
  isCategoryService := false
  priority := none
  reverseKeyword := none
  isActive := true

/-- A wallet type and a keyword without AML configuration. -/
def seeded : State where
  live := ⟨[.walletType ⟨wallet⟩, .keyword payment], by decide⟩
  nextAml := 1
  requests := .empty
  drafts := []
  approvals := []
  decided := []

theorem seeded_initial : seeded.Initial where
  within := by simp [seeded]
  requests := rfl
  drafts := rfl
  approvals := rfl
  decided := rfl

/-- A new AML configuration with some counts, queued by one administrator and approved by
another; the last event is the commit. -/
def configured (count : ℤ) : List Event × Event :=
  let maker : Actor := ⟨1, false⟩
  let checker : Actor := ⟨2, false⟩
  let dto : CreateAmlDto := ⟨100, 1000, count, 10000, count, none⟩
  let draft : Draft :=
    ⟨.aml 103 "PMNT", .create, none, .aml (dto.proposal 103 "PMNT"), maker, false⟩
  let approval : Approval := ⟨draft.request 1, checker, false⟩
  ([.draft (.createAmlConfiguration 103 "PMNT" dto) maker, .check draft,
    .insert { draft with checked := true }, .lock 1 checker, .compare approval],
    .commit { approval with compared := true })

/-- An approved configuration is read back and keeps its limits in order. -/
theorem reference_data_approved_configuration :
    ∃ state, Reaches step seeded state ∧ 3 ≤ state.live.rows.length ∧
      state.Kept ∧ ∀ event after, step state event = some after →
        (Lawful state event after ↔ Orderly event) := by
  have hany : (runInputs step seeded ((configured 10).1 ++ [(configured 10).2])).any
      (fun state => decide (3 ≤ state.live.rows.length)) := by decide
  obtain ⟨state, hrun, hfacts⟩ := (Option.any_eq_true _ _).mp hany
  have hreaches := Reaches.of_runInputs hrun
  exact ⟨state, hreaches, of_decide_eq_true hfacts,
    reference_data_approved seeded_initial hreaches⟩

/-- A configuration with counts that no `int` holds is approved, and cannot be read any more. -/
theorem counts_approved_unreadable :
    ∃ state event after, Reaches step seeded state ∧ step state event = some after ∧
      ¬ Lawful state event after := by
  have hany : (runInputs step seeded (configured 3000000000).1).any (fun state =>
      (step state (configured 3000000000).2).any fun after => decide (
        after.snapshot (.aml 103 "PMNT") = .error "integer out of range")) := by
    decide
  obtain ⟨state, hrun, hstep⟩ := (Option.any_eq_true _ _).mp hany
  obtain ⟨after, hafter, hfacts⟩ := (Option.any_eq_true _ _).mp hstep
  refine ⟨state, _, after, Reaches.of_runInputs hrun, hafter, ?_⟩
  intro hlawful
  obtain ⟨current, hsnapshot, _⟩ := hlawful.agrees _ rfl
  cases (of_decide_eq_true hfacts).symm.trans hsnapshot

end Finify.Reference
