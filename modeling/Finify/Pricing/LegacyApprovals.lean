/-
# Legacy prices as approved

What is applied stays as it was approved as long as detail rows are saved and
deleted only where neither the parent they had nor the one they get is applied,
and an approval finds the header as it was read, with a checker who has changed
nothing since the approval before.
-/

import Finify.Posting.Decision
import Finify.Pricing.Legacy

namespace Finify.Pricing.Legacy

open Foundations
open Posting (bind_eq_ok)

section

variable (toLowerCase : String → String) (service : Service)

/-! ## The guard -/

/-- Whether the header that a detail row belongs to is applied. -/
def Book.applied (book : Book) (parentId : Option ℕ) : Bool :=
  book.headers.rows.any fun header =>
    service.applies header && decide (parentId = some header.id)

/-- A save leaves the rows of applied headers alone, an approval finds what was read and is
nobody's who has changed it, and a demotion that follows a change is admitted. -/
def Write.Orderly (book : Book) (changed : Bool) : Write → Prop
  | .create _ _ _ | .delete _ => True
  | .pending header maker =>
    changed = true →
      book.accepts (book.changed header.id (header.pending maker).put) = true
  | .approve header checker =>
    book.accepts (book.changed header.id (header.approve checker).put) = true →
      (book.headers.find? header.id).map Header.content = some header.content ∧
        ∀ author ∈ book.authors header.id, sameUser toLowerCase checker author = false
  | .createDetail dto _ _ => book.applied service (some dto.parentId) = false
  | .updateDetail row _ =>
    (∀ parentId ∈ row.parentId, (book.headers.find? parentId).isSome = true) →
      book.details.find? row.rowId = some row ∨
        book.applied service row.parentId = false ∧
          ∀ old ∈ book.details.find? row.rowId, book.applied service old.parentId = false
  | .deleteDetail row _ =>
    ∀ old ∈ book.details.find? row.rowId, book.applied service old.parentId = false

/-- A parent that has to be demoted is there. -/
def Read.Orderly (book : Book) (changed : Bool) : Read → Prop
  | .markPending parentId _ =>
    changed = true → parentId.any (fun id => (book.headers.find? id).isSome) = true
  | _ => True

/-- The read or save that a call has come to is orderly. -/
def Event.Orderly (book : Book) : Event → Prop
  | .perform ⟨.read read, changed⟩ => read.Orderly book changed
  | .perform ⟨.write write, changed⟩ => write.Orderly toLowerCase service book changed
  | .begin _ | .crash _ | .configure _ => True

end

/-! ## Calls under way -/

/-- The phase of a call that is about to save a detail row that it has read. -/
def Phase.storesRow : Phase → Bool
  | .write (.updateDetail _ _) => true
  | _ => false

/-- A call that has changed a row has only the demotion left, and rows in memory have been in the
table. -/
def Call.Sound (nextRow : ℕ) (call : Call) : Prop :=
  match call.phase with
  | .read (.markPending _ _) | .write (.pending _ _) => True
  | .write (.updateDetail row _) => call.changed = false ∧ row.rowId < nextRow
  | _ => call.changed = false

/-- The calls under way are sound, and the sequence is ahead of the detail rows. -/
structure Book.Traced (book : Book) : Prop where
  calls : ∀ call ∈ book.calls, call.Sound book.nextRow
  below : ∀ row ∈ book.details.rows, row.rowId < book.nextRow

section

variable {toLowerCase : String → String} {service : Service} {book after : Book} {call : Call}

theorem Call.Sound.later {nextRow later : ℕ} (hsound : call.Sound nextRow) (hle : nextRow ≤ later) :
    call.Sound later := by
  obtain ⟨phase, changed⟩ := call
  cases phase with
  | read read => cases read <;> exact hsound
  | write write =>
    cases write
    case updateDetail row maker => exact ⟨hsound.1, hsound.2.trans_le hle⟩
    all_goals exact hsound

/-- A call that has changed nothing is sound unless it is about to save a detail row. -/
theorem Call.sound_of_unchanged {nextRow : ℕ} {phase : Phase}
    (hphase : phase.storesRow = false) : (⟨phase, false⟩ : Call).Sound nextRow := by
  cases phase with
  | read read => cases read <;> first | rfl | trivial
  | write write =>
    cases write
    case updateDetail row maker => cases hphase
    all_goals first | rfl | trivial

/-- What a read leads to, unless it is the read of a parent that has to be demoted. -/
theorem Book.read_eq_ok {read : Read} {phase : Phase}
    (hread : book.read toLowerCase service read = .ok phase) :
    (∃ rowId dto row maker, book.details.find? rowId = some row ∧
      phase = .write (.updateDetail (UpdateDetailDto.over dto row) maker)) ∨
    phase.storesRow = false := by
  cases read with
  | updateDetail rowId dto maker =>
    simp only [Book.read] at hread
    split at hread
    next => cases hread
    next row hfind =>
      obtain ⟨_, _, hphase⟩ := bind_eq_ok hread
      cases hphase
      exact .inl ⟨rowId, dto, row, maker, hfind, rfl⟩
  | create id dto maker =>
    right
    cases service
    case charge =>
      obtain ⟨_, _, hphase⟩ := bind_eq_ok hread
      split at hphase <;> cases hphase
      rfl
    case commission =>
      simp only [Book.read] at hread
      split at hread
      next => cases hread
      next =>
        obtain ⟨_, _, hphase⟩ := bind_eq_ok hread
        cases hphase
        rfl
  | update id newId dto maker =>
    right
    simp only [Book.read] at hread
    split at hread
    next => cases hread
    next =>
      obtain ⟨_, _, hphase⟩ := bind_eq_ok hread
      split at hphase <;> cases hphase <;> rfl
  | approve id checker =>
    right
    simp only [Book.read] at hread
    split at hread
    next => cases hread
    next =>
      cases service
      case charge =>
        obtain ⟨_, _, hphase⟩ := bind_eq_ok hread
        cases hphase
        rfl
      case commission =>
        cases hread
        rfl
  | approveDetails _ _ | createDetail _ _ =>
    right
    simp only [Book.read] at hread
    split at hread
    next => cases hread
    next =>
      obtain ⟨_, _, hphase⟩ := bind_eq_ok hread
      cases hphase
      rfl
  | delete id | deleteDetailParent row maker | markPending parentId maker =>
    right
    simp only [Book.read] at hread
    split at hread
    next => cases hread
    next =>
      split at hread <;> cases hread
      rfl
  | deactivate _ _ | deleteKeyword _ | deleteDefault _ | deleteDetails _ | deleteDetail _ _
  | deleteDetailKeyword _ _ =>
    right
    simp only [Book.read] at hread
    split at hread <;> cases hread
    rfl

/-- The parent that has to be demoted is read and saved. -/
theorem Book.markPending_eq_ok {parentId : Option ℕ} {maker : String} {phase : Phase}
    (hread : book.read toLowerCase service (.markPending parentId maker) = .ok phase) :
    ∃ parent, phase = .write (.pending parent maker) := by
  simp only [Book.read] at hread
  split at hread
  next => cases hread
  next =>
    split at hread <;> cases hread
    exact ⟨_, rfl⟩

theorem Book.advance_read_eq_ok {read : Read} {phase : Option Phase}
    (hadvance : book.advance toLowerCase service (.read read) = .ok (after, phase)) :
    ∃ reached, book.read toLowerCase service read = .ok reached ∧ book = after ∧
      some reached = phase := by
  rw [Book.advance] at hadvance
  cases hread : book.read toLowerCase service read with
  | error =>
    rw [hread] at hadvance
    cases hadvance
  | ok reached =>
    rw [hread] at hadvance
    cases hadvance
    exact ⟨reached, rfl, rfl, rfl⟩

/-- A read goes on soundly. -/
theorem Call.Sound.read {read : Read} {changed : Bool} {phase : Phase}
    (hsound : (⟨.read read, changed⟩ : Call).Sound book.nextRow)
    (hbelow : ∀ row ∈ book.details.rows, row.rowId < book.nextRow)
    (hread : book.read toLowerCase service read = .ok phase) :
    (⟨phase, changed⟩ : Call).Sound book.nextRow := by
  by_cases hpending : ∃ parentId maker, read = .markPending parentId maker
  · obtain ⟨parentId, maker, rfl⟩ := hpending
    obtain ⟨parent, rfl⟩ := Book.markPending_eq_ok hread
    trivial
  · have hchanged : changed = false := by
      cases read
      case markPending parentId maker => exact absurd ⟨parentId, maker, rfl⟩ hpending
      all_goals exact hsound
    subst hchanged
    rcases Book.read_eq_ok hread with ⟨rowId, dto, row, maker, hfind, rfl⟩ | hphase
    · exact ⟨rfl, hbelow row (Table.find?_eq_some.mp hfind).1⟩
    · exact Call.sound_of_unchanged hphase

/-! ## What saves do -/

theorem Book.saveHeader_eq_ok {id : ℕ} {change : Header → Header}
    {hid : ∀ row, (change row).id = row.id} (hok : book.saveHeader id change hid = .ok after) :
    book.accepts (book.changed id change) = true ∧
      after = { book with headers := book.headers.upsert (book.changed id change) change hid } := by
  rw [Book.saveHeader] at hok
  split at hok
  next haccepts => exact ⟨haccepts, (Except.ok.inj hok).symm⟩
  next => cases hok

theorem Book.saveHeader_of_accepts {id : ℕ} {change : Header → Header}
    {hid : ∀ row, (change row).id = row.id}
    (haccepts : book.accepts (book.changed id change) = true) :
    book.saveHeader id change hid =
      .ok { book with headers := book.headers.upsert (book.changed id change) change hid } :=
  if_pos haccepts

/-- After a save of a detail row a call has the demotion of the parent left, after any other save
nothing. -/
def Phase.demotes : Phase → Bool
  | .read (.markPending _ _) | .write (.pending _ _) => true
  | _ => false

theorem Call.sound_of_demotes {nextRow : ℕ} {phase : Phase} {changed : Bool}
    (hdemotes : phase.demotes = true) : (⟨phase, changed⟩ : Call).Sound nextRow := by
  cases phase with
  | read read => cases read <;> trivial
  | write write => cases write <;> trivial

/-- What no save touches, and what each save leaves of the sequence and of its call. -/
structure Book.Saves (book after : Book) (phase : Option Phase) : Prop where
  calls : after.calls = book.calls
  thrown : after.thrown = book.thrown
  nextRow : book.nextRow ≤ after.nextRow
  below : ∀ row ∈ after.details.rows, row.rowId < after.nextRow
  demotes : ∀ next ∈ phase, next.demotes = true

theorem Book.Traced.saves {write : Write} {phase : Option Phase} (htraced : book.Traced)
    {changed : Bool}
    (hsound : (⟨.write write, changed⟩ : Call).Sound book.nextRow)
    (hwrite : book.write write = .ok (after, phase)) : book.Saves after phase := by
  cases write with
  | create id dto maker | pending header maker | approve header checker =>
    obtain ⟨saved, hsaved, hok⟩ := bind_eq_ok hwrite
    obtain ⟨_, rfl⟩ := saveHeader_eq_ok hsaved
    cases hok
    exact ⟨rfl, rfl, le_refl _, htraced.below, by simp⟩
  | delete id =>
    simp only [Book.write] at hwrite
    split at hwrite <;> cases hwrite
    exact ⟨rfl, rfl, le_refl _, htraced.below, by simp⟩
  | createDetail dto parent maker =>
    simp only [Book.write] at hwrite
    split at hwrite
    next => cases hwrite
    next =>
      cases hinsert : book.details.insert? (dto.row book.nextRow) with
      | none =>
        rw [hinsert] at hwrite
        cases hwrite
      | some details =>
        rw [hinsert] at hwrite
        cases hwrite
        refine ⟨rfl, rfl, Nat.le_succ _, ?_, ?_⟩
        · intro row hrow
          have hrows : row ∈ book.details.rows ++ [dto.row book.nextRow] :=
            (Table.insert?_eq_some hinsert).2 ▸ hrow
          rcases List.mem_append.mp hrows with hold | hnew
          · exact Nat.lt_succ_of_lt (htraced.below row hold)
          · rw [List.mem_singleton.mp hnew]
            exact Nat.lt_succ_self _
        · cases parent <;> rintro _ ⟨⟩ <;> rfl
  | updateDetail row maker =>
    simp only [Book.write] at hwrite
    split at hwrite
    next => cases hwrite
    next =>
      cases hwrite
      refine ⟨rfl, rfl, le_refl _, ?_, by rintro _ ⟨⟩; rfl⟩
      intro other hother
      rcases Table.mem_upsert hother with ⟨hsame, _⟩ | ⟨_, hold⟩
      · exact hsame ▸ hsound.2
      · exact htraced.below other hold
  | deleteDetail row maker =>
    cases hwrite
    refine ⟨rfl, rfl, le_refl _, ?_, by rintro _ ⟨⟩; rfl⟩
    intro other hother
    exact htraced.below other (Table.mem_erase.mp hother).1

theorem Book.Traced.perform (htraced : book.Traced) (hmem : call ∈ book.calls) :
    (book.perform toLowerCase service call).Traced := by
  have hcall := htraced.calls call hmem
  have hrest : ∀ other ∈ book.calls.erase call, other.Sound book.nextRow := fun other hother =>
    htraced.calls other (List.mem_of_mem_erase hother)
  rw [Book.perform]
  split
  next => exact ⟨hrest, htraced.below⟩
  next next phase hadvance =>
    obtain ⟨called, changed⟩ := call
    cases called with
    | read read =>
      obtain ⟨reached, hread, rfl, rfl⟩ := Book.advance_read_eq_ok hadvance
      refine ⟨?_, htraced.below⟩
      intro other hother
      rcases List.mem_append.mp hother with hnew | hold
      · rw [List.mem_singleton.mp hnew, show book.differs book = false by simp [Book.differs],
          Bool.or_false]
        exact hcall.read htraced.below hread
      · exact hrest other hold
    | write write =>
      have hsaves := htraced.saves hcall hadvance
      refine ⟨?_, hsaves.below⟩
      intro other hother
      rcases List.mem_append.mp hother with hnew | hold
      · obtain ⟨reached, hreached, rfl⟩ := Option.map_eq_some_iff.mp (Option.mem_toList.mp hnew)
        exact Call.sound_of_demotes (hsaves.demotes reached hreached)
      · exact (hrest other hold).later hsaves.nextRow

theorem begin_storesRow {operation : Operation} {phase : Phase}
    (hbegin : service.begin operation = some (.ok phase)) : phase.storesRow = false := by
  cases service <;> cases operation <;> try cases hbegin
  all_goals try rfl
  obtain ⟨_, _, hphase⟩ := bind_eq_ok (Option.some.inj hbegin)
  cases hphase
  rfl

/-- Every step keeps the calls sound. -/
theorem Book.Traced.step (htraced : book.Traced) {event : Event}
    (hstep : book.step toLowerCase service event = some after) : after.Traced := by
  cases event with
  | begin operation =>
    obtain ⟨begun, hbegun, hafter⟩ := Option.map_eq_some_iff.mp hstep
    cases begun with
    | error => exact hafter ▸ htraced
    | ok phase =>
      subst hafter
      refine ⟨?_, htraced.below⟩
      intro call hcall
      rcases List.mem_cons.mp hcall with rfl | hold
      · exact Call.sound_of_unchanged (begin_storesRow hbegun)
      · exact htraced.calls call hold
  | perform call =>
    obtain ⟨hmem, hafter⟩ := Option.ite_none_right_eq_some.mp hstep
    rw [← Option.some.inj hafter]
    exact htraced.perform hmem
  | crash call =>
    obtain ⟨hmem, hafter⟩ := Option.ite_none_right_eq_some.mp hstep
    rw [← Option.some.inj hafter]
    exact ⟨fun other hother => htraced.calls other (List.mem_of_mem_erase hother), htraced.below⟩
  | configure keywordCharges =>
    obtain ⟨_, hafter⟩ := Option.ite_none_right_eq_some.mp hstep
    rw [← Option.some.inj hafter]
    exact ⟨htraced.calls, htraced.below⟩

/-! ## What stays as it was approved -/

theorem Book.applied_eq_false {parentId : Option ℕ} :
    book.applied service parentId = false ↔
      ∀ header ∈ book.headers.rows, service.applies header = true → parentId ≠ some header.id := by
  rw [Book.applied, List.any_eq_false]
  simp

theorem Book.applied_of_missing {id : ℕ} (hmissing : book.headers.find? id = none) :
    book.applied service (some id) = false := by
  apply applied_eq_false.mpr
  intro header hheader _ hsame
  exact Table.find?_eq_none.mp hmissing header hheader (Option.some.inj hsame).symm

theorem Book.changed_id (id : ℕ) {change : Header → Header}
    (hid : ∀ row, (change row).id = row.id) : (book.changed id change).id = id := by
  rw [Book.changed, hid]
  cases hfind : book.headers.find? id with
  | none => rfl
  | some old => exact (Table.find?_eq_some.mp hfind).2

theorem Book.mem_saveHeader {id : ℕ} {change : Header → Header}
    {hid : ∀ row, (change row).id = row.id} {header : Header} :
    header ∈ (book.headers.upsert (book.changed id change) change hid).rows →
      header = book.changed id change ∨ header.id ≠ id ∧ header ∈ book.headers.rows := by
  intro hheader
  have hkey := book.changed_id id hid
  rcases Table.mem_upsert hheader with ⟨_, hsame⟩ | ⟨hne, hold⟩
  · left
    rw [hsame, hkey, Book.changed]
    cases book.headers.find? id with
    | none => rfl
    | some old => rfl
  · exact .inr ⟨hkey ▸ hne, hold⟩

theorem Book.changed_mem {id : ℕ} {change : Header → Header}
    {hid : ∀ row, (change row).id = row.id} :
    book.changed id change ∈ (book.headers.upsert (book.changed id change) change hid).rows := by
  have hkey := book.changed_id id hid
  have hfind := Table.find?_upsert book.headers (book.changed id change) change hid id
  rw [hkey, if_pos rfl] at hfind
  apply (Table.find?_eq_some.mp (hfind.trans ?_)).1
  rw [Book.changed]
  cases book.headers.find? id with
  | none => rfl
  | some old => rfl

/-- A header that is saved and not applied leaves the others as they were approved. -/
theorem Book.Kept.saveHeader (hkept : book.Kept toLowerCase service) {id : ℕ}
    {change : Header → Header} {hid : ∀ row, (change row).id = row.id}
    (hidle : service.applies (book.changed id change) = false) (ids : List ℕ) (maker : String) :
    (({ book with headers := book.headers.upsert (book.changed id change) change hid } :
      Book).credit ids maker).Kept toLowerCase service := by
  refine ⟨?_, hkept.unchanged⟩
  intro header hheader happlies
  rcases Book.mem_saveHeader hheader with rfl | ⟨_, hold⟩
  · rw [hidle] at happlies
    cases happlies
  · exact hkept.asApproved header hold happlies

/-- An approval is in order if it finds what was read and the checker has changed nothing. -/
theorem Book.Kept.approve (hkept : book.Kept toLowerCase service) (header : Header)
    (checker : String) :
    ({ book.record header.id checker with
        headers := book.headers.upsert (book.changed header.id (header.approve checker).put)
          (header.approve checker).put (header.approve checker).put_id } : Book).Kept
        toLowerCase service ↔
      (book.headers.find? header.id).map Header.content = some header.content ∧
        ∀ author ∈ book.authors header.id, sameUser toLowerCase checker author = false := by
  have hkey := book.changed_id header.id (header.approve checker).put_id
  constructor
  · intro hafter
    obtain ⟨approval, hfind, hcontent, _, hchecker, hauthors⟩ :=
      hafter.asApproved _ Book.changed_mem (by cases service <;> rfl)
    rw [hkey] at hfind
    cases (Function.update_self _ _ book.approved).symm.trans hfind
    exact ⟨hcontent, hauthors⟩
  · rintro ⟨hcontent, hauthors⟩
    refine ⟨?_, hkept.unchanged⟩
    intro other hother happlies
    rcases Book.mem_saveHeader hother with rfl | ⟨hne, hold⟩
    · refine ⟨_, (congrArg _ hkey).trans (Function.update_self _ _ book.approved), ?_⟩
      refine ⟨hcontent, ?_, rfl, hauthors⟩
      rw [hkey]
      rfl
    · obtain ⟨approval, hfind, hfacts⟩ := hkept.asApproved other hold happlies
      exact ⟨approval, (Function.update_of_ne hne _ book.approved).trans hfind, hfacts⟩

/-- Where only detail rows change, what is applied stays as it was approved exactly if its rows
stay. -/
theorem Book.Kept.iff_rowsOf (hkept : book.Kept toLowerCase service)
    (hheaders : after.headers = book.headers) (happroved : after.approved = book.approved)
    (hthrown : after.thrown = book.thrown) :
    after.Kept toLowerCase service ↔
      ∀ header ∈ book.headers.rows, service.applies header = true →
        after.rowsOf header.id = book.rowsOf header.id := by
  constructor
  · intro hafter header hheader happlies
    obtain ⟨approval, hfind, _, hdetails, _⟩ := hkept.asApproved header hheader happlies
    obtain ⟨other, hother, _, hrows, _⟩ :=
      hafter.asApproved header (hheaders ▸ hheader) happlies
    rw [happroved, hfind] at hother
    cases hother
    rw [← hrows, hdetails]
  · intro hrows
    refine ⟨?_, hthrown.trans hkept.unchanged⟩
    intro header hheader happlies
    rw [hheaders] at hheader
    obtain ⟨approval, hfind, hcontent, hdetails, hchecker, hauthors⟩ :=
      hkept.asApproved header hheader happlies
    refine ⟨approval, happroved ▸ hfind, hcontent, ?_, hchecker, hauthors⟩
    exact hdetails.trans (hrows header hheader happlies).symm

/-! ## Detail rows -/

theorem Book.mem_rowsOf {id : ℕ} {row : Detail} :
    row ∈ book.rowsOf id ↔ row ∈ book.details.rows ∧ row.parentId = some id := by
  simp [Book.rowsOf]

theorem Book.rowsOf_of_append {row : Detail}
    (hrows : after.details.rows = book.details.rows ++ [row]) (id : ℕ) :
    after.rowsOf id = book.rowsOf id ↔ row.parentId ≠ some id := by
  rw [Book.rowsOf, Book.rowsOf, hrows, List.filter_append, List.append_right_eq_self,
    List.filter_eq_nil_iff]
  simp

/-- A row that is saved leaves the rows of a header alone if it was there like that, or if it
neither belonged nor belongs to the header. -/
theorem Book.rowsOf_of_upsert {row : Detail}
    (hdetails : after.details = book.details.upsert row row.put row.put_rowId) (id : ℕ) :
    after.rowsOf id = book.rowsOf id ↔
      book.details.find? row.rowId = some row ∨
        row.parentId ≠ some id ∧
          ∀ old ∈ book.details.find? row.rowId, old.parentId ≠ some id := by
  have hput : (book.details.find? row.rowId).elim row row.put = row := by
    cases hfind : book.details.find? row.rowId with
    | none => rfl
    | some old =>
      rw [Option.elim, Detail.put, (Table.find?_eq_some.mp hfind).2]
  have hstored : row ∈ after.details.rows := by
    have hfind := Table.find?_upsert book.details row row.put row.put_rowId row.rowId
    rw [if_pos rfl, hput, ← hdetails] at hfind
    exact (Table.find?_eq_some.mp hfind).1
  constructor
  · intro hsame
    by_cases hthere : book.details.find? row.rowId = some row
    · exact .inl hthere
    · refine .inr ⟨?_, ?_⟩
      · intro hparent
        have hmem := hsame ▸ Book.mem_rowsOf.mpr ⟨hstored, hparent⟩
        exact hthere (Table.find?_key (Book.mem_rowsOf.mp hmem).1)
      · intro old hold hparent
        obtain ⟨hmem, hkey⟩ := Table.find?_eq_some.mp hold
        have hstays := (Book.mem_rowsOf.mp (hsame.symm ▸ Book.mem_rowsOf.mpr ⟨hmem, hparent⟩)).1
        have hold' : old = row := after.details.eq_of_key_eq hstays hstored hkey
        exact hthere (hold' ▸ hold)
  · rintro (hthere | ⟨hnew, hold⟩)
    · have hsame : book.details.upsert row row.put row.put_rowId = book.details :=
        Table.upsert_eq_self.mpr ⟨row, hthere, rfl⟩
      rw [Book.rowsOf, hdetails, hsame, Book.rowsOf]
    · rw [Book.rowsOf, hdetails]
      apply Table.filter_upsert_of_not
      · rw [hput]
        exact decide_eq_false hnew
      · exact fun old hfind => decide_eq_false (hold old hfind)

theorem Book.rowsOf_of_erase {rowId : ℕ} (hdetails : after.details = book.details.erase rowId)
    (id : ℕ) :
    after.rowsOf id = book.rowsOf id ↔
      ∀ old ∈ book.details.find? rowId, old.parentId ≠ some id := by
  constructor
  · intro hsame old hold hparent
    obtain ⟨hmem, hkey⟩ := Table.find?_eq_some.mp hold
    have hstays := (Book.mem_rowsOf.mp (hsame.symm ▸ Book.mem_rowsOf.mpr ⟨hmem, hparent⟩)).1
    rw [hdetails] at hstays
    exact (Table.mem_erase.mp hstays).2 hkey
  · intro hother
    rw [Book.rowsOf, hdetails, Table.erase, List.filter_filter]
    apply List.filter_congr
    intro row hrow
    by_cases hkey : row.rowId = rowId
    · have hne := hother row (hkey ▸ Table.find?_key hrow)
      simp [hne]
    · simp [hkey]

/-! ## One save -/

variable {save : Write} {changed : Bool}

/-- A save that is refused is orderly unless its call has changed a row before. -/
theorem Book.Traced.refused (htraced : book.Traced)
    (hsound : (⟨.write save, changed⟩ : Call).Sound book.nextRow) {refusal : Refusal}
    (hwrite : book.write save = .error refusal) :
    save.Orderly toLowerCase service book changed ↔ changed = false := by
  cases save with
  | create id dto maker => exact ⟨fun _ => hsound, fun _ => trivial⟩
  | delete id => exact ⟨fun _ => hsound, fun _ => trivial⟩
  | pending header maker =>
    have hrefuses : book.accepts (book.changed header.id (header.pending maker).put) ≠ true := by
      intro haccepts
      rw [Book.write, Book.saveHeader_of_accepts haccepts] at hwrite
      cases hwrite
    constructor
    · intro horderly
      exact Bool.eq_false_iff.mpr fun hchanged => hrefuses (horderly hchanged)
    · intro hchanged htrue
      rw [hchanged] at htrue
      cases htrue
  | approve header checker =>
    refine ⟨fun _ => hsound, ?_⟩
    intro _ haccepts
    have hok : (book.record header.id checker).saveHeader header.id (header.approve checker).put
        (header.approve checker).put_id = .ok _ := Book.saveHeader_of_accepts haccepts
    rw [Book.write, hok] at hwrite
    cases hwrite
  | createDetail dto parent maker =>
    refine ⟨fun _ => hsound, ?_⟩
    intro _
    simp only [Book.write] at hwrite
    split at hwrite
    next hmissing => exact Book.applied_of_missing (Option.isNone_iff_eq_none.mp hmissing)
    next =>
      have hfresh : book.details.find? (dto.row book.nextRow).rowId = none :=
        Table.find?_eq_none.mpr fun other hother => (htraced.below other hother).ne
      obtain ⟨details, hinsert⟩ := Table.insert?_of_fresh hfresh
      rw [hinsert] at hwrite
      cases hwrite
  | updateDetail row maker =>
    refine ⟨fun _ => hsound.1, ?_⟩
    intro _ hparents
    simp only [Book.write] at hwrite
    split at hwrite
    next hmissing =>
      obtain ⟨parentId, hparent, hnone⟩ := (Option.any_eq_true _ _).mp hmissing
      have hfound := hparents parentId hparent
      rw [Option.isNone_iff_eq_none.mp hnone] at hfound
      cases hfound
    next => cases hwrite
  | deleteDetail row maker => cases hwrite

/-- A save keeps what is applied as it was approved exactly if it is orderly. -/
theorem Book.Kept.write (hkept : book.Kept toLowerCase service) {phase : Option Phase}
    (hwrite : book.write save = .ok (after, phase)) :
    after.Kept toLowerCase service ↔ save.Orderly toLowerCase service book changed := by
  cases save with
  | create id dto maker =>
    obtain ⟨saved, hsaved, hok⟩ := bind_eq_ok hwrite
    obtain ⟨_, rfl⟩ := Book.saveHeader_eq_ok hsaved
    cases hok
    exact ⟨fun _ => trivial, fun _ => hkept.saveHeader (by cases service <;> rfl) _ _⟩
  | pending header maker =>
    obtain ⟨saved, hsaved, hok⟩ := bind_eq_ok hwrite
    obtain ⟨haccepts, rfl⟩ := Book.saveHeader_eq_ok hsaved
    cases hok
    exact ⟨fun _ _ => haccepts, fun _ => hkept.saveHeader (by cases service <;> rfl) _ _⟩
  | approve header checker =>
    obtain ⟨saved, hsaved, hok⟩ := bind_eq_ok hwrite
    obtain ⟨haccepts, rfl⟩ := Book.saveHeader_eq_ok hsaved
    cases hok
    apply (hkept.approve header checker).trans
    exact ⟨fun hfacts _ => hfacts, fun horderly => horderly haccepts⟩
  | delete id =>
    simp only [Book.write] at hwrite
    split at hwrite <;> cases hwrite
    refine ⟨fun _ => trivial, fun _ => ⟨?_, hkept.unchanged⟩⟩
    intro header hheader
    exact hkept.asApproved header (Table.mem_erase.mp hheader).1
  | createDetail dto parent maker =>
    simp only [Book.write] at hwrite
    split at hwrite
    next => cases hwrite
    next =>
      cases hinsert : book.details.insert? (dto.row book.nextRow) with
      | none =>
        rw [hinsert] at hwrite
        cases hwrite
      | some details =>
        rw [hinsert] at hwrite
        cases hwrite
        have hrows := (Table.insert?_eq_some hinsert).2
        refine Iff.trans (hkept.iff_rowsOf (by rfl) (by rfl) (by rfl)) ?_
        refine Iff.trans ?_ Book.applied_eq_false.symm
        apply forall₃_congr
        intro header _ _
        exact @Book.rowsOf_of_append book _ (dto.row book.nextRow) hrows header.id
  | updateDetail row maker =>
    simp only [Book.write] at hwrite
    split at hwrite
    next => cases hwrite
    next hparents =>
      cases hwrite
      refine Iff.trans (hkept.iff_rowsOf (by rfl) (by rfl) (by rfl)) ?_
      refine Iff.trans (forall₃_congr fun header _ _ =>
        Book.rowsOf_of_upsert (by rfl) header.id) ?_
      constructor
      · intro hheaders _
        by_cases hthere : book.details.find? row.rowId = some row
        · exact .inl hthere
        · have hapart := fun header hmem happlies =>
            (hheaders header hmem happlies).resolve_left hthere
          refine .inr ⟨Book.applied_eq_false.mpr fun header hmem happlies =>
            (hapart header hmem happlies).1, ?_⟩
          exact fun old hold => Book.applied_eq_false.mpr fun header hmem happlies =>
            (hapart header hmem happlies).2 old hold
      · intro horderly header hmem happlies
        apply (horderly ?_).imp_right
        · rintro ⟨hnew, hold⟩
          exact ⟨Book.applied_eq_false.mp hnew header hmem happlies,
            fun old hfind => Book.applied_eq_false.mp (hold old hfind) header hmem happlies⟩
        · intro parentId hparent
          by_contra hmissing
          exact hparents ((Option.any_eq_true _ _).mpr
            ⟨parentId, hparent, by simpa using hmissing⟩)
  | deleteDetail row maker =>
    cases hwrite
    refine Iff.trans (hkept.iff_rowsOf (by rfl) (by rfl) (by rfl)) ?_
    refine Iff.trans (forall₃_congr fun header _ _ =>
      Book.rowsOf_of_erase (by rfl) header.id) ?_
    constructor
    · exact fun hheaders old hold => Book.applied_eq_false.mpr fun header hmem happlies =>
        hheaders header hmem happlies old hold
    · exact fun horderly header hmem happlies old hold =>
        Book.applied_eq_false.mp (horderly old hold) header hmem happlies

/-! ## One step -/

/-- What is known between two steps. -/
structure Book.Sound (toLowerCase : String → String) (service : Service) (book : Book) : Prop where
  kept : book.Kept toLowerCase service
  traced : book.Traced

theorem Book.Kept.of_error (hkept : book.Kept toLowerCase service) {refusal : Refusal}
    (hadvance : book.advance toLowerCase service call.phase = .error refusal) :
    (book.perform toLowerCase service call).Kept toLowerCase service ↔ call.changed = false := by
  rw [Book.perform, hadvance]
  constructor
  · intro hafter
    have hthrown : book.thrown + call.changed.toNat = 0 := hafter.unchanged
    cases hchanged : call.changed with
    | false => rfl
    | true =>
      rw [hchanged] at hthrown
      cases hthrown
  · intro hchanged
    refine ⟨hkept.asApproved, ?_⟩
    change book.thrown + call.changed.toNat = 0
    rw [hkept.unchanged, hchanged]
    rfl

theorem Book.kept_of_ok {phase : Option Phase}
    (hadvance : book.advance toLowerCase service call.phase = .ok (after, phase)) :
    (book.perform toLowerCase service call).Kept toLowerCase service ↔
      after.Kept toLowerCase service := by
  rw [Book.perform, hadvance]
  exact ⟨fun hafter => ⟨hafter.asApproved, hafter.unchanged⟩,
    fun hafter => ⟨hafter.asApproved, hafter.unchanged⟩⟩

/-- A read that fails is orderly unless its call has changed a row before. -/
theorem Read.orderly_iff {read : Read} (hsound : (⟨.read read, changed⟩ : Call).Sound book.nextRow)
    {refusal : Refusal} (hread : book.read toLowerCase service read = .error refusal) :
    read.Orderly book changed ↔ changed = false := by
  cases read
  case markPending parentId maker =>
    have hmissing : parentId.any (fun id => (book.headers.find? id).isSome) ≠ true := by
      intro hfound
      obtain ⟨id, hid, hsome⟩ := (Option.any_eq_true _ _).mp hfound
      obtain ⟨parent, hparent⟩ := Option.isSome_iff_exists.mp hsome
      cases hid
      simp only [Book.read, hparent] at hread
      cases hread
    constructor
    · intro horderly
      exact Bool.eq_false_iff.mpr fun hchanged => hmissing (horderly hchanged)
    · intro hchanged htrue
      rw [hchanged] at htrue
      cases htrue
  all_goals exact ⟨fun _ => hsound, fun _ => trivial⟩

theorem Read.orderly_of_ok {read : Read} {phase : Phase}
    (hread : book.read toLowerCase service read = .ok phase) : read.Orderly book changed := by
  cases read
  case markPending parentId maker =>
    intro _
    simp only [Book.read] at hread
    split at hread
    next => cases hread
    next id =>
      split at hread
      next => cases hread
      next parent hparent => simp [hparent]
  all_goals trivial

/-- One read or save of a call keeps what is applied as it was approved exactly if it is
orderly. -/
theorem Book.Sound.perform (hsound : book.Sound toLowerCase service) (hmem : call ∈ book.calls) :
    (book.perform toLowerCase service call).Kept toLowerCase service ↔
      (Event.perform call).Orderly toLowerCase service book := by
  have hcall := hsound.traced.calls call hmem
  obtain ⟨called, changed⟩ := call
  cases hadvance : book.advance toLowerCase service called with
  | error refusal =>
    apply (hsound.kept.of_error hadvance).trans
    cases called with
    | read read =>
      cases hread : book.read toLowerCase service read with
      | error => exact (Read.orderly_iff hcall hread).symm
      | ok phase =>
        rw [Book.advance, hread] at hadvance
        cases hadvance
    | write save => exact (hsound.traced.refused hcall hadvance).symm
  | ok outcome =>
    apply (Book.kept_of_ok hadvance).trans
    cases called with
    | read read =>
      obtain ⟨reached, hread, hafter, _⟩ := Book.advance_read_eq_ok hadvance
      rw [← hafter]
      exact ⟨fun _ => Read.orderly_of_ok hread, fun _ => hsound.kept⟩
    | write save => exact hsound.kept.write hadvance

/-- One step keeps what is applied as it was approved exactly if it is orderly. -/
theorem Book.Sound.step_iff (hsound : book.Sound toLowerCase service) {event : Event}
    (hstep : book.step toLowerCase service event = some after) :
    after.Kept toLowerCase service ↔ event.Orderly toLowerCase service book := by
  cases event with
  | begin operation =>
    obtain ⟨begun, hbegun, rfl⟩ := Option.map_eq_some_iff.mp hstep
    refine ⟨fun _ => trivial, fun _ => ?_⟩
    cases begun with
    | error => exact hsound.kept
    | ok phase => exact ⟨hsound.kept.asApproved, hsound.kept.unchanged⟩
  | perform call =>
    obtain ⟨hmem, hafter⟩ := Option.ite_none_right_eq_some.mp hstep
    rw [← Option.some.inj hafter]
    exact hsound.perform hmem
  | crash call | configure keywordCharges =>
    obtain ⟨_, hafter⟩ := Option.ite_none_right_eq_some.mp hstep
    rw [← Option.some.inj hafter]
    exact ⟨fun _ => trivial, fun _ => ⟨hsound.kept.asApproved, hsound.kept.unchanged⟩⟩

/-! ## Runs -/

theorem Book.Sound.reaches {start : Book} (hstart : start.Sound toLowerCase service)
    (hrun : ReachesUnder (Book.step toLowerCase service) (Event.Orderly toLowerCase service) start
      book) : book.Sound toLowerCase service := by
  apply hrun.preserves (Book.Sound toLowerCase service) _ hstart
  intro before event after hsound horderly hstep
  exact ⟨(hsound.step_iff hstep).mpr horderly, hsound.traced.step hstep⟩

end

/-- Both services as they are while no call is under way. -/
structure Settled (toLowerCase : String → String) (start : Service → Book) : Prop where
  kept : ∀ service, (start service).Kept toLowerCase service
  idle : ∀ service, (start service).calls = []
  below : ∀ service, ∀ row ∈ (start service).details.rows, row.rowId < (start service).nextRow

theorem Settled.sound {toLowerCase : String → String} {start : Service → Book}
    (hsettled : Settled toLowerCase start) (service : Service) :
    (start service).Sound toLowerCase service where
  kept := hsettled.kept service
  traced :=
    { calls := by simp [hsettled.idle service]
      below := hsettled.below service }

def Orderly (toLowerCase : String → String) (state : Service → Book) (event : Service × Event) :
    Prop :=
  event.2.Orderly toLowerCase event.1 (state event.1)

/-- In every run of the two services whose steps are orderly what is applied is what was
approved, by somebody who had changed none of it, and no call throws after it has changed a row;
and the next step keeps it so exactly if it is orderly. -/
theorem legacy_prices_as_approved {toLowerCase : String → String} {start state : Service → Book}
    (hstart : Settled toLowerCase start)
    (hrun : ReachesUnder (step toLowerCase) (Orderly toLowerCase) start state) :
    (∀ service, (state service).Kept toLowerCase service) ∧
      ∀ event after, step toLowerCase state event = some after →
        ((∀ service, (after service).Kept toLowerCase service) ↔
          Orderly toLowerCase state event) := by
  have hsound : ∀ service, (state service).Sound toLowerCase service := fun service =>
    (hstart.sound service).reaches (ReachesUnder.component hrun service)
  refine ⟨fun service => (hsound service).kept, ?_⟩
  intro event after hstep
  obtain ⟨book, hbook, rfl⟩ := Option.map_eq_some_iff.mp hstep
  rw [Orderly, ← (hsound event.1).step_iff hbook]
  constructor
  · intro hkept
    have hthis := hkept event.1
    rwa [Function.update_self] at hthis
  · intro hkept service
    by_cases hsame : service = event.1
    · subst hsame
      rwa [Function.update_self]
    · rw [Function.update_of_ne hsame]
      exact (hsound service).kept

/-! ## Two runs -/

theorem settled_fresh (toLowerCase : String → String) : Settled toLowerCase fun _ => .fresh where
  kept _ := ⟨fun _ hheader => (List.not_mem_nil hheader).elim, rfl⟩
  idle _ := rfl
  below _ _ hrow := (List.not_mem_nil hrow).elim

instance (toLowerCase : String → String) (service : Service) (book : Book) (changed : Bool)
    (save : Write) : Decidable (save.Orderly toLowerCase service book changed) :=
  match save with
  | .create _ _ _ | .delete _ => inferInstanceAs (Decidable True)
  | .pending header maker => inferInstanceAs (Decidable (changed = true →
      book.accepts (book.changed header.id (header.pending maker).put) = true))
  | .approve header checker => inferInstanceAs (Decidable (
      book.accepts (book.changed header.id (header.approve checker).put) = true →
        (book.headers.find? header.id).map Header.content = some header.content ∧
          ∀ author ∈ book.authors header.id, sameUser toLowerCase checker author = false))
  | .createDetail dto _ _ =>
    inferInstanceAs (Decidable (book.applied service (some dto.parentId) = false))
  | .updateDetail row _ => inferInstanceAs (Decidable (
      (∀ parentId ∈ row.parentId, (book.headers.find? parentId).isSome = true) →
        book.details.find? row.rowId = some row ∨
          book.applied service row.parentId = false ∧
            ∀ old ∈ book.details.find? row.rowId, book.applied service old.parentId = false))
  | .deleteDetail row _ => inferInstanceAs (Decidable (
      ∀ old ∈ book.details.find? row.rowId, book.applied service old.parentId = false))

instance (book : Book) (changed : Bool) (read : Read) : Decidable (read.Orderly book changed) :=
  match read with
  | .markPending parentId _ => inferInstanceAs (Decidable (
      changed = true → parentId.any (fun id => (book.headers.find? id).isSome) = true))
  | .create _ _ _ | .update _ _ _ _ | .deactivate _ _ | .approve _ _ | .approveDetails _ _
  | .delete _ | .deleteKeyword _ | .deleteDefault _ | .deleteDetails _ | .createDetail _ _
  | .updateDetail _ _ _ | .deleteDetail _ _ | .deleteDetailParent _ _ | .deleteDetailKeyword _ _ =>
    inferInstanceAs (Decidable True)

instance (toLowerCase : String → String) (state : Service → Book) (event : Service × Event) :
    Decidable (Orderly toLowerCase state event) :=
  match event with
  | (_, .perform ⟨.read read, changed⟩) => inferInstanceAs (Decidable (read.Orderly _ changed))
  | (service, .perform ⟨.write save, changed⟩) =>
    inferInstanceAs (Decidable (save.Orderly toLowerCase service _ changed))
  | (_, .begin _) | (_, .crash _) | (_, .configure _) => inferInstanceAs (Decidable True)

/-- Two charges by one maker, a row of the first, and its approval. -/
def approval : List (Service × Event) :=
  let flat : ContentDto := { kind := some (some 0) }
  let row : CreateDetailDto := { parentId := 1, kind := "flat", value := 10 }
  let first : Header := { id := 1, content := { kind := some 0 }, createdBy := some "maker" }
  let ready := first.pending "maker"
  [.begin (.create 1 flat "maker"), .perform ⟨.read (.create 1 flat "maker"), false⟩,
    .perform ⟨.write (.create 1 flat "maker"), false⟩,
    .begin (.create 2 flat "maker"), .perform ⟨.read (.create 2 flat "maker"), false⟩,
    .perform ⟨.write (.create 2 flat "maker"), false⟩,
    .begin (.createDetail row "maker"), .perform ⟨.write (.createDetail row none "maker"), false⟩,
    .perform ⟨.read (.markPending (some 1) "maker"), true⟩,
    .perform ⟨.write (.pending first "maker"), true⟩,
    .begin (.approve 1 "checker"), .perform ⟨.read (.approve 1 "checker"), false⟩,
    .perform ⟨.write (.approve ready "checker"), false⟩].map fun event => (.charge, event)

/-- The row of the first charge is moved to the second. -/
def move : List (Service × Event) :=
  let dto : UpdateDetailDto := { parentId := some (some 2) }
  let row := ({ parentId := 2, kind := "flat", value := 10 } : CreateDetailDto).row 1
  let second : Header := { id := 2, content := { kind := some 0 }, createdBy := some "maker" }
  [.begin (.updateDetail 1 dto "maker"), .perform ⟨.read (.updateDetail 1 dto "maker"), false⟩,
    .perform ⟨.write (.updateDetail row "maker"), false⟩,
    .perform ⟨.read (.markPending (some 2) "maker"), true⟩,
    .perform ⟨.write (.pending second "maker"), true⟩].map fun event => (.charge, event)

/-- An approval leads to an active charge by orderly steps, and the next step keeps it as it was
approved exactly if it is orderly. -/
theorem legacy_prices_as_approved_active :
    ∃ state, ReachesUnder (step String.toLower) (Orderly String.toLower) (fun _ => .fresh) state ∧
      ((state .charge).applied .charge (some 1) = true ∧ (state .charge).rowsOf 1 ≠ []) ∧
      (∀ service, (state service).Kept String.toLower service) ∧
        ∀ event after, step String.toLower state event = some after →
          ((∀ service, (after service).Kept String.toLower service) ↔
            Orderly String.toLower state event) := by
  have hany : (runInputs (guardedStep (step String.toLower) (Orderly String.toLower))
      (fun _ => .fresh) approval).any (fun state => decide (
        (state .charge).applied .charge (some 1) = true ∧ (state .charge).rowsOf 1 ≠ [])) := by
    decide +kernel
  obtain ⟨state, hrun, hfacts⟩ := (Option.any_eq_true _ _).mp hany
  have hreaches := (Reaches.of_runInputs hrun).under
  exact ⟨state, hreaches, of_decide_eq_true hfacts,
    legacy_prices_as_approved (settled_fresh _) hreaches⟩

/-- A charge whose only row is moved away by an update stays active without a row, also when all
calls have ended. -/
theorem row_moved_from_active_charge :
    ∃ state, Reaches (step String.toLower) (fun _ => .fresh) state ∧
      (∀ service, (state service).calls = []) ∧
      ¬ (state .charge).Kept String.toLower .charge := by
  have hany : (runInputs (step String.toLower) (fun _ => .fresh) (approval ++ move)).any
      (fun state => decide (((state .charge).calls = [] ∧ (state .commission).calls = []) ∧
        ∃ header ∈ (state .charge).headers.rows, header.id = 1 ∧ header.status = 1 ∧
          ((state .charge).approved 1).map Approval.details ≠
            some ((state .charge).rowsOf 1))) := by
    decide +kernel
  obtain ⟨state, hrun, hfacts⟩ := (Option.any_eq_true _ _).mp hany
  obtain ⟨⟨hcharge, hcommission⟩, header, hheader, hid, hstatus, hdetails⟩ :=
    of_decide_eq_true hfacts
  refine ⟨state, Reaches.of_runInputs hrun, by rintro ⟨⟩ <;> assumption, ?_⟩
  intro hkept
  obtain ⟨approval, hfind, _, hrows, _⟩ :=
    hkept.asApproved header hheader (decide_eq_true hstatus)
  rw [hid] at hfind hrows
  exact hdetails (by rw [hfind, Option.map_some, hrows])

end Finify.Pricing.Legacy
