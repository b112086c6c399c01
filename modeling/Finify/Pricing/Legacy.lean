/-
# Legacy prices

`ChargeService` and `CommissionService` keep a header for each price and rows of
detail beside it, and save them one by one.  A call is a sequence of reads and
saves; what it has in memory between two of them is part of the state, and other
calls come in between.  Beside the tables stands what was approved, by whom, and
who has changed what since.
-/

import Finify.Pricing.Registry

namespace Finify.Pricing.Legacy

open Foundations

/-! ## Rows -/

inductive Service | charge | commission
  deriving DecidableEq, Repr

/-- What a header says of the price. -/
structure Content where
  kind : Option ℕ := none
  expiryOn : Option ℤ := none
  defaultId : Option ℕ := none
  description : Option String := none
  deriving DecidableEq

/-- A row of `SW_TBL_CHARGE` or `SW_TBL_COMMISSION`. -/
structure Header where
  id : ℕ
  content : Content := {}
  status : ℕ := 0
  createdBy : Option String := none
  modifiedBy : Option String := none
  approvedBy : Option String := none
  deriving DecidableEq

/-- A row of `SW_TBL_CHARGE_DETAILS` or `SW_TBL_COMMISSION_DETAIL`. -/
structure Detail where
  rowId : ℕ
  parentId : Option ℕ
  kind : Option String
  value : Option ℚ
  startRange : Option ℚ
  endRange : Option ℚ
  minimum : Option ℚ
  maximum : Option ℚ
  deriving DecidableEq

/-- A row of `SW_TBL_KEYWORD_CHARGE`, as far as the deletions look at it. -/
structure KeywordCharge where
  chargeId : ℕ
  status : ℕ
  deriving DecidableEq

inductive Refusal
  | badRequest (message : String)
  | forbidden (message : String)
  | notFound (message : String)
  | conflict (message : String)
  | database
  deriving DecidableEq, Repr

/-- Charges with status 1 are applied, and commissions that somebody has approved. -/
def Service.applies (service : Service) (header : Header) : Bool :=
  match service with
  | .charge => decide (header.status = 1)
  | .commission => header.approvedBy.isSome

/-! ## What calls are given -/

/-- The fields of a header in a request; a field that is not given stays as it is. -/
structure ContentDto where
  kind : Option (Option ℕ) := none
  expiryOn : Option (Option ℤ) := none
  defaultId : Option (Option ℕ) := none
  description : Option (Option String) := none
  deriving DecidableEq

/-- `Object.assign`. -/
def ContentDto.over (dto : ContentDto) (content : Content) : Content where
  kind := dto.kind.getD content.kind
  expiryOn := dto.expiryOn.getD content.expiryOn
  defaultId := dto.defaultId.getD content.defaultId
  description := dto.description.getD content.description

/-- A new detail row. -/
structure CreateDetailDto where
  parentId : ℕ
  kind : String
  value : ℚ
  startRange : Option (Option ℚ) := none
  endRange : Option (Option ℚ) := none
  minimum : Option (Option ℚ) := none
  maximum : Option (Option ℚ) := none
  deriving DecidableEq

def CreateDetailDto.row (dto : CreateDetailDto) (rowId : ℕ) : Detail where
  rowId := rowId
  parentId := some dto.parentId
  kind := some dto.kind
  value := some dto.value
  startRange := dto.startRange.join
  endRange := dto.endRange.join
  minimum := dto.minimum.join
  maximum := dto.maximum.join

/-- The fields of a detail row in an update. -/
structure UpdateDetailDto where
  parentId : Option (Option ℕ) := none
  kind : Option (Option String) := none
  value : Option (Option ℚ) := none
  startRange : Option (Option ℚ) := none
  endRange : Option (Option ℚ) := none
  minimum : Option (Option ℚ) := none
  maximum : Option (Option ℚ) := none
  deriving DecidableEq

/-- `Object.assign`. -/
def UpdateDetailDto.over (dto : UpdateDetailDto) (row : Detail) : Detail where
  rowId := row.rowId
  parentId := dto.parentId.getD row.parentId
  kind := dto.kind.getD row.kind
  value := dto.value.getD row.value
  startRange := dto.startRange.getD row.startRange
  endRange := dto.endRange.getD row.endRange
  minimum := dto.minimum.getD row.minimum
  maximum := dto.maximum.getD row.maximum

/-! ## Checks -/

/-- `validateExpiryPair`, `validateExpiry`. -/
def Service.validateExpiry (service : Service) (content : Content) : Except Refusal Unit :=
  if content.expiryOn.isSome = content.defaultId.isSome then .ok ()
  else
    match service with
    | .charge => .error (.badRequest
        "Expiry_On and Def_Charge_ID must be provided together or both omitted")
    | .commission => .error (.badRequest
        "Expiry and default commission must be provided together")

/-- `detailType`: whether the detail is a percentage. -/
def Service.detailType (service : Service) (kind : Option String) : Except Refusal Bool :=
  let text := kind.getD "null"
  let value := (trim text).toLower
  match service with
  | .charge =>
    if value = "0" ∨ value = "flat" then .ok false
    else if value = "1" ∨ value = "percentage" ∨ value = "percent" then .ok true
    else .error (.badRequest ("Unsupported detail charge type: " ++ text))
  | .commission =>
    if value = "0" ∨ value = "flat" then .ok false
    else if value = "1" ∨ value = "perc" ∨ value = "percent" ∨ value = "percentage" then .ok true
    else .error (.badRequest "Unsupported commission detail type")

/-- `validateDetailDto`, given whether one of the bounds is missing. -/
def validateDetailDto (kind : Option String) (value : Option ℚ) (missing : Bool) :
    Except Refusal Unit := do
  let percentage ← Service.charge.detailType kind
  match value with
  | none => .error (.badRequest "chargeValue must be a valid decimal")
  | some value =>
    if value < 0 then .error (.badRequest "Charge value cannot be negative")
    else if percentage && missing then
      .error (.badRequest "Percentage charge requires minCharge and maxCharge")
    else .ok ()

def CreateDetailDto.missing (dto : CreateDetailDto) : Bool :=
  dto.minimum.isNone || dto.maximum.isNone

/-- The checks of `createDetail` in `CommissionService`. -/
def CreateDetailDto.validateCommission (dto : CreateDetailDto) : Except Refusal Unit := do
  let percentage ← Service.commission.detailType dto.kind
  if percentage && dto.missing then
    .error (.badRequest "Percentage commission requires minimum and maximum values")
  else .ok ()

/-- `modifiedBy || createdBy`. -/
def Header.lastModifier (header : Header) : Option String :=
  (header.modifiedBy.filter fun maker => maker ≠ "").or header.createdBy

section

variable (toLowerCase : String → String)

/-- Two names are the same up to case and surrounding blanks. -/
def sameUser (first second : String) : Bool :=
  decide (toLowerCase (trim first) = toLowerCase (trim second))

/-- `assertDifferentChecker`. -/
def Service.assertDifferentChecker (service : Service) (checker : String)
    (maker : Option String) : Except Refusal Unit :=
  if maker.any (sameUser toLowerCase checker) then
    match service with
    | .charge => .error (.forbidden "Maker and checker must be different users")
    | .commission => .error (.badRequest "Maker and checker must be different administrators")
  else .ok ()

end

/-- The message for a header that is missing. -/
def Service.missing : Service → String
  | .charge => "Charge not found"
  | .commission => "Commission not found"

/-- PostgreSQL stores no text with a zero character. -/
def storable (text : String) : Bool := text.toList.all fun c => decide (c ≠ '\x00')

/-! ## Saves -/

/-- `status: 0, modifiedBy: maker, approvedBy: null`. -/
def Header.pending (header : Header) (maker : String) : Header :=
  { header with status := 0, modifiedBy := some maker, approvedBy := none }

/-- `status: 1, approvedBy: checker`. -/
def Header.approve (header : Header) (checker : String) : Header :=
  { header with status := 1, approvedBy := some checker }

/-- What a new header does to the row that is there, if there is one. -/
def ContentDto.put (dto : ContentDto) (maker : String) (row : Header) : Header :=
  { row with
    content := dto.over row.content
    status := 0
    createdBy := some maker
    approvedBy := none }

theorem ContentDto.put_id (dto : ContentDto) (maker : String) (row : Header) :
    (dto.put maker row).id = row.id :=
  rfl

def Header.put (memory row : Header) : Header := { memory with id := row.id }

theorem Header.put_id (memory row : Header) : (memory.put row).id = row.id := rfl

def Detail.put (memory row : Detail) : Detail := { memory with rowId := row.rowId }

theorem Detail.put_rowId (memory row : Detail) : (memory.put row).rowId = row.rowId := rfl

/-! ## Calls under way -/

/-- The next thing that a call reads, with what it has in memory. -/
inductive Read
  | create (id : ℕ) (dto : ContentDto) (maker : String)
  | update (id : ℕ) (newId : Option (Option ℕ)) (dto : ContentDto) (maker : String)
  | deactivate (id : ℕ) (maker : String)
  | approve (id : ℕ) (checker : String)
  | approveDetails (header : Header) (checker : String)
  | delete (id : ℕ)
  | deleteKeyword (id : ℕ)
  | deleteDefault (id : ℕ)
  | deleteDetails (id : ℕ)
  | createDetail (dto : CreateDetailDto) (maker : String)
  | updateDetail (rowId : ℕ) (dto : UpdateDetailDto) (maker : String)
  | deleteDetail (rowId : ℕ) (maker : String)
  | deleteDetailParent (row : Detail) (maker : String)
  | deleteDetailKeyword (row : Detail) (maker : String)
  | markPending (parentId : Option ℕ) (maker : String)
  deriving DecidableEq

/-- The next thing that a call saves. -/
inductive Write
  | create (id : ℕ) (dto : ContentDto) (maker : String)
  | pending (header : Header) (maker : String)
  | approve (header : Header) (checker : String)
  | delete (id : ℕ)
  | createDetail (dto : CreateDetailDto) (parent : Option Header) (maker : String)
  | updateDetail (row : Detail) (maker : String)
  | deleteDetail (row : Detail) (maker : String)
  deriving DecidableEq

inductive Phase
  | read (read : Read)
  | write (write : Write)
  deriving DecidableEq

/-- A call under way, and whether a save of it has changed a row. -/
structure Call where
  phase : Phase
  changed : Bool := false
  deriving DecidableEq

/-- What was approved last: the header as it stood, its detail rows, by whom, and who had changed
any of them since the approval before. -/
structure Approval where
  content : Option Content
  details : List Detail
  checker : String
  authors : List String
  deriving DecidableEq

/-- The tables of one service, the calls under way, and the history: the last approval of each
header, who has changed it since, and how many calls threw after they had changed a row. -/
structure Book where
  headers : Table Header.id
  details : Table Detail.rowId
  nextRow : ℕ
  keywordCharges : List KeywordCharge
  calls : List Call
  approved : ℕ → Option Approval
  authors : ℕ → List String
  thrown : ℕ

namespace Book

def rowsOf (book : Book) (id : ℕ) : List Detail :=
  book.details.rows.filter fun row => decide (row.parentId = some id)

/-! ## Reads -/

section

variable (toLowerCase : String → String) (service : Service)

def read (book : Book) : Read → Except Refusal Phase
  | .create id dto maker =>
    match service with
    | .charge => do
        service.validateExpiry (dto.over {})
        if (book.headers.find? id).isSome then .error (.conflict "Charge ID already exists")
        else .ok (.write (.create id dto maker))
    | .commission =>
      if (book.headers.find? id).isSome then .error (.conflict "Commission ID already exists")
      else do
        service.validateExpiry (dto.over {})
        .ok (.write (.create id dto maker))
  | .update id newId dto maker =>
    match book.headers.find? id with
    | none => .error (.notFound service.missing)
    | some header => do
        service.validateExpiry (dto.over header.content)
        match newId with
        | some none => .error .database
        | some (some newId) =>
          .ok (.write (.pending { header with id := newId, content := dto.over header.content }
            maker))
        | none => .ok (.write (.pending { header with content := dto.over header.content } maker))
  | .deactivate id maker =>
    match book.headers.find? id with
    | none => .error (.notFound service.missing)
    | some header => .ok (.write (.pending header maker))
  | .approve id checker =>
    match book.headers.find? id with
    | none => .error (.notFound service.missing)
    | some header =>
      match service with
      | .charge => do
          service.assertDifferentChecker toLowerCase checker header.lastModifier
          .ok (.write (.approve header checker))
      | .commission => .ok (.read (.approveDetails header checker))
  | .approveDetails header checker =>
    if book.rowsOf header.id = [] then
      .error (.conflict "Commission requires at least one detail before approval")
    else do
      service.assertDifferentChecker toLowerCase checker header.lastModifier
      .ok (.write (.approve header checker))
  | .delete id =>
    match book.headers.find? id with
    | none => .error (.notFound service.missing)
    | some header =>
      if header.status = 1 then
        .error (.conflict "Active charge cannot be deleted; deactivate it first")
      else .ok (.read (.deleteKeyword id))
  | .deleteKeyword id =>
    if book.keywordCharges.any fun use => decide (use.chargeId = id) then
      .error (.conflict "Charge is in use by keyword charge configuration")
    else .ok (.read (.deleteDefault id))
  | .deleteDefault id =>
    if book.headers.rows.any fun header => decide (header.content.defaultId = some id) then
      .error (.conflict "Charge is in use as a default charge")
    else .ok (.read (.deleteDetails id))
  | .deleteDetails id =>
    if book.rowsOf id = [] then .ok (.write (.delete id))
    else .error (.conflict "Delete charge detail rows before deleting the charge")
  | .createDetail dto maker =>
    match book.headers.find? dto.parentId with
    | none => .error (.notFound "Parent commission was not found")
    | some parent => do
        dto.validateCommission
        .ok (.write (.createDetail dto (some parent) maker))
  | .updateDetail rowId dto maker =>
    match book.details.find? rowId with
    | none => .error (.notFound "Charge detail not found")
    | some row => do
        validateDetailDto (dto.over row).kind (dto.over row).value false
        .ok (.write (.updateDetail (dto.over row) maker))
  | .deleteDetail rowId maker =>
    match book.details.find? rowId with
    | none => .error (.notFound "Charge detail not found")
    | some row => .ok (.read (.deleteDetailParent row maker))
  | .deleteDetailParent row maker =>
    -- the mapper refuses to look for `null`
    match row.parentId with
    | none => .error .database
    | some parentId =>
      if (book.headers.find? parentId).any fun parent => decide (parent.status = 1) then
        .error (.conflict "Charge detail is in use by an active charge configuration")
      else .ok (.read (.deleteDetailKeyword row maker))
  | .deleteDetailKeyword row maker =>
    if book.keywordCharges.any fun use =>
        decide (some use.chargeId = row.parentId ∧ use.status = 1) then
      .error (.conflict "Charge detail is in use by an active charge configuration")
    else .ok (.write (.deleteDetail row maker))
  | .markPending parentId maker =>
    match parentId with
    | none => .error .database
    | some parentId =>
      match book.headers.find? parentId with
      | none => .error (.notFound "Parent charge not found")
      | some parent => .ok (.write (.pending parent maker))

end

/-! ## Writes -/

/-- Somebody has changed headers or their rows. -/
def credit (book : Book) (ids : List ℕ) (maker : String) : Book :=
  { book with
    authors := fun id => if id ∈ ids then maker :: book.authors id else book.authors id }

/-- What stands is approved. -/
def record (book : Book) (id : ℕ) (checker : String) : Book :=
  { book with
    approved := Function.update book.approved id (some {
      content := (book.headers.find? id).map Header.content
      details := book.rowsOf id
      checker := checker
      authors := book.authors id })
    authors := Function.update book.authors id [] }

/-- Whether the columns and the constraints of the table admit a header. -/
def accepts (book : Book) (header : Header) : Bool :=
  decide (header.id ≤ 32767) &&
    [header.content.description, header.createdBy, header.modifiedBy, header.approvedBy].all
      (fun text => text.all storable) &&
    header.content.defaultId.all fun other =>
      decide (other = header.id) || (book.headers.find? other).isSome

def changed (book : Book) (id : ℕ) (change : Header → Header) : Header :=
  change ((book.headers.find? id).getD { id := id })

/-- Store a header, or rewrite the one that is there. -/
def saveHeader (book : Book) (id : ℕ) (change : Header → Header)
    (hid : ∀ row, (change row).id = row.id) : Except Refusal Book :=
  if book.accepts (book.changed id change) then
    .ok { book with headers := book.headers.upsert (book.changed id change) change hid }
  else .error .database

/-- Whether a row anywhere refers to a header. -/
def refersTo (book : Book) (id : ℕ) : Bool :=
  book.details.rows.any (fun row => decide (row.parentId = some id)) ||
    book.keywordCharges.any (fun use => decide (use.chargeId = id)) ||
    book.headers.rows.any fun header =>
      decide (header.id ≠ id ∧ header.content.defaultId = some id)

/-- The headers whose rows change when a detail row is saved. -/
def parentsOf (book : Book) (row : Detail) : List ℕ :=
  match book.details.find? row.rowId with
  | none => row.parentId.toList
  | some old => if old = row then [] else old.parentId.toList ++ row.parentId.toList

/-- One save of a call, and what is left of the call. -/
def write (book : Book) : Write → Except Refusal (Book × Option Phase)
  | .create id dto maker => do
      let after ← book.saveHeader id (dto.put maker) (dto.put_id maker)
      .ok (after.credit [id] maker, none)
  | .pending header maker => do
      let after ← book.saveHeader header.id (header.pending maker).put (header.pending maker).put_id
      .ok (after.credit [header.id] maker, none)
  | .approve header checker => do
      let after ← (book.record header.id checker).saveHeader header.id (header.approve checker).put
        (header.approve checker).put_id
      .ok (after, none)
  | .delete id =>
    if book.refersTo id then .error .database
    else .ok ({ book with headers := book.headers.erase id }, none)
  | .createDetail dto parent maker =>
    if (book.headers.find? dto.parentId).isNone then .error .database
    else
      match book.details.insert? (dto.row book.nextRow) with
      | none => .error .database
      | some details =>
        let after := { book with details := details, nextRow := book.nextRow + 1 }
        .ok (after.credit [dto.parentId] maker,
          some (match parent with
            | none => .read (.markPending (some dto.parentId) maker)
            | some parent => .write (.pending parent maker)))
  | .updateDetail row maker =>
    if row.parentId.any fun parentId => (book.headers.find? parentId).isNone then
      .error .database
    else
      let after := { book with details := book.details.upsert row row.put row.put_rowId }
      .ok (after.credit (book.parentsOf row) maker,
        some (.read (.markPending row.parentId maker)))
  | .deleteDetail row maker =>
    let after := { book with details := book.details.erase row.rowId }
    .ok (after.credit ((book.details.find? row.rowId).bind Detail.parentId).toList maker,
      some (.read (.markPending row.parentId maker)))

end Book

/-! ## Steps -/

inductive Operation
  | create (id : ℕ) (dto : ContentDto) (maker : String)
  | update (id : ℕ) (newId : Option (Option ℕ)) (dto : ContentDto) (maker : String)
  | approve (id : ℕ) (checker : String)
  | deactivate (id : ℕ) (maker : String)
  | delete (id : ℕ)
  | createDetail (dto : CreateDetailDto) (maker : String)
  | updateDetail (rowId : ℕ) (dto : UpdateDetailDto) (maker : String)
  | deleteDetail (rowId : ℕ) (maker : String)
  deriving DecidableEq

/-- What a call does before its first read or save; a service does not offer every operation. -/
def Service.begin : Service → Operation → Option (Except Refusal Phase)
  | _, .create id dto maker => some (.ok (.read (.create id dto maker)))
  | .charge, .update id newId dto maker => some (.ok (.read (.update id newId dto maker)))
  | _, .approve id checker => some (.ok (.read (.approve id checker)))
  | _, .deactivate id maker => some (.ok (.read (.deactivate id maker)))
  | .charge, .delete id => some (.ok (.read (.delete id)))
  | .charge, .createDetail dto maker => some do
      validateDetailDto dto.kind dto.value dto.missing
      .ok (.write (.createDetail dto none maker))
  | .commission, .createDetail dto maker => some (.ok (.read (.createDetail dto maker)))
  | .charge, .updateDetail rowId dto maker => some (.ok (.read (.updateDetail rowId dto maker)))
  | .charge, .deleteDetail rowId maker => some (.ok (.read (.deleteDetail rowId maker)))
  | .commission, _ => none

/-- A call begins, reads or saves once, or is lost; and keyword charges are configured. -/
inductive Event
  | begin (operation : Operation)
  | perform (call : Call)
  | crash (call : Call)
  | configure (keywordCharges : List KeywordCharge)
  deriving DecidableEq

namespace Book

/-- Whether two states of the tables differ. -/
def differs (book after : Book) : Bool :=
  decide (after.headers.rows ≠ book.headers.rows ∨ after.details.rows ≠ book.details.rows)

section

variable (toLowerCase : String → String) (service : Service)

/-- The read or the save that a call has come to. -/
def advance (book : Book) : Phase → Except Refusal (Book × Option Phase)
  | .read next => (book.read toLowerCase service next).map fun phase => (book, some phase)
  | .write next => book.write next

/-- One read or save of a call, after which the call goes on, has ended, or has thrown. -/
def perform (book : Book) (call : Call) : Book :=
  match book.advance toLowerCase service call.phase with
  | .error _ =>
    { book with
      calls := book.calls.erase call
      thrown := book.thrown + call.changed.toNat }
  | .ok (after, phase) =>
    { after with
      calls := (phase.map fun phase => ⟨phase, call.changed || book.differs after⟩).toList ++
        book.calls.erase call }

/-- One step of the calls of a service. -/
def step (book : Book) : Event → Option Book
  | .begin operation =>
    (service.begin operation).map fun begun =>
      match begun with
      | .error _ => book
      | .ok phase => { book with calls := ⟨phase, false⟩ :: book.calls }
  | .perform call =>
    if call ∈ book.calls then some (book.perform toLowerCase service call) else none
  | .crash call =>
    if call ∈ book.calls then some { book with calls := book.calls.erase call } else none
  | .configure keywordCharges =>
    if keywordCharges.all fun use => (book.headers.find? use.chargeId).isSome then
      some { book with keywordCharges := keywordCharges }
    else none

/-! ## What is claimed -/

/-- A header has the content and the detail rows that were approved last, by somebody who is none
of those who had changed them. -/
def AsApproved (book : Book) (header : Header) : Prop :=
  ∃ approval, book.approved header.id = some approval ∧
    approval.content = some header.content ∧ approval.details = book.rowsOf header.id ∧
    header.approvedBy = some approval.checker ∧
    ∀ author ∈ approval.authors, sameUser toLowerCase approval.checker author = false

/-- What is applied is what was approved, and no call has thrown after it had changed a row. -/
structure Kept (book : Book) : Prop where
  asApproved : ∀ header ∈ book.headers.rows, service.applies header = true →
    book.AsApproved toLowerCase header
  unchanged : book.thrown = 0

end

end Book

/-- A service that has stored nothing yet. -/
def Book.fresh : Book where
  headers := .empty
  details := .empty
  nextRow := 1
  keywordCharges := []
  calls := []
  approved _ := none
  authors _ := []
  thrown := 0

/-- The two services side by side. -/
def step (toLowerCase : String → String) :
    (Service → Book) → Service × Event → Option (Service → Book) :=
  sideBySide fun service => Book.step toLowerCase service

end Finify.Pricing.Legacy
