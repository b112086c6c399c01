/-
# Sanctions lists

The lists that are delivered to `SanctionsService`, the records that it makes of them, and the
screening of a name.  Texts are lists of letters.  What the XML parser makes of the text of an
element is a parameter; it gives a number where the text looks like one.
-/

import Finify.Foundations.Entries
import Finify.Foundations.Spacing
import Finify.Kyc.Cases
import Mathlib.Algebra.Order.Ring.Rat

namespace Finify.Kyc.Sanctions

open Finify.Foundations Spacing

/-! ## Names -/

abbrev Text := List Char

/-- `\s`. -/
def isSpace (letter : Char) : Bool :=
  let code := letter.toNat
  (9 ≤ code ∧ code ≤ 13) ∨ code = 32 ∨ code = 160 ∨ code = 5760 ∨ (8192 ≤ code ∧ code ≤ 8202) ∨
    code = 8232 ∨ code = 8233 ∨ code = 8239 ∨ code = 8287 ∨ code = 12288 ∨ code = 65279

/-- `[a-z0-9\s]`. -/
def isScreened (letter : Char) : Bool :=
  letter.isLower ∨ letter.isDigit ∨ isSpace letter

/-- `toLowerCase`.  The lower case of every other letter is none of `isScreened`. -/
def toLowerCase (letter : Char) : Text :=
  if 65 ≤ letter.toNat ∧ letter.toNat ≤ 90 then [Char.ofNat (letter.toNat + 32)]
  else if letter.toNat = 304 then ['i', Char.ofNat 775]
  else if letter.toNat = 8490 then ['k']
  else [letter]

/-- The letters of a name that are compared. -/
def screenedLetters (letter : Char) : Text := (toLowerCase letter).filter isScreened

/-- The normal form of a name, for the records and for the screening. -/
def normalize (name : Text) : Text :=
  tidy isSpace ' ' ((name.flatMap toLowerCase).filter isScreened)

/-- `trim`. -/
def trimmed (text : Text) : Text := trim isSpace text

def units (letter : Char) : ℕ := if letter.toNat < 65536 then 1 else 2

/-- `slice(0, n)`; half a letter counts for none. -/
def slice : ℕ → Text → Text
  | _, [] => []
  | n, letter :: rest => if units letter ≤ n then letter :: slice (n - units letter) rest else []

def storedName (name : Text) : Text := normalize (slice 1000 (tidy isSpace ' ' name))

/-! ## Records -/

/-- `source`. -/
inductive Source
  | ofac
  | unscr
  | manual (list : Text)
  deriving DecidableEq

/-- `kyc.sanction_records`. -/
structure SanctionRecord where
  normalizedName : Text
  originalName : Text
  source : Source
  sourceRecordId : Text
  deriving DecidableEq

/-- `UNIQUE(source, source_record_id)`. -/
def SanctionRecord.key (row : SanctionRecord) : Source × Text := (row.source, row.sourceRecordId)

/-- `record`, which raises an exception for a name without a normal form. -/
def record (name : Text) (source : Source) (id : Text) : Option SanctionRecord :=
  if storedName name = [] then none
  else
    some
      { normalizedName := storedName name
        originalName := slice 1000 (tidy isSpace ' ' name)
        source := source
        sourceRecordId := slice 150 id }

/-! ## Manual lists -/

/-- A row of a manual list; a column that it has not is empty. -/
structure CsvRow where
  name : Text := []
  originalName : Text := []
  recordId : Text := []
  sourceRecordId : Text := []
  deriving DecidableEq

def CsvRow.nameText (row : CsvRow) : Text :=
  trimmed (if row.name ≠ [] then row.name else row.originalName)

/-- The record identifier of a row. -/
def CsvRow.idText (row : CsvRow) : Text :=
  trimmed (if row.recordId ≠ [] then row.recordId else row.sourceRecordId)

def CsvRow.record (list : Text) (row : CsvRow) : Option SanctionRecord :=
  if row.nameText = [] ∨ row.idText = [] then none
  else Sanctions.record row.nameText (.manual list) row.idText

def uploadRecords (list : Text) (rows : List CsvRow) : Option (List SanctionRecord) :=
  if rows = [] ∨ 100000 < rows.length then none
  else (rows.mapM (CsvRow.record list)).map (entriesOf SanctionRecord.sourceRecordId)

/-! ## Official lists -/

/-- The value of an element: what it prints, and whether it is true. -/
structure Value where
  printed : Text
  truthy : Bool
  deriving DecidableEq

def Value.ofText (text : Text) : Value := ⟨text, text ≠ []⟩

/-- An alias of the OFAC list, with the texts of its elements. -/
structure Aka where
  uid : Option Text := none
  firstName : Option Text := none
  lastName : Option Text := none
  deriving DecidableEq

/-- An entry of the OFAC list. -/
structure SdnEntry where
  uid : Option Text := none
  firstName : Option Text := none
  lastName : Option Text := none
  akas : List Aka := []
  deriving DecidableEq

/-- An individual of the UN list. -/
structure UnIndividual where
  dataId : Option Text := none
  referenceNumber : Option Text := none
  firstName : Option Text := none
  secondName : Option Text := none
  thirdName : Option Text := none
  fourthName : Option Text := none
  deriving DecidableEq

/-- An entity of the UN list. -/
structure UnEntity where
  dataId : Option Text := none
  referenceNumber : Option Text := none
  firstName : Option Text := none
  deriving DecidableEq

section

variable (read : Text → Value)

/-- `filter(Boolean).join(' ')`. -/
def joined (parts : List (Option Text)) : Text :=
  [' '].intercalate (((parts.filterMap (Option.map read)).filter Value.truthy).map Value.printed)

def nameParts (firstName lastName : Option Text) : List (Option Text) := [firstName, lastName]

/-- The name of an entry or an alias, as it is read. -/
def ofacName (firstName lastName : Option Text) : Text :=
  trimmed (joined read (nameParts firstName lastName))

def SdnEntry.recordId (entry : SdnEntry) (primary : Text) : Text :=
  match (entry.uid.map read).filter Value.truthy with
  | some value => value.printed
  | none => primary

/-- The record identifier of an alias, with the number of names before it. -/
def Aka.recordId (aka : Aka) (entry : SdnEntry) (before : ℕ) : Text :=
  (entry.uid.map read).elim "undefined".toList Value.printed ++ ":AKA:".toList ++
    match (aka.uid.map read).filter Value.truthy with
    | some value => value.printed
    | none => (toString before).toList

/-- The record of an alias after those before it. -/
def addAlias (entry : SdnEntry) (names : List SanctionRecord) (aka : Aka) :
    Option (List SanctionRecord) :=
  if ofacName read aka.firstName aka.lastName = [] then some names
  else
    (record (ofacName read aka.firstName aka.lastName) .ofac
      (aka.recordId read entry names.length)).map fun row => names ++ [row]

def SdnEntry.records (entry : SdnEntry) : Option (List SanctionRecord) :=
  let primary := ofacName read entry.firstName entry.lastName
  (if primary = [] then some []
    else (record primary .ofac (entry.recordId read primary)).map fun row => [row]).bind
    fun names => entry.akas.foldlM (addAlias read entry) names

/-- `parseOfac`. -/
def parseOfac (entries : List SdnEntry) : Option (List SanctionRecord) :=
  (entries.mapM (SdnEntry.records read)).map List.flatten

/-- `DATAID || REFERENCE_NUMBER`. -/
def unId (dataId referenceNumber : Option Text) : Option Value :=
  match (dataId.map read).filter Value.truthy with
  | some value => some value
  | none => referenceNumber.map read

def UnIndividual.nameValue (individual : UnIndividual) : Value :=
  .ofText (joined read [individual.firstName, individual.secondName, individual.thirdName,
    individual.fourthName])

def unEntries (individuals : List UnIndividual) (entities : List UnEntity) :
    List (Option Value × Option Value) :=
  (individuals.map fun individual =>
      (unId read individual.dataId individual.referenceNumber, some (individual.nameValue read))) ++
    entities.map fun entity =>
      (unId read entity.dataId entity.referenceNumber, entity.firstName.map read)

/-- The names and identifiers that are kept. -/
def unNamed (individuals : List UnIndividual) (entities : List UnEntity) : List (Text × Text) :=
  (unEntries read individuals entities).filterMap fun entry =>
    (entry.2.filter Value.truthy).bind fun name =>
      (entry.1.filter Value.truthy).map fun id => (name.printed, id.printed)

/-- `parseUn`. -/
def parseUn (individuals : List UnIndividual) (entities : List UnEntity) :
    Option (List SanctionRecord) :=
  (unNamed read individuals entities).mapM fun entry => record entry.1 .unscr entry.2

def SdnEntry.names (entry : SdnEntry) : List Text :=
  ofacName read entry.firstName entry.lastName ::
    entry.akas.map fun aka => ofacName read aka.firstName aka.lastName

end

/-! ## Screening -/

/-- `screenName`: `similarity` is that of the database, and `alike` its operator `%`. -/
def screenName (similarity : Text → Text → ℚ) (alike : Text → Text → Bool)
    (records : Table SanctionRecord.key) (name : Text) : Screening :=
  if normalize name = [] ∨ records.rows = [] then .unavailable
  else
    match latest (fun row => similarity row.normalizedName (normalize name))
        (records.rows.filter fun row => alike row.normalizedName (normalize name) ∨
          3 / 5 ≤ similarity row.normalizedName (normalize name)) with
    | none => .clear
    | some row =>
      if similarity row.normalizedName (normalize name) < 3 / 5 then .clear else .matched

/-! ## Normal forms -/

theorem isScreened_of_isSpace {letter : Char} (hspace : isSpace letter) : isScreened letter := by
  simp [isScreened, hspace]

/-- Small letters are no blanks. -/
theorem not_isSpace_small : ∀ code < 58, ¬ isSpace (Char.ofNat (code + 65)) := by
  decide

/-- A blank has no capital form. -/
theorem toLowerCase_of_isSpace {letter : Char} (hspace : isSpace letter) :
    toLowerCase letter = [letter] := by
  have hcode : ¬ (65 ≤ letter.toNat ∧ letter.toNat ≤ 90) ∧ letter.toNat ≠ 304 ∧
      letter.toNat ≠ 8490 := by
    simp only [isSpace, Bool.decide_or, Bool.decide_and, Bool.or_eq_true, Bool.and_eq_true,
      decide_eq_true_eq] at hspace
    omega
  rw [toLowerCase, if_neg hcode.1, if_neg hcode.2.1, if_neg hcode.2.2]

theorem not_isSpace_of_mem_toLowerCase {letter other : Char} (hletter : ¬ isSpace letter)
    (hother : other ∈ toLowerCase letter) : ¬ isSpace other := by
  unfold toLowerCase at hother
  split at hother
  case isTrue hcapital =>
    rw [List.mem_singleton.mp hother]
    have hsmall := not_isSpace_small (letter.toNat - 33) (by omega)
    rwa [show letter.toNat - 33 + 65 = letter.toNat + 32 by omega] at hsmall
  case isFalse =>
    split at hother
    case isTrue =>
      rcases List.mem_cons.mp hother with rfl | hlast
      · decide
      · rw [List.mem_singleton.mp hlast]
        decide
    case isFalse =>
      split at hother
      case isTrue =>
        rw [List.mem_singleton.mp hother]
        decide
      case isFalse =>
        rw [List.mem_singleton.mp hother]
        exact hletter

theorem keepsBlanks_screenedLetters : KeepsBlanks isSpace screenedLetters := by
  constructor
  · intro letter hspace
    rw [screenedLetters, toLowerCase_of_isSpace hspace]
    exact List.filter_eq_self.mpr fun other hother =>
      List.mem_singleton.mp hother ▸ isScreened_of_isSpace hspace
  · intro letter hletter other hother
    exact not_isSpace_of_mem_toLowerCase hletter (List.mem_filter.mp hother).1

theorem normalize_eq (name : Text) :
    normalize name = tidy isSpace ' ' (name.flatMap screenedLetters) := by
  unfold normalize screenedLetters
  rw [List.filter_flatMap]

/-- A name that is not cut is stored in the normal form that is screened. -/
theorem storedName_eq {name : Text}
    (hshort : slice 1000 (tidy isSpace ' ' name) = tidy isSpace ' ' name) :
    storedName name = normalize name := by
  rw [storedName, hshort, normalize_eq, normalize_eq]
  exact tidy_flatMap_tidy keepsBlanks_screenedLetters (by decide) name

/-- A text that is not too long is not cut. -/
theorem slice_eq_self {text : Text} {n : ℕ} (hshort : (text.map units).sum ≤ n) :
    slice n text = text := by
  induction text generalizing n with
  | nil => cases n <;> rfl
  | cons letter rest ih =>
    rw [List.map_cons, List.sum_cons] at hshort
    rw [slice, if_pos (by omega), ih (by omega)]

/-! ## Records of the lists -/

/-- A record has the stored form of its name. -/
theorem record_eq_some {name : Text} {source : Source} {id : Text} {row : SanctionRecord}
    (hrecord : record name source id = some row) :
    row.normalizedName = storedName name ∧ row.source = source ∧
      row.sourceRecordId = slice 150 id := by
  unfold record at hrecord
  rw [Option.ite_none_left_eq_some] at hrecord
  obtain ⟨_, hsome⟩ := hrecord
  cases hsome
  exact ⟨rfl, rfl, rfl⟩

section

variable {read : Text → Value}

/-- The records of aliases have the stored forms of their names. -/
theorem names_of_addAlias {entry : SdnEntry} {akas : List Aka} {names rows : List SanctionRecord}
    (hrows : akas.foldlM (addAlias read entry) names = some rows)
    (hsource : ∀ row ∈ names, row.source = .ofac) :
    rows.map SanctionRecord.normalizedName = names.map SanctionRecord.normalizedName ++
        ((akas.map fun aka => ofacName read aka.firstName aka.lastName).filter
          fun name => name ≠ []).map storedName ∧
      ∀ row ∈ rows, row.source = .ofac := by
  induction akas generalizing names with
  | nil =>
    cases hrows
    exact ⟨(List.append_nil _).symm, hsource⟩
  | cons aka akas ih =>
    rw [List.foldlM_cons] at hrows
    obtain ⟨more, hmore, hrest⟩ := Option.bind_eq_some_iff.mp hrows
    unfold addAlias at hmore
    rw [List.map_cons]
    split at hmore
    case isTrue hnone =>
      cases hmore
      rw [List.filter_cons_of_neg (by simpa using hnone)]
      exact ih hrest hsource
    case isFalse hsome =>
      obtain ⟨row, hrow, rfl⟩ := Option.map_eq_some_iff.mp hmore
      obtain ⟨hname, hofac, _⟩ := record_eq_some hrow
      rw [List.filter_cons_of_pos (by simpa using hsome), List.map_cons, ← hname]
      have hboth := ih hrest (by
        intro other hother
        rcases List.mem_append.mp hother with hold | hnew
        · exact hsource other hold
        · rw [List.mem_singleton.mp hnew]
          exact hofac)
      rw [List.map_append, List.map_singleton, List.append_assoc] at hboth
      exact hboth

theorem SdnEntry.names_of_records {entry : SdnEntry} {rows : List SanctionRecord}
    (hrows : entry.records read = some rows) :
    rows.map SanctionRecord.normalizedName =
        ((entry.names read).filter fun name => name ≠ []).map storedName ∧
      ∀ row ∈ rows, row.source = .ofac := by
  unfold SdnEntry.records at hrows
  obtain ⟨names, hnames, hrest⟩ := Option.bind_eq_some_iff.mp hrows
  unfold SdnEntry.names
  split at hnames
  case isTrue hnone =>
    cases hnames
    rw [List.filter_cons_of_neg (by simpa using hnone)]
    exact names_of_addAlias hrest fun row hrow => nomatch hrow
  case isFalse hsome =>
    obtain ⟨row, hrow, rfl⟩ := Option.map_eq_some_iff.mp hnames
    obtain ⟨hname, hofac, _⟩ := record_eq_some hrow
    rw [List.filter_cons_of_pos (by simpa using hsome), List.map_cons, ← hname]
    exact names_of_addAlias hrest fun other hother => List.mem_singleton.mp hother ▸ hofac

/-- The records of the OFAC list have the stored forms of its names. -/
theorem names_of_parseOfac {entries : List SdnEntry} {rows : List SanctionRecord}
    (hrows : parseOfac read entries = some rows) :
    rows.map SanctionRecord.normalizedName =
        ((entries.flatMap (SdnEntry.names read)).filter fun name => name ≠ []).map storedName ∧
      ∀ row ∈ rows, row.source = .ofac := by
  obtain ⟨lists, hlists, rfl⟩ := Option.map_eq_some_iff.mp hrows
  clear hrows
  induction entries generalizing lists with
  | nil =>
    cases hlists
    exact ⟨rfl, fun row hrow => nomatch hrow⟩
  | cons entry entries ih =>
    rw [List.mapM_cons] at hlists
    obtain ⟨first, hfirst, hmore⟩ := Option.bind_eq_some_iff.mp hlists
    obtain ⟨others, hothers, hsame⟩ := Option.bind_eq_some_iff.mp hmore
    cases hsame
    obtain ⟨hnames, hofac⟩ := SdnEntry.names_of_records hfirst
    obtain ⟨hrestNames, hrestOfac⟩ := ih others hothers
    constructor
    · rw [List.flatten_cons, List.map_append, List.flatMap_cons, List.filter_append,
        List.map_append, hnames, hrestNames]
    · intro row hrow
      rw [List.flatten_cons] at hrow
      exact (List.mem_append.mp hrow).elim (hofac row) (hrestOfac row)

/-- The records of the UN list have the stored forms of the names that are kept. -/
theorem names_of_parseUn {individuals : List UnIndividual} {entities : List UnEntity}
    {rows : List SanctionRecord} (hrows : parseUn read individuals entities = some rows) :
    rows.map SanctionRecord.normalizedName =
        ((unNamed read individuals entities).map Prod.fst).map storedName ∧
      ∀ row ∈ rows, row.source = .unscr := by
  have hnames := map_key_of_mapM (fun entry : Text × Text => storedName entry.1)
    SanctionRecord.normalizedName
    (fun _ _ hrecord => (record_eq_some hrecord).1) hrows
  have hsources := map_key_of_mapM (fun _ : Text × Text => Source.unscr)
    SanctionRecord.source (fun _ _ hrecord => (record_eq_some hrecord).2.1) hrows
  constructor
  · rw [hnames, List.map_map]
    rfl
  · intro row hrow
    have hmem : row.source ∈ rows.map SanctionRecord.source := List.mem_map_of_mem hrow
    rw [hsources] at hmem
    obtain ⟨_, _, hsame⟩ := List.mem_map.mp hmem
    exact hsame.symm

end

/-- What a row of an upload is stored as. -/
theorem CsvRow.record_eq_some {list : Text} {row : CsvRow} {made : SanctionRecord}
    (hrecord : row.record list = some made) :
    made.normalizedName = storedName row.nameText ∧ made.source = .manual list ∧
      made.sourceRecordId = slice 150 row.idText := by
  unfold CsvRow.record at hrecord
  rw [Option.ite_none_left_eq_some] at hrecord
  exact Sanctions.record_eq_some hrecord.2

def CsvRow.storedId (row : CsvRow) : Text := slice 150 row.idText

/-- The records of an upload have the stored forms of the names of the last rows of their
identifiers, each under its own one. -/
theorem names_of_uploadRecords {list : Text} {rows : List CsvRow} {records : List SanctionRecord}
    (hrecords : uploadRecords list rows = some records) :
    (∀ name, (∃ row ∈ records, row.normalizedName = name) ↔
        ∃ row ∈ lastBy CsvRow.storedId rows, storedName row.nameText = name) ∧
      (∀ id, (∃ row ∈ records, row.sourceRecordId = id) ↔
        ∃ row ∈ rows, row.storedId = id) ∧
      (∀ row ∈ records, row.source = .manual list) ∧
      (records.map SanctionRecord.sourceRecordId).Nodup := by
  unfold uploadRecords at hrecords
  rw [Option.ite_none_left_eq_some, Option.map_eq_some_iff] at hrecords
  obtain ⟨_, all, hall, rfl⟩ := hrecords
  have hlast := lastBy_mapM CsvRow.storedId SanctionRecord.sourceRecordId
    (fun _ _ hrecord => (CsvRow.record_eq_some hrecord).2.2) hall
  have hnames := map_key_of_mapM (fun row : CsvRow => storedName row.nameText)
    SanctionRecord.normalizedName
    (fun _ _ hrecord => (CsvRow.record_eq_some hrecord).1) hlast
  have hids := map_key_of_mapM CsvRow.storedId SanctionRecord.sourceRecordId
    (fun _ _ hrecord => (CsvRow.record_eq_some hrecord).2.2) hall
  have hsources := map_key_of_mapM (fun _ : CsvRow => Source.manual list)
    SanctionRecord.source (fun _ _ hrecord => (CsvRow.record_eq_some hrecord).2.1) hlast
  refine ⟨fun name => ?_, fun id => ?_, fun row hrow => ?_, nodup_entriesOf all⟩
  · simp only [mem_entriesOf]
    rw [← List.mem_map, ← List.mem_map, hnames]
  · simp only [mem_entriesOf]
    rw [exists_mem_lastBy, ← List.mem_map, ← List.mem_map, hids]
  · have hmem := List.mem_map_of_mem (f := SanctionRecord.source) (mem_entriesOf.mp hrow)
    rw [hsources] at hmem
    obtain ⟨_, _, hsame⟩ := List.mem_map.mp hmem
    exact hsame.symm

end Finify.Kyc.Sanctions
