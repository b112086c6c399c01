/-
# Runs of the sanctions lists

An advisory lock lets one operation run at a time: it starts, replaces the records in one
transaction, and completes or fails.  A name is lost when a later row has its record identifier,
when an entry has no identifier, or when the name is read as a number or cut; and a run can fail
after it has replaced the records.
-/

import Finify.Kyc.SanctionLists
import Mathlib.Tactic.Linarith

namespace Finify.Kyc.Sanctions

open Finify.Foundations

/-! ## Operations -/

/-- `uploadManual` or `syncOfficial`, with the list that is delivered to it. -/
inductive Operation
  | upload (list : Text) (rows : List CsvRow) (merge : Bool)
  | official (entries : List SdnEntry) (individuals : List UnIndividual)
      (entities : List UnEntity)
  deriving DecidableEq

namespace Operation

def sources : Operation → List Source
  | upload list _ _ => [.manual list]
  | official _ _ _ => [.ofac, .unscr]

/-- The sources whose records are deleted. -/
def replacedSources : Operation → List Source
  | upload list _ merge => if merge then [] else [.manual list]
  | official _ _ _ => [.ofac, .unscr]

def delivered : Operation → List (Source × Text)
  | upload list rows _ => rows.map fun row => (.manual list, row.nameText)
  | official entries individuals entities =>
    (entries.flatMap (SdnEntry.names Value.ofText)).map (fun name => (.ofac, name)) ++
      ((individuals.map fun individual => (individual.nameValue Value.ofText).printed) ++
        entities.map fun entity => entity.firstName.getD []).map fun name => (.unscr, name)

variable (read : Text → Value)

/-- The records that an operation hands over, unless an exception is raised before. -/
def incoming : Operation → Option (List SanctionRecord)
  | upload list rows _ => uploadRecords list rows
  | official entries individuals entities =>
    (parseOfac read entries).bind fun ofacRecords =>
      (parseUn read individuals entities).bind fun unRecords =>
        if ofacRecords.length < 10000 ∨ unRecords.length < 500 then none
        else some (ofacRecords ++ unRecords)

/-- The names as they are read, of the last row of every record identifier or of the entries with
an identifier. -/
def kept : Operation → List (Source × Text)
  | upload list rows _ =>
    (lastBy CsvRow.storedId rows).map fun row => (.manual list, row.nameText)
  | official entries individuals entities =>
    ((entries.flatMap (SdnEntry.names read)).filter fun name => name ≠ []).map
        (fun name => (.ofac, name)) ++
      ((unNamed read individuals entities).map Prod.fst).map fun name => (.unscr, name)

def Leaves (before : Table SanctionRecord.key) (source : Source) (name : Text) :
    Operation → Prop
  | upload list rows merge => merge ∧ source = .manual list ∧
      ∃ row ∈ before.rows, row.source = .manual list ∧ row.normalizedName = name ∧
        ∀ other ∈ rows, other.storedId ≠ row.sourceRecordId
  | official _ _ _ => False

/-- Every name is stored in the form in which it is screened: by some entry of the list that is
kept, or by a record that a merge leaves. -/
def Clean (operation : Operation) (before : Table SanctionRecord.key) : Prop :=
  ∀ source name, (source, name) ∈ operation.delivered → normalize name ≠ [] →
    (∃ other, (source, other) ∈ operation.kept read ∧ storedName other = normalize name) ∨
      operation.Leaves before source (normalize name)

/-- The list says no more and no less than the table. -/
def Restates (operation : Operation) (before : Table SanctionRecord.key) : Prop :=
  ∀ records, operation.incoming read = some records →
    (∀ row ∈ records, row ∈ before.rows) ∧
      ∀ row ∈ before.rows, row.source ∈ operation.replacedSources → row ∈ records

/-- An upload is parsed before it asks for the lock. -/
def Admitted : Operation → Prop
  | upload list rows _ => (uploadRecords list rows).isSome
  | official _ _ _ => True

instance : (operation : Operation) → Decidable operation.Admitted
  | upload list rows _ => inferInstanceAs (Decidable ((uploadRecords list rows).isSome = true))
  | official _ _ _ => .isTrue trivial

end Operation

/-! ## The table -/

/-- `DELETE FROM kyc.sanction_records`. -/
def without (table : Table SanctionRecord.key) (sources : List Source) :
    Table SanctionRecord.key :=
  table.replace (fun key => key.1 ∈ sources) [] List.nodup_nil fun _ hrow => nomatch hrow

theorem mem_without {table : Table SanctionRecord.key} {sources : List Source}
    {row : SanctionRecord} :
    row ∈ (without table sources).rows ↔ row ∈ table.rows ∧ row.source ∉ sources := by
  simp only [without, Table.rows_replace, List.append_nil, List.mem_filter, SanctionRecord.key,
    Bool.not_eq_true']
  exact and_congr_right fun _ => decide_eq_false_iff_not

/-- A row with the names of another one. -/
def SanctionRecord.renamed (row old : SanctionRecord) : SanctionRecord :=
  { old with
    normalizedName := row.normalizedName
    originalName := row.originalName }

theorem SanctionRecord.renamed_key (row old : SanctionRecord) : (row.renamed old).key = old.key :=
  rfl

/-- A row of the same key takes the names and is the other one. -/
theorem SanctionRecord.renamed_of_key {row old : SanctionRecord} (hkey : old.key = row.key) :
    row.renamed old = row := by
  cases old
  cases row
  cases hkey
  rfl

/-- `INSERT INTO kyc.sanction_records` with its conflict clause. -/
def store (table : Table SanctionRecord.key) (row : SanctionRecord) : Table SanctionRecord.key :=
  table.upsert row row.renamed row.renamed_key

/-- `replace`; one statement cannot write a row twice. -/
def replaceRecords (table : Table SanctionRecord.key) (records : List SanctionRecord)
    (sources : List Source) : Option (Table SanctionRecord.key) :=
  if (records.map SanctionRecord.key).Nodup then
    some (records.foldl store (without table sources))
  else none

/-- A record that is stored is found. -/
theorem find?_store (table : Table SanctionRecord.key) (row : SanctionRecord)
    (key : Source × Text) :
    (store table row).find? key = if key = row.key then some row else table.find? key := by
  unfold store
  rw [Table.find?_upsert]
  split
  case isFalse => rfl
  case isTrue hkey =>
    cases hfound : table.find? key with
    | none => rfl
    | some old =>
      have hold : old.key = row.key := (Table.find?_eq_some.mp hfound).2.trans hkey
      rw [Option.elim_some, SanctionRecord.renamed_of_key hold]

/-- What is found after records with different keys were stored. -/
theorem find?_storeAll {records : List SanctionRecord}
    (hnodup : (records.map SanctionRecord.key).Nodup) (table : Table SanctionRecord.key)
    (key : Source × Text) :
    (records.foldl store table).find? key =
      (records.find? fun row => row.key = key).or (table.find? key) := by
  induction records generalizing table with
  | nil => rfl
  | cons row rest ih =>
    rw [List.map_cons, List.nodup_cons] at hnodup
    rw [List.foldl_cons, ih hnodup.2, find?_store]
    by_cases hkey : row.key = key
    case pos =>
      have hnone : rest.find? (fun other => other.key = key) = none := by
        rw [List.find?_eq_none]
        intro other hother hsame
        apply hnodup.1
        rw [hkey, ← of_decide_eq_true hsame]
        exact List.mem_map_of_mem hother
      rw [hnone, if_pos hkey.symm]
      simp [hkey]
    case neg =>
      rw [if_neg (Ne.symm hkey)]
      simp [hkey]

/-- The rows after a replacement. -/
theorem mem_replaceRecords {table after : Table SanctionRecord.key}
    {records : List SanctionRecord} {sources : List Source}
    (hreplace : replaceRecords table records sources = some after) {row : SanctionRecord} :
    row ∈ after.rows ↔ row ∈ records ∨
      row ∈ table.rows ∧ row.source ∉ sources ∧ ∀ other ∈ records, other.key ≠ row.key := by
  unfold replaceRecords at hreplace
  rw [Option.ite_none_right_eq_some] at hreplace
  obtain ⟨hnodup, hsome⟩ := hreplace
  cases hsome
  have hfound : row ∈ (records.foldl store (without table sources)).rows ↔
      (records.foldl store (without table sources)).find? row.key = some row :=
    ⟨Table.find?_key, fun hrow => (Table.find?_eq_some.mp hrow).1⟩
  rw [hfound, find?_storeAll hnodup]
  cases hnew : records.find? fun other => other.key = row.key with
  | some other =>
    have hother : other.key = row.key := by simpa using List.find?_some hnew
    have hmem := List.mem_of_find?_eq_some hnew
    rw [Option.some_or, Option.some.injEq]
    constructor
    · rintro rfl
      exact .inl hmem
    · rintro (hrow | ⟨_, _, hnone⟩)
      · exact List.inj_on_of_nodup_map hnodup hmem hrow hother
      · exact absurd hother (hnone other hmem)
  | none =>
    have hnone : ∀ other ∈ records, other.key ≠ row.key := by
      intro other hother
      simpa using List.find?_eq_none.mp hnew other hother
    rw [Option.none_or, Table.find?_eq_some, mem_without]
    constructor
    · rintro ⟨⟨hrow, hsource⟩, _⟩
      exact .inr ⟨hrow, hsource, hnone⟩
    · rintro (hrow | ⟨hrow, hsource, _⟩)
      · exact absurd rfl (hnone row hrow)
      · exact ⟨⟨hrow, hsource⟩, rfl⟩

/-! ## Steps -/

/-- An operation that holds the lock, with the table as it found it. -/
structure SyncRun where
  operation : Operation
  before : Table SanctionRecord.key
  replaced : Bool := false

/-- The committed records, and the operation that holds the lock. -/
structure SanctionState where
  records : Table SanctionRecord.key
  running : Option SyncRun := none

/-- The steps of an operation.  It fails when a statement, a download or the process does. -/
inductive SanctionEvent
  | start (operation : Operation)
  | replace
  | complete
  | fail

def sanctionStep (read : Text → Value) (state : SanctionState) :
    SanctionEvent → Option SanctionState
  | .start operation =>
    if state.running.isNone ∧ operation.Admitted then
      some { state with running := some { operation := operation, before := state.records } }
    else none
  | .replace =>
    match state.running with
    | none => none
    | some run =>
      if run.replaced then none
      else
        (run.operation.incoming read).bind fun records =>
          (replaceRecords state.records records run.operation.replacedSources).map
            fun table => { records := table, running := some { run with replaced := true } }
  | .complete =>
    match state.running with
    | none => none
    | some run => if run.replaced then some { state with running := none } else none
  | .fail => if state.running.isSome then some { state with running := none } else none

/-! ## What a run has to keep -/

def Listed (similarity : Text → Text → ℚ) (alike : Text → Text → Bool)
    (records : Table SanctionRecord.key) (source : Source) (name : Text) : Prop :=
  (∃ row ∈ records.rows, row.source = source ∧ row.normalizedName = normalize name) ∧
    screenName similarity alike records name = .matched

/-- A run that completes has every name of its list and leaves the other sources; one that fails
leaves all records. -/
def LosesNoName (similarity : Text → Text → ℚ) (alike : Text → Text → Bool)
    (before : SanctionState) (event : SanctionEvent) (after : SanctionState) : Prop :=
  ∀ run, before.running = some run →
    match event with
    | .complete =>
      (∀ source name, (source, name) ∈ run.operation.delivered → normalize name ≠ [] →
        Listed similarity alike after.records source name) ∧
      ∀ row, row.source ∉ run.operation.sources →
        (row ∈ after.records.rows ↔ row ∈ run.before.rows)
    | .fail => ∀ row, row ∈ after.records.rows ↔ row ∈ run.before.rows
    | _ => True

/-- The list of a run that completes is clean; a run fails before it has replaced the records, or
its list restates them. -/
def Harmless (read : Text → Value) (before : SanctionState) (event : SanctionEvent) : Prop :=
  ∀ run, before.running = some run →
    match event with
    | .complete => run.operation.Clean read run.before
    | .fail => run.replaced → run.operation.Restates read run.before
    | _ => True

/-! ## Screening -/

theorem screenName_matched {similarity : Text → Text → ℚ} (hself : ∀ text, similarity text text = 1)
    (alike : Text → Text → Bool) {records : Table SanctionRecord.key} {name : Text}
    (hname : normalize name ≠ []) {row : SanctionRecord} (hrow : row ∈ records.rows)
    (hsame : row.normalizedName = normalize name) :
    screenName similarity alike records name = .matched := by
  have hone : similarity row.normalizedName (normalize name) = 1 := hsame ▸ hself _
  have hmem : row ∈ records.rows.filter fun row => alike row.normalizedName (normalize name) ∨
      3 / 5 ≤ similarity row.normalizedName (normalize name) := by
    refine List.mem_filter.mpr ⟨hrow, decide_eq_true (.inr ?_)⟩
    rw [hone]
    norm_num
  unfold screenName
  rw [if_neg (by simp [hname, List.ne_nil_of_mem hrow])]
  cases hlatest : latest (fun row => similarity row.normalizedName (normalize name))
      (records.rows.filter fun row => alike row.normalizedName (normalize name) ∨
        3 / 5 ≤ similarity row.normalizedName (normalize name)) with
  | none =>
    rw [latest_eq_none.mp hlatest] at hmem
    cases hmem
  | some best =>
    have hbest := le_latest hlatest hmem
    rw [hone] at hbest
    dsimp only
    rw [if_neg (by linarith)]

/-! ## The records of an operation -/

section

variable {read : Text → Value}

/-- Records of one source with the stored forms of some names. -/
theorem exists_named {rows : List SanctionRecord} {names : List Text} {only : Source}
    (source : Source) {name : Text} (hsource : ∀ row ∈ rows, row.source = only)
    (hnames : (∃ row ∈ rows, row.normalizedName = name) ↔
      ∃ other ∈ names, storedName other = name) :
    (∃ row ∈ rows, row.source = source ∧ row.normalizedName = name) ↔
      ∃ other, (source, other) ∈ names.map (fun other => (only, other)) ∧
        storedName other = name := by
  constructor
  · rintro ⟨row, hrow, rfl, hname⟩
    obtain ⟨other, hother, hsame⟩ := hnames.mp ⟨row, hrow, hname⟩
    rw [hsource row hrow]
    exact ⟨other, List.mem_map_of_mem hother, hsame⟩
  · rintro ⟨other, hother, hsame⟩
    obtain ⟨found, hfound, hpair⟩ := List.mem_map.mp hother
    cases hpair
    obtain ⟨row, hrow, hname⟩ := hnames.mpr ⟨other, hfound, hsame⟩
    exact ⟨row, hrow, hsource row hrow, hname⟩

/-- Names and their stored forms in order. -/
theorem exists_of_map_eq {rows : List SanctionRecord} {names : List Text} (name : Text)
    (hnames : rows.map SanctionRecord.normalizedName = names.map storedName) :
    (∃ row ∈ rows, row.normalizedName = name) ↔ ∃ other ∈ names, storedName other = name := by
  rw [← List.mem_map, ← List.mem_map, hnames]

/-- The records that an operation hands over are of its sources, and have the stored forms of the
names that are kept. -/
theorem names_of_incoming {operation : Operation} {records : List SanctionRecord}
    (hincoming : operation.incoming read = some records) :
    (∀ row ∈ records, row.source ∈ operation.sources) ∧
      ∀ source name, (∃ row ∈ records, row.source = source ∧ row.normalizedName = name) ↔
        ∃ other, (source, other) ∈ operation.kept read ∧ storedName other = name := by
  cases operation with
  | upload list rows merge =>
    obtain ⟨hnames, _, hsource, _⟩ := names_of_uploadRecords hincoming
    refine ⟨fun row hrow => hsource row hrow ▸ List.mem_singleton_self _, fun source name => ?_⟩
    have hlast : (∃ row ∈ records, row.normalizedName = name) ↔
        ∃ other ∈ (lastBy CsvRow.storedId rows).map CsvRow.nameText, storedName other = name := by
      rw [hnames]
      simp only [List.mem_map, exists_exists_and_eq_and]
    rw [exists_named source hsource hlast, List.map_map]
    rfl
  | official entries individuals entities =>
    obtain ⟨ofacRecords, hofac, hrest⟩ := Option.bind_eq_some_iff.mp hincoming
    obtain ⟨unRecords, hun, hlast⟩ := Option.bind_eq_some_iff.mp hrest
    rw [Option.ite_none_left_eq_some] at hlast
    obtain ⟨_, hsome⟩ := hlast
    cases hsome
    obtain ⟨hofacNames, hofacSource⟩ := names_of_parseOfac hofac
    obtain ⟨hunNames, hunSource⟩ := names_of_parseUn hun
    constructor
    · intro row hrow
      rcases List.mem_append.mp hrow with hfirst | hsecond
      · rw [hofacSource row hfirst]
        exact List.mem_cons_self
      · rw [hunSource row hsecond]
        exact List.mem_cons_of_mem _ (List.mem_singleton_self _)
    · intro source name
      have hofacNamed := exists_named source hofacSource (exists_of_map_eq name hofacNames)
      have hunNamed := exists_named source hunSource (exists_of_map_eq name hunNames)
      simp only [List.mem_append, or_and_right, exists_or, Operation.kept, hofacNamed, hunNamed]

theorem replacedSources_subset {operation : Operation} {source : Source}
    (hsource : source ∈ operation.replacedSources) : source ∈ operation.sources := by
  cases operation with
  | upload list rows merge =>
    cases merge with
    | true => cases hsource
    | false => exact hsource
  | official entries individuals entities => exact hsource

/-- A record that stays beside those of an operation is one that a merge leaves. -/
theorem leaves_iff {operation : Operation} {records : List SanctionRecord}
    (hincoming : operation.incoming read = some records) {before : Table SanctionRecord.key}
    {source : Source} (hsource : source ∈ operation.sources) {name : Text} :
    (∃ row ∈ before.rows, row.source = source ∧ row.normalizedName = name ∧
        row.source ∉ operation.replacedSources ∧ ∀ other ∈ records, other.key ≠ row.key) ↔
      operation.Leaves before source name := by
  cases operation with
  | upload list rows merge =>
    obtain ⟨_, hids, hrecordSource, _⟩ := names_of_uploadRecords hincoming
    cases List.mem_singleton.mp hsource
    cases merge with
    | false =>
      constructor
      · rintro ⟨row, _, hrow, _, hkept, _⟩
        exact absurd (hrow ▸ List.mem_singleton_self _) hkept
      · rintro ⟨hfalse, _⟩
        cases hfalse
    | true =>
      constructor
      · rintro ⟨row, hmem, hrow, hname, _, hkeys⟩
        refine ⟨rfl, rfl, row, hmem, hrow, hname, fun other hother hid => ?_⟩
        obtain ⟨made, hmade, hsame⟩ := (hids row.sourceRecordId).mpr ⟨other, hother, hid⟩
        exact hkeys made hmade (Prod.ext ((hrecordSource made hmade).trans hrow.symm) hsame)
      · rintro ⟨_, _, row, hmem, hrow, hname, hothers⟩
        refine ⟨row, hmem, hrow, hname, List.not_mem_nil, fun made hmade hkey => ?_⟩
        obtain ⟨other, hother, hid⟩ :=
          (hids row.sourceRecordId).mp ⟨made, hmade, congrArg Prod.snd hkey⟩
        exact hothers other hother hid
  | official entries individuals entities =>
    constructor
    · rintro ⟨row, _, rfl, _, hkept, _⟩
      exact absurd hsource hkept
    · exact fun hfalse => nomatch hfalse

end

/-! ## Runs -/

section

variable {read : Text → Value} {before after : SanctionState}

/-- An operation that has not replaced the records has left them, and one that has did so from the
table that it found. -/
def Tracked (read : Text → Value) (state : SanctionState) : Prop :=
  ∀ run, state.running = some run →
    (run.replaced = false → state.records = run.before) ∧
      (run.replaced = true → ∃ records, run.operation.incoming read = some records ∧
        replaceRecords run.before records run.operation.replacedSources = some state.records)

theorem Tracked.step (htracked : Tracked read before) {event : SanctionEvent}
    (hstep : sanctionStep read before event = some after) : Tracked read after := by
  intro run hrun
  cases event with
  | start operation =>
    simp only [sanctionStep, Option.ite_none_right_eq_some, Option.some.injEq] at hstep
    obtain ⟨_, rfl⟩ := hstep
    cases hrun
    exact ⟨fun _ => rfl, fun hreplaced => nomatch hreplaced⟩
  | replace =>
    simp only [sanctionStep] at hstep
    split at hstep
    case h_1 => cases hstep
    case h_2 old hold =>
      rw [Option.ite_none_left_eq_some, Option.bind_eq_some_iff] at hstep
      obtain ⟨hfirst, records, hincoming, hmap⟩ := hstep
      obtain ⟨table, htable, rfl⟩ := Option.map_eq_some_iff.mp hmap
      cases hrun
      refine ⟨fun hreplaced => (nomatch hreplaced), fun _ => ⟨records, hincoming, ?_⟩⟩
      rw [← ((htracked old hold).1 (Bool.eq_false_of_not_eq_true hfirst))]
      exact htable
  | complete =>
    simp only [sanctionStep] at hstep
    split at hstep
    case h_1 => cases hstep
    case h_2 =>
      rw [Option.ite_none_right_eq_some] at hstep
      obtain ⟨_, hsome⟩ := hstep
      cases hsome
      cases hrun
  | fail =>
    simp only [sanctionStep, Option.ite_none_right_eq_some, Option.some.injEq] at hstep
    obtain ⟨_, rfl⟩ := hstep
    cases hrun

/-- The names of a list are of the sources of its operation. -/
theorem source_of_delivered {operation : Operation} {source : Source} {name : Text}
    (hname : (source, name) ∈ operation.delivered) : source ∈ operation.sources := by
  cases operation with
  | upload list rows merge =>
    obtain ⟨_, _, hpair⟩ := List.mem_map.mp hname
    cases hpair
    exact List.mem_singleton_self _
  | official entries individuals entities =>
    rcases List.mem_append.mp hname with hofac | hun
    · obtain ⟨_, _, hpair⟩ := List.mem_map.mp hofac
      cases hpair
      exact List.mem_cons_self
    · obtain ⟨_, _, hpair⟩ := List.mem_map.mp hun
      cases hpair
      exact List.mem_cons_of_mem _ (List.mem_singleton_self _)

/-- The names that a source has after a replacement. -/
theorem exists_replaced_iff {run : SyncRun} {table : Table SanctionRecord.key}
    {records : List SanctionRecord} (hincoming : run.operation.incoming read = some records)
    (hreplace : replaceRecords run.before records run.operation.replacedSources = some table)
    {source : Source} (hsource : source ∈ run.operation.sources) (name : Text) :
    (∃ row ∈ table.rows, row.source = source ∧ row.normalizedName = name) ↔
      (∃ other, (source, other) ∈ run.operation.kept read ∧ storedName other = name) ∨
        run.operation.Leaves run.before source name := by
  rw [← (names_of_incoming hincoming).2 source name, ← leaves_iff hincoming hsource]
  constructor
  · rintro ⟨row, hrow, hsame, hname⟩
    rcases (mem_replaceRecords hreplace).mp hrow with hnew | ⟨hold, hkept, hkeys⟩
    · exact .inl ⟨row, hnew, hsame, hname⟩
    · exact .inr ⟨row, hold, hsame, hname, hkept, hkeys⟩
  · rintro (⟨row, hnew, hsame, hname⟩ | ⟨row, hold, hsame, hname, hkept, hkeys⟩)
    · exact ⟨row, (mem_replaceRecords hreplace).mpr (.inl hnew), hsame, hname⟩
    · exact ⟨row, (mem_replaceRecords hreplace).mpr (.inr ⟨hold, hkept, hkeys⟩), hsame, hname⟩

theorem mem_replaced_of_other {run : SyncRun} {table : Table SanctionRecord.key}
    {records : List SanctionRecord} (hincoming : run.operation.incoming read = some records)
    (hreplace : replaceRecords run.before records run.operation.replacedSources = some table)
    {row : SanctionRecord} (hother : row.source ∉ run.operation.sources) :
    row ∈ table.rows ↔ row ∈ run.before.rows := by
  have hsources := (names_of_incoming hincoming).1
  rw [mem_replaceRecords hreplace]
  constructor
  · rintro (hnew | ⟨hold, _⟩)
    · exact absurd (hsources row hnew) hother
    · exact hold
  · intro hold
    refine .inr ⟨hold, fun hdeleted => hother (replacedSources_subset hdeleted), ?_⟩
    intro made hmade hkey
    have hsame : made.source = row.source := congrArg Prod.fst hkey
    exact hother (hsame ▸ hsources made hmade)

/-- A run that completes loses no name exactly if its list is clean. -/
theorem losesNoName_complete {similarity : Text → Text → ℚ}
    (hself : ∀ text, similarity text text = 1) (alike : Text → Text → Bool) {run : SyncRun}
    {table : Table SanctionRecord.key} {records : List SanctionRecord}
    (hincoming : run.operation.incoming read = some records)
    (hreplace : replaceRecords run.before records run.operation.replacedSources = some table) :
    ((∀ source name, (source, name) ∈ run.operation.delivered → normalize name ≠ [] →
          Listed similarity alike table source name) ∧
        ∀ row, row.source ∉ run.operation.sources → (row ∈ table.rows ↔ row ∈ run.before.rows)) ↔
      run.operation.Clean read run.before := by
  constructor
  · rintro ⟨hlisted, _⟩
    intro source name hname hnormal
    apply (exists_replaced_iff hincoming hreplace (source_of_delivered hname) _).mp
    exact (hlisted source name hname hnormal).1
  · intro hclean
    refine ⟨fun source name hname hnormal => ?_,
      fun row hother => mem_replaced_of_other hincoming hreplace hother⟩
    have hrow := (exists_replaced_iff hincoming hreplace (source_of_delivered hname) _).mpr
      (hclean source name hname hnormal)
    refine ⟨hrow, ?_⟩
    obtain ⟨row, hmem, _, hsame⟩ := hrow
    exact screenName_matched hself alike hnormal hmem hsame

/-- A run that fails leaves the records exactly if it has not replaced them or its list restates
them. -/
theorem losesNoName_fail {run : SyncRun} {table : Table SanctionRecord.key}
    {records : List SanctionRecord} (hincoming : run.operation.incoming read = some records)
    (hreplace : replaceRecords run.before records run.operation.replacedSources = some table) :
    (∀ row, row ∈ table.rows ↔ row ∈ run.before.rows) ↔
      run.operation.Restates read run.before := by
  constructor
  · intro hsame found hfound
    rw [hincoming] at hfound
    cases hfound
    constructor
    · intro row hrow
      exact (hsame row).mp ((mem_replaceRecords hreplace).mpr (.inl hrow))
    · intro row hrow hdeleted
      rcases (mem_replaceRecords hreplace).mp ((hsame row).mpr hrow) with hnew | ⟨_, hkept, _⟩
      · exact hnew
      · exact absurd hdeleted hkept
  · intro hrestates row
    obtain ⟨hknown, hsaid⟩ := hrestates records hincoming
    rw [mem_replaceRecords hreplace]
    constructor
    · rintro (hnew | ⟨hold, _⟩)
      · exact hknown row hnew
      · exact hold
    · intro hold
      by_cases hnew : row ∈ records
      case pos => exact .inl hnew
      case neg =>
        refine .inr ⟨hold, fun hdeleted => hnew (hsaid row hold hdeleted), ?_⟩
        intro made hmade hkey
        apply hnew
        rw [← run.before.eq_of_key_eq (hknown made hmade) hold hkey]
        exact hmade

/-- A step loses no name exactly if it is harmless. -/
theorem losesNoName_iff {similarity : Text → Text → ℚ}
    (hself : ∀ text, similarity text text = 1) (alike : Text → Text → Bool)
    (htracked : Tracked read before) {event : SanctionEvent}
    (hstep : sanctionStep read before event = some after) :
    LosesNoName similarity alike before event after ↔ Harmless read before event := by
  apply forall_congr'
  intro run
  apply imp_congr_right
  intro hrun
  obtain ⟨hleft, hreplaced⟩ := htracked run hrun
  cases event with
  | start operation => exact Iff.rfl
  | replace => exact Iff.rfl
  | complete =>
    simp only [sanctionStep, hrun, Option.ite_none_right_eq_some, Option.some.injEq] at hstep
    obtain ⟨hdone, rfl⟩ := hstep
    obtain ⟨records, hincoming, hreplace⟩ := hreplaced hdone
    exact losesNoName_complete hself alike hincoming hreplace
  | fail =>
    simp only [sanctionStep, Option.ite_none_right_eq_some, Option.some.injEq] at hstep
    obtain ⟨_, rfl⟩ := hstep
    cases hdone : run.replaced with
    | false =>
      rw [hleft hdone]
      exact iff_of_true (fun _ => Iff.rfl) (fun hfalse => nomatch hfalse)
    | true =>
      obtain ⟨records, hincoming, hreplace⟩ := hreplaced hdone
      rw [losesNoName_fail hincoming hreplace]
      exact ⟨fun hrestates _ => hrestates, fun hrestates => hrestates rfl⟩

end

/-- A run that completes has a record and a match for every name of its list and leaves the other
sources, and one that fails leaves all records, exactly if its list is clean or it fails in time;
and a name of at most a thousand units is stored in the form in which it is screened. -/
theorem sanctions_lose_no_name {similarity : Text → Text → ℚ}
    (hself : ∀ text, similarity text text = 1) (alike : Text → Text → Bool) (read : Text → Value)
    {start : SanctionState} (hidle : start.running = none) :
    (∀ before event after, Reaches (sanctionStep read) start before →
      sanctionStep read before event = some after →
        (LosesNoName similarity alike before event after ↔ Harmless read before event)) ∧
    ∀ name, ((Spacing.tidy isSpace ' ' name).map units).sum ≤ 1000 →
      storedName name = normalize name := by
  constructor
  · intro before event after hrun hstep
    have htracked : Tracked read before := by
      apply hrun.preserves (Tracked read) fun _ _ _ hbefore hnext => hbefore.step hnext
      intro run hrunning
      rw [hidle] at hrunning
      cases hrunning
    exact losesNoName_iff hself alike htracked hstep
  · exact fun name hshort => storedName_eq (slice_eq_self hshort)

def twoNames (secondId : String) : Operation :=
  .upload "LOCAL".toList
    [{ name := "JOHN DOE".toList, recordId := "X1".toList },
      { name := "JANE ROE".toList, recordId := secondId.toList }] false

def sameText (first second : Text) : ℚ := if first = second then 1 else 0

/-- The steps of the list up to its completion. -/
def untilReplaced (secondId : String) : List SanctionEvent := [.start (twoNames secondId), .replace]

/-- Two names under two identifiers are both listed. -/
theorem sanctions_lose_no_name_two : ∃ before after,
    Reaches (sanctionStep Value.ofText) { records := .empty } before ∧
    sanctionStep Value.ofText before .complete = some after ∧
    before.running.map SyncRun.operation = some (twoNames "X2") ∧
    LosesNoName sameText (fun first second => first = second) before .complete after := by
  have hany : (runInputs (sanctionStep Value.ofText) { records := .empty }
      (untilReplaced "X2")).any (fun before =>
        decide (before.running.map SyncRun.operation = some (twoNames "X2")) &&
          (sanctionStep Value.ofText before .complete).isSome) := by
    decide
  obtain ⟨before, hrun, hfacts⟩ := (Option.any_eq_true _ _).mp hany
  rw [Bool.and_eq_true] at hfacts
  have hoperation := of_decide_eq_true hfacts.1
  obtain ⟨after, hafter⟩ := Option.isSome_iff_exists.mp hfacts.2
  have hreaches := Reaches.of_runInputs hrun
  refine ⟨before, after, hreaches, hafter, hoperation, ?_⟩
  refine ((sanctions_lose_no_name (fun _ => if_pos rfl) _ Value.ofText rfl).1 before .complete after
    hreaches hafter).mpr ?_
  intro run hrunning
  rw [hrunning] at hoperation
  have hsame : run.operation = twoNames "X2" := Option.some.inj hoperation
  rw [hsame]
  intro source name hname _
  left
  rcases List.mem_cons.mp hname with hfirst | hrest
  · cases hfirst
    exact ⟨"JOHN DOE".toList, by decide, by decide⟩
  · cases List.mem_singleton.mp hrest
    exact ⟨"JANE ROE".toList, by decide, by decide⟩

/-- Of two names under one identifier the first is lost, and its screening is clear. -/
theorem shared_identifier_loses_name : ∃ before after,
    Reaches (sanctionStep Value.ofText) { records := .empty } before ∧
    sanctionStep Value.ofText before .complete = some after ∧
    before.running.map SyncRun.operation = some (twoNames "X1") ∧
    ¬ LosesNoName sameText (fun first second => first = second) before .complete after ∧
    screenName sameText (fun first second => first = second) after.records "JOHN DOE".toList =
      .clear := by
  have hany : (runInputs (sanctionStep Value.ofText) { records := .empty }
      (untilReplaced "X1")).any (fun before =>
        decide (before.running.map SyncRun.operation = some (twoNames "X1")) &&
          (sanctionStep Value.ofText before .complete).any fun after =>
            decide (screenName sameText (fun first second => first = second) after.records
              "JOHN DOE".toList = .clear)) := by
    decide +kernel
  obtain ⟨before, hrun, hfacts⟩ := (Option.any_eq_true _ _).mp hany
  rw [Bool.and_eq_true] at hfacts
  have hoperation := of_decide_eq_true hfacts.1
  obtain ⟨after, hafter, hclear⟩ := (Option.any_eq_true _ _).mp hfacts.2
  refine ⟨before, after, Reaches.of_runInputs hrun, hafter, hoperation, ?_,
    of_decide_eq_true hclear⟩
  intro hlost
  obtain ⟨run, hrunning, hsame⟩ := Option.map_eq_some_iff.mp hoperation
  obtain ⟨hlisted, _⟩ := hlost run hrunning
  have hmatched := (hlisted (.manual "LOCAL".toList) "JOHN DOE".toList
    (by rw [hsame]; exact List.mem_cons_self) (by decide)).2
  rw [of_decide_eq_true hclear] at hmatched
  cases hmatched

end Finify.Kyc.Sanctions
