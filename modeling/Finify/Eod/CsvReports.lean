/-
# Reports as comma-separated values

`CsvReportService.serialize` writes the rows of a report under the keys of all of them.  A row that
lacks a key is asked for it all the same, and answers with what every object inherits under that
name.  A value is given by its text: JSON for an object, and none for `null` and `undefined`.
-/

import Finify.Foundations.Csv
import Mathlib.Data.String.Basic

namespace Finify.Eod.CsvReports

open Finify.Foundations

/-- A row of a report, with its keys in the order of `Object.keys`. -/
structure Row where
  values : List (String × Option String)
  nodup : (values.map Prod.fst).Nodup

/-- `Object.keys`. -/
def Row.keys (row : Row) : List String := row.values.map Prod.fst

/-- `columns`: each key once, where it appears first. -/
def columns (rows : List Row) : List String := (rows.flatMap Row.keys).eraseDups

/-- The text of what an object inherits from `Object.prototype`. -/
def inherited (column : String) : Option String :=
  if column = "__proto__" then some "\x7b\x7d"
  else if column = "constructor" then some "function Object() \x7b [native code] \x7d"
  else if column ∈ ["hasOwnProperty", "isPrototypeOf", "propertyIsEnumerable", "toLocaleString",
      "toString", "valueOf", "__defineGetter__", "__defineSetter__", "__lookupGetter__",
      "__lookupSetter__"] then
    some ("function " ++ column ++ "() \x7b [native code] \x7d")
  else none

/-- The text of `row[column]`. -/
def Row.text (row : Row) (column : String) : Option String :=
  (row.values.lookup column).getD (inherited column)

/-- `escape`. -/
def escape (text : Option String) : List Char := Csv.escape (text.getD "").toList

/-- `serialize`. -/
def serialize (rows : List Row) : List Char :=
  if rows.isEmpty then []
  else
    let columns := columns rows
    ['\r', '\n'].intercalate ([','].intercalate (columns.map fun column => escape (some column)) ::
      rows.map fun row => [','].intercalate (columns.map fun column => escape (row.text column)))

/-- The text of a row's own value, which is empty where it has none. -/
def Row.own (row : Row) (column : String) : String := ((row.values.lookup column).getD none).getD ""

/-- Read back, a report is a record of its columns and one of the values of each row. -/
def LosesNothing (rows : List Row) : Prop :=
  Csv.parse (serialize rows) = some ((columns rows).map String.toList ::
    rows.map fun row => (columns rows).map fun column => (row.own column).toList)

/-- No row lacks a column that objects inherit. -/
def NothingInherited (rows : List Row) : Prop :=
  ∀ row ∈ rows, ∀ column ∈ columns rows, column ∉ row.keys → inherited column = none

theorem inherited_eq_none {column : String} :
    (inherited column).getD "" = "" ↔ inherited column = none := by
  unfold inherited
  split
  · simp
  · split
    · simp
    · split <;> simp

/-- A report is the document of its columns and of what each row answers. -/
theorem serialize_eq {rows : List Row} (hrows : rows ≠ []) :
    serialize rows = Csv.document ((columns rows).map String.toList ::
      rows.map fun row => (columns rows).map fun column => ((row.text column).getD "").toList) := by
  rw [serialize, if_neg (by simpa using hrows), Csv.document]
  simp [Csv.line, escape, Function.comp_def]

/-- A row answers with its own value, or with nothing, unless it lacks an inherited column. -/
theorem Row.text_eq_own_iff (row : Row) (column : String) :
    (row.text column).getD "" = row.own column ↔
      (column ∉ row.keys → inherited column = none) := by
  unfold Row.text Row.own
  cases hlookup : row.values.lookup column with
  | none =>
    have hlacks : column ∉ row.keys := by
      intro hkey
      obtain ⟨value, hvalue, hsame⟩ := List.mem_map.mp hkey
      exact absurd hsame.symm (by simpa using List.lookup_eq_none_iff.mp hlookup value hvalue)
    rw [Option.getD_none, Option.getD_none, Option.getD_none, inherited_eq_none]
    simp [hlacks]
  | some value =>
    have hhas : column ∈ row.keys := by
      obtain ⟨before, after, hvalues, _⟩ := List.lookup_eq_some_iff.mp hlookup
      simp [Row.keys, hvalues]
    simp [hhas]

/-- A report with two columns or more loses nothing if and only if no row lacks a column that
objects inherit. -/
theorem losesNothing_iff (rows : List Row) (hcolumns : 2 ≤ (columns rows).length) :
    LosesNothing rows ↔ NothingInherited rows := by
  have hrows : rows ≠ [] := by
    intro hnone
    rw [hnone] at hcolumns
    exact absurd hcolumns (by decide)
  have hread : Csv.parse (serialize rows) = some ((columns rows).map String.toList ::
      rows.map fun row => (columns rows).map fun column =>
        ((row.text column).getD "").toList) := by
    rw [serialize_eq hrows]
    apply Csv.parse_document
    intro fields hfields
    rcases List.mem_cons.mp hfields with rfl | hrow
    · rwa [List.length_map]
    · obtain ⟨row, _, rfl⟩ := List.mem_map.mp hrow
      rwa [List.length_map]
  rw [LosesNothing, hread, Option.some_inj, List.cons_inj_right, List.map_inj_left]
  apply forall₂_congr
  intro row hrow
  rw [List.map_inj_left]
  apply forall₂_congr
  intro column hcolumn
  rw [String.toList_inj, row.text_eq_own_iff]

/-- Two rows, the second of which lacks a key that objects inherit. -/
def ragged : List Row :=
  [⟨[("account", some "1000"), ("valueOf", some "5")], by decide⟩, ⟨[("account", none)], by decide⟩]

/-- Rows of any shape with two columns that nothing inherits. -/
def ordinary : List Row :=
  [⟨[("account", some "1,000"), ("name", some "\"A\"")], by decide⟩,
    ⟨[("account", none)], by decide⟩]

theorem losesNothing_ordinary : LosesNothing ordinary :=
  (losesNothing_iff ordinary (by decide)).mpr (by unfold NothingInherited; decide)

/-- The second row is given the text of a function. -/
theorem ragged_loses : 2 ≤ (columns ragged).length ∧ ¬ LosesNothing ragged := by
  use by decide
  unfold LosesNothing
  decide

end Finify.Eod.CsvReports
