/-
# Comma-separated values

Records of fields as texts: a field with a comma, a quotation mark or a line break is quoted, and
the quotation marks in it are doubled.  Every list of records with two fields or more is read back.
-/

import Mathlib.Data.List.Basic

namespace Finify.Foundations.Csv

/-- Where a reader stands in a field. -/
inductive Mode
  | start
  | plain
  | quoted
  | closing
  | lineEnd
  deriving DecidableEq, Repr

/-- Read records from a text, with the field and the record that were begun.  The last record may
have a line end, a quoted field is closed before anything else follows, and no other field holds a
quotation mark or a line break. -/
def read : Mode → List Char → List (List Char) → List Char → Option (List (List (List Char)))
  | .start, _, [], [] => some []
  | .quoted, _, _, [] => none
  | .lineEnd, _, _, [] => none
  | _, field, record, [] => some [record ++ [field]]
  | .quoted, field, record, c :: rest =>
    if c = '"' then read .closing field record rest else read .quoted (field ++ [c]) record rest
  | .lineEnd, field, record, c :: rest =>
    if c = '\n' then (read .start [] [] rest).map ((record ++ [field]) :: ·) else none
  | mode, field, record, c :: rest =>
    if c = ',' then read .start [] (record ++ [field]) rest
    else if c = '\r' then read .lineEnd field record rest
    else if c = '"' then
      if mode = .start then read .quoted field record rest
      else if mode = .closing then read .quoted (field ++ ['"']) record rest
      else none
    else if mode = .closing ∨ c = '\n' then none
    else read .plain (field ++ [c]) record rest

def parse (text : List Char) : Option (List (List (List Char))) := read .start [] [] text

/-- A field that holds such a letter is quoted. -/
def Special (c : Char) : Bool := c = '"' || c = ',' || c = '\r' || c = '\n'

def escape (field : List Char) : List Char :=
  if field.any Special then
    '"' :: (field.flatMap fun c => if c = '"' then ['"', '"'] else [c]) ++ ['"']
  else field

/-- A record as a text. -/
def line (fields : List (List Char)) : List Char := [','].intercalate (fields.map escape)

/-- Records as a text, with line ends between them. -/
def document (records : List (List (List Char))) : List Char :=
  ['\r', '\n'].intercalate (records.map line)

theorem intercalate_cons {α : Type} (separator first : List α) (rest : List (List α)) :
    separator.intercalate (first :: rest) = first ++ rest.flatMap (separator ++ ·) := by
  induction rest generalizing first with
  | nil => simp
  | cons next rest ih =>
    simp only [List.intercalate_cons_cons, ih, List.flatMap_cons, List.append_assoc]

/-- A field may end here. -/
def Mode.Ended (mode : Mode) : Prop := mode ≠ .quoted ∧ mode ≠ .lineEnd

variable {mode : Mode} {field : List Char} {record : List (List Char)} {rest : List Char}

theorem read_comma (hended : mode.Ended) :
    read mode field record (',' :: rest) = read .start [] (record ++ [field]) rest := by
  cases mode with
  | quoted => exact absurd rfl hended.1
  | lineEnd => exact absurd rfl hended.2
  | start | plain | closing => simp [read]

theorem read_lineEnd (hended : mode.Ended) :
    read mode field record ('\r' :: '\n' :: rest) =
      (parse rest).map ((record ++ [field]) :: ·) := by
  cases mode with
  | quoted => exact absurd rfl hended.1
  | lineEnd => exact absurd rfl hended.2
  | start | plain | closing => simp [read, parse]

theorem read_nil (hended : mode.Ended) (hrecord : record ≠ []) :
    read mode field record [] = some [record ++ [field]] := by
  cases record with
  | nil => exact absurd rfl hrecord
  | cons first fields =>
    cases mode with
    | quoted => exact absurd rfl hended.1
    | lineEnd => exact absurd rfl hended.2
    | start | plain | closing => rfl

/-- Doubled quotation marks are read as one, up to the closing one. -/
theorem read_doubled (text : List Char) :
    read .quoted field record
        ((text.flatMap fun c => if c = '"' then ['"', '"'] else [c]) ++ '"' :: rest) =
      read .closing (field ++ text) record rest := by
  induction text generalizing field with
  | nil => simp [read]
  | cons c text ih =>
    rw [List.append_cons field, ← ih, List.flatMap_cons]
    by_cases hquote : c = '"'
    · simp [read, hquote]
    · simp [read, hquote]

/-- Letters that need no quotation marks are read as they are. -/
theorem read_plain (text : List Char) (htext : ∀ c ∈ text, Special c = false)
    (hmode : mode = .start ∨ mode = .plain) :
    ∃ after : Mode, after.Ended ∧ ∀ record rest,
      read mode field record (text ++ rest) = read after (field ++ text) record rest := by
  induction text generalizing mode field with
  | nil =>
    use mode
    rcases hmode with rfl | rfl <;> simp [Mode.Ended]
  | cons c text ih =>
    obtain ⟨after, hended, hread⟩ := @ih .plain (field ++ [c])
      (fun other hother => htext other (List.mem_cons_of_mem _ hother)) (.inr rfl)
    use after, hended
    intro record rest
    have hc := htext c List.mem_cons_self
    simp only [Special, Bool.or_eq_false_iff, decide_eq_false_iff_not] at hc
    rw [List.append_cons field, ← hread]
    rcases hmode with rfl | rfl <;> simp [read, hc]

/-- A field is read back from its text. -/
theorem read_escape (text : List Char) :
    ∃ after : Mode, after.Ended ∧ ∀ record rest,
      read .start [] record (escape text ++ rest) = read after text record rest := by
  cases hspecial : text.any Special with
  | true =>
    use .closing, ⟨by decide, by decide⟩
    intro record rest
    simp [escape, hspecial, read, read_doubled]
  | false =>
    have htext : ∀ c ∈ text, Special c = false := by
      simpa using List.any_eq_false.mp hspecial
    rw [escape, if_neg (by simp [hspecial])]
    exact read_plain text htext (.inl rfl)

/-- The fields behind a field are read back, but for the end of the last one. -/
theorem read_fields (fields : List (List Char)) (hended : mode.Ended) :
    ∃ (after : Mode) (last : List Char) (before : List (List Char)), after.Ended ∧
      before ++ [last] = record ++ field :: fields ∧ ∀ rest,
        read mode field record (fields.flatMap (fun field => [','] ++ escape field) ++ rest) =
          read after last before rest := by
  induction fields generalizing mode field record with
  | nil => exact ⟨mode, field, record, hended, rfl, fun _ => rfl⟩
  | cons next fields ih =>
    obtain ⟨middle, hmiddle, hread⟩ := read_escape next
    obtain ⟨after, last, before, hafter, hsame, hrest⟩ :=
      @ih middle next (record ++ [field]) hmiddle
    refine ⟨after, last, before, hafter, by simpa using hsame, fun rest => ?_⟩
    rw [← hrest, ← hread, List.flatMap_cons, List.append_assoc, List.append_assoc,
      List.singleton_append, read_comma hended]

/-- A record of two fields or more is read back, but for the end of its last field. -/
theorem read_line {fields : List (List Char)} (hfields : 2 ≤ fields.length) :
    ∃ (after : Mode) (last : List Char) (before : List (List Char)), after.Ended ∧
      before ≠ [] ∧ before ++ [last] = fields ∧ ∀ rest,
        read .start [] [] (line fields ++ rest) = read after last before rest := by
  cases fields with
  | nil => cases hfields
  | cons field fields =>
    obtain ⟨middle, hmiddle, hread⟩ := read_escape field
    obtain ⟨after, last, before, hafter, hsame, hrest⟩ := @read_fields middle field [] fields hmiddle
    refine ⟨after, last, before, hafter, ?_, hsame, fun rest => ?_⟩
    · intro hnone
      have hlength := congrArg List.length hsame
      rw [hnone] at hlength
      simp only [List.nil_append, List.length_cons, List.length_nil] at hlength hfields
      omega
    · rw [← hrest, ← hread, line, List.map_cons, intercalate_cons, List.flatMap_map,
        List.append_assoc]

/-- Records of two fields or more are read back from their text. -/
theorem parse_document (record : List (List Char)) (records : List (List (List Char)))
    (hfields : ∀ fields ∈ record :: records, 2 ≤ fields.length) :
    parse (document (record :: records)) = some (record :: records) := by
  induction records generalizing record with
  | nil =>
    obtain ⟨after, last, before, hended, hbefore, hsame, hread⟩ :=
      read_line (hfields record List.mem_cons_self)
    have hline := hread []
    rw [List.append_nil, read_nil hended hbefore, hsame] at hline
    rw [parse, document, List.map_singleton, List.intercalate_singleton, hline]
  | cons next records ih =>
    obtain ⟨after, last, before, hended, _, hsame, hread⟩ :=
      read_line (hfields record List.mem_cons_self)
    have hnext := ih next fun fields hmem => hfields fields (List.mem_cons_of_mem _ hmem)
    rw [document] at hnext
    rw [parse, document, List.map_cons, List.map_cons, List.intercalate_cons_cons,
      List.append_assoc, hread, ← List.map_cons, List.cons_append, List.cons_append,
      List.nil_append, read_lineEnd hended, hnext, Option.map_some, hsame]

end Finify.Foundations.Csv
