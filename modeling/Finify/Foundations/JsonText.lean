/-
# JSON values and their texts

A JSON value is printed without blanks, its strings between quotation marks with escapes.  The
printed text is read in one way only, so that different values have different texts.
-/

import Finify.Foundations.Delimited
import Finify.Foundations.Numerals

namespace Finify.Foundations

/-- A text as its UTF-16 code units. -/
abbrev Units := List UInt16

/-- The code units of a text without characters of two units. -/
def units (text : String) : Units := text.toList.map fun character => .ofNat character.toNat

/-- A JSON value; the entries of an object stand in the order in which they are enumerated. -/
inductive Json (Number : Type) where
  | null
  | boolean (value : Bool)
  | number (value : Number)
  | string (value : Units)
  | array (items : List (Json Number))
  | object (entries : List (Units × Json Number))

variable {Number : Type}

/-- What holds of a value if it holds of what stands in it holds of every value. -/
@[elab_as_elim]
theorem Json.induct {motive : Json Number → Prop} (null : motive .null)
    (boolean : ∀ value, motive (.boolean value)) (number : ∀ value, motive (.number value))
    (string : ∀ value, motive (.string value))
    (array : ∀ items, (∀ item ∈ items, motive item) → motive (.array items))
    (object : ∀ entries, (∀ entry ∈ entries, motive entry.2) → motive (.object entries))
    (value : Json Number) : motive value :=
  @Json.rec Number motive (fun items => ∀ item ∈ items, motive item)
    (fun entries => ∀ entry ∈ entries, motive entry.2) (fun entry => motive entry.2)
    null boolean number string array object
    (fun _ hmem => (List.not_mem_nil hmem).elim)
    (fun _ _ hhead htail => List.forall_mem_cons.mpr ⟨hhead, htail⟩)
    (fun _ hmem => (List.not_mem_nil hmem).elim)
    (fun _ _ hhead htail => List.forall_mem_cons.mpr ⟨hhead, htail⟩)
    (fun _ _ hvalue => hvalue) value

mutual

/-- A value with the entries of each object put in another order. -/
def Json.reorder (order : List (Units × Json Number) → List (Units × Json Number)) :
    Json Number → Json Number
  | .array items => .array (reorderItems order items)
  | .object entries => .object (order (reorderEntries order entries))
  | .null => .null
  | .boolean value => .boolean value
  | .number value => .number value
  | .string value => .string value

def reorderItems (order : List (Units × Json Number) → List (Units × Json Number)) :
    List (Json Number) → List (Json Number)
  | [] => []
  | item :: items => item.reorder order :: reorderItems order items

def reorderEntries (order : List (Units × Json Number) → List (Units × Json Number)) :
    List (Units × Json Number) → List (Units × Json Number)
  | [] => []
  | (key, item) :: entries => (key, item.reorder order) :: reorderEntries order entries

end

section Reorder

variable {order : List (Units × Json Number) → List (Units × Json Number)}

theorem reorder_array (items : List (Json Number)) :
    (Json.array items).reorder order = .array (items.map (Json.reorder order)) := by
  have hitems : reorderItems order items = items.map (Json.reorder order) := by
    induction items with
    | nil => rfl
    | cons item items ih => rw [reorderItems, ih, List.map_cons]
  rw [Json.reorder, hitems]

theorem reorder_object (entries : List (Units × Json Number)) :
    (Json.object entries).reorder order =
      .object (order (entries.map (Prod.map id (Json.reorder order)))) := by
  have hentries : reorderEntries order entries =
      entries.map (Prod.map id (Json.reorder order)) := by
    induction entries with
    | nil => rfl
    | cons entry entries ih => rw [reorderEntries, ih, List.map_cons, Prod.map, id]
  rw [Json.reorder, hentries]

end Reorder

/-! ## Strings -/

/-- The first unit of a character of two. -/
def isHigh (unit : UInt16) : Bool := 0xd800 ≤ unit.toNat && unit.toNat < 0xdc00

/-- The second unit of a character of two. -/
def isLow (unit : UInt16) : Bool := 0xdc00 ≤ unit.toNat && unit.toNat < 0xe000

/-- The unit stands as it is: it is neither a quotation mark, a backslash or a control character
nor half of a character whose other half is not next to it. -/
def standsPlain (previous : Option UInt16) (unit : UInt16) (next : Option UInt16) : Bool :=
  unit ≠ 34 && unit ≠ 92 && 32 ≤ unit.toNat &&
    (!isHigh unit || next.any isLow) && (!isLow unit || previous.any isHigh)

/-- The letter that stands for a unit behind a backslash. -/
def shortEscape (unit : UInt16) : Option UInt16 :=
  match unit.toNat with
  | 8 => some 98
  | 9 => some 116
  | 10 => some 110
  | 12 => some 102
  | 13 => some 114
  | 34 => some 34
  | 92 => some 92
  | _ => none

/-- A unit behind a backslash. -/
def escaped (unit : UInt16) : Units :=
  match shortEscape unit with
  | some letter => [92, letter]
  | none => 92 :: 117 :: (fixedDigits 16 4 unit.toNat).map fun digit => .ofNat digit.toNat

/-- The units between the quotation marks. -/
def quotedFrom (previous : Option UInt16) : Units → Units
  | [] => []
  | unit :: rest =>
    (if standsPlain previous unit rest.head? then [unit] else escaped unit) ++
      quotedFrom (some unit) rest

/-- `JSON.stringify` of a string. -/
def quoted (text : Units) : Units := 34 :: quotedFrom none text ++ [34]

/-- Four digits are those of one unit. -/
theorem hexDigits_injective {first second : UInt16}
    (heq : ((fixedDigits 16 4 first.toNat).map fun digit => UInt16.ofNat digit.toNat) =
      (fixedDigits 16 4 second.toNat).map fun digit => UInt16.ofNat digit.toNat) :
    first = second := by
  have hvalue := map_fixedDigits_injective (by decide) (by decide) heq
  have hwidth : (16 : ℕ) ^ 4 = 2 ^ 16 := rfl
  rw [hwidth, Nat.mod_eq_of_lt first.toNat_lt, Nat.mod_eq_of_lt second.toNat_lt] at hvalue
  exact UInt16.toNat_inj.mp hvalue

/-- The unit that a letter behind a backslash stands for. -/
def unescaped (letter : UInt16) : UInt16 :=
  match letter.toNat with
  | 98 => 8
  | 116 => 9
  | 110 => 10
  | 102 => 12
  | 114 => 13
  | _ => letter

theorem unescaped_shortEscape {unit letter : UInt16} (hletter : shortEscape unit = some letter) :
    unescaped letter = unit ∧ letter ≠ 117 := by
  unfold shortEscape at hletter
  split at hletter
  all_goals first
    | contradiction
    | rename_i hunit
      rw [← Option.some.inj hletter]
      exact ⟨UInt16.toNat_inj.mp hunit.symm, by decide⟩

/-- Escapes are told apart. -/
theorem escaped_read {first second : UInt16} {rest rest' : Units}
    (heq : escaped first ++ rest = escaped second ++ rest') : first = second ∧ rest = rest' := by
  unfold escaped at heq
  cases hfirst : shortEscape first with
  | some letter =>
    cases hsecond : shortEscape second with
    | some other =>
      simp only [hfirst, hsecond, List.cons_append, List.nil_append, List.cons.injEq] at heq
      obtain ⟨-, hletter, hrest⟩ := heq
      refine ⟨?_, hrest⟩
      rw [← (unescaped_shortEscape hfirst).1, hletter, (unescaped_shortEscape hsecond).1]
    | none =>
      simp only [hfirst, hsecond, List.cons_append, List.nil_append, List.cons.injEq] at heq
      exact absurd heq.2.1 (unescaped_shortEscape hfirst).2
  | none =>
    cases hsecond : shortEscape second with
    | some other =>
      simp only [hfirst, hsecond, List.cons_append, List.nil_append, List.cons.injEq] at heq
      exact absurd heq.2.1.symm (unescaped_shortEscape hsecond).2
    | none =>
      simp only [hfirst, hsecond, List.cons_append, List.cons.injEq, true_and] at heq
      obtain ⟨hdigits, hrest⟩ := List.append_inj heq (by
        rw [List.length_map, List.length_map, length_fixedDigits, length_fixedDigits])
      exact ⟨hexDigits_injective hdigits, hrest⟩

theorem escaped_eq_cons (unit : UInt16) : ∃ later, escaped unit = 92 :: later := by
  unfold escaped
  split
  · exact ⟨_, rfl⟩
  · exact ⟨_, rfl⟩

theorem ne_of_standsPlain {previous next : Option UInt16} {unit : UInt16}
    (hplain : standsPlain previous unit next = true) : unit ≠ 34 ∧ unit ≠ 92 := by
  simp only [standsPlain, Bool.and_eq_true, decide_eq_true_eq] at hplain
  exact ⟨hplain.1.1.1.1, hplain.1.1.1.2⟩

/-- What is written for a unit begins with no quotation mark, and it is told apart from what is
written for another. -/
theorem unit_read {previous previous' next next' : Option UInt16} {first second : UInt16}
    {rest rest' : Units}
    (heq : (if standsPlain previous first next then [first] else escaped first) ++ rest =
      (if standsPlain previous' second next' then [second] else escaped second) ++ rest') :
    first = second ∧ rest = rest' := by
  obtain ⟨later, hfirst⟩ := escaped_eq_cons first
  obtain ⟨later', hsecond⟩ := escaped_eq_cons second
  split at heq
  · rename_i hplain
    split at heq
    · exact List.cons.inj heq
    · rw [hsecond] at heq
      exact absurd (List.cons.inj heq).1 (ne_of_standsPlain hplain).2
  · split at heq
    · rename_i hplain
      rw [hfirst] at heq
      exact absurd (List.cons.inj heq).1.symm (ne_of_standsPlain hplain).2
    · exact escaped_read heq

theorem unit_ne_quote {previous next : Option UInt16} {unit : UInt16} {rest rest' : Units} :
    34 :: rest' ≠ (if standsPlain previous unit next then [unit] else escaped unit) ++ rest := by
  intro heq
  split at heq
  · rename_i hplain
    exact (ne_of_standsPlain hplain).1 (List.cons.inj heq).1.symm
  · obtain ⟨later, hunit⟩ := escaped_eq_cons unit
    rw [hunit] at heq
    exact absurd (List.cons.inj heq).1 (by decide)

theorem quotedFrom_read {previous previous' : Option UInt16} {first second rest rest' : Units}
    (heq : quotedFrom previous first ++ 34 :: rest = quotedFrom previous' second ++ 34 :: rest') :
    first = second ∧ rest = rest' := by
  induction first generalizing previous previous' second with
  | nil =>
    cases second with
    | nil => exact ⟨rfl, (List.cons.inj heq).2⟩
    | cons unit second =>
      rw [quotedFrom, quotedFrom, List.append_assoc] at heq
      exact absurd heq unit_ne_quote
  | cons unit first ih =>
    cases second with
    | nil =>
      rw [quotedFrom, quotedFrom, List.append_assoc] at heq
      exact absurd heq.symm unit_ne_quote
    | cons other second =>
      rw [quotedFrom, quotedFrom, List.append_assoc, List.append_assoc] at heq
      obtain ⟨hunit, hlater⟩ := unit_read heq
      obtain ⟨hfirst, hrest⟩ := ih hlater
      exact ⟨by rw [hunit, hfirst], hrest⟩

/-- Quoted texts are told apart, whatever follows. -/
theorem quoted_read {first second rest rest' : Units}
    (heq : quoted first ++ rest = quoted second ++ rest') : first = second ∧ rest = rest' := by
  rw [quoted, quoted, List.cons_append, List.cons_append, List.append_assoc, List.append_assoc] at heq
  exact quotedFrom_read (List.cons.inj heq).2

/-! ## Values -/

/-- The marks that may follow a value. -/
def IsJsonMark (unit : UInt16) : Prop := unit = 44 ∨ unit = 93 ∨ unit = 125

/-- The texts of numbers: they are told apart, and none has a character of the other texts in
front or a mark in it. -/
structure NumberTexts (numberText : Number → Units) : Prop where
  injective : Function.Injective numberText
  nonempty : ∀ number, numberText number ≠ []
  plain : ∀ number, ∀ unit ∈ numberText number, unit ∈ units "0123456789+-.e"

mutual

def printed (numberText : Number → Units) : Json Number → Units
  | .null => units "null"
  | .boolean true => units "true"
  | .boolean false => units "false"
  | .number value => numberText value
  | .string value => quoted value
  | .array items => 91 :: joined 44 (printedItems numberText items) ++ [93]
  | .object entries => 123 :: joined 44 (printedEntries numberText entries) ++ [125]

def printedItems (numberText : Number → Units) : List (Json Number) → List Units
  | [] => []
  | item :: items => printed numberText item :: printedItems numberText items

def printedEntries (numberText : Number → Units) : List (Units × Json Number) → List Units
  | [] => []
  | (key, item) :: entries =>
    (quoted key ++ 58 :: printed numberText item) :: printedEntries numberText entries

end

section Printed

variable {numberText : Number → Units}

theorem printedItems_eq (items : List (Json Number)) :
    printedItems numberText items = items.map (printed numberText) := by
  induction items with
  | nil => rfl
  | cons item items ih => rw [printedItems, ih, List.map_cons]

theorem printedEntries_eq (entries : List (Units × Json Number)) :
    printedEntries numberText entries =
      entries.map fun entry => quoted entry.1 ++ 58 :: printed numberText entry.2 := by
  induction entries with
  | nil => rfl
  | cons entry entries ih => rw [printedEntries, ih, List.map_cons]

/-- The first unit of the text of a value, or none where it may be any of a number. -/
def opening : Json Number → Option UInt16
  | .null => some 110
  | .boolean value => some (if value then 116 else 102)
  | .number _ => none
  | .string _ => some 34
  | .array _ => some 91
  | .object _ => some 123

def openingOf (unit : UInt16) : Option UInt16 :=
  if unit ∈ units "0123456789+-.e" then none else some unit

theorem printed_opening (hnumbers : NumberTexts numberText) (value : Json Number) :
    ∃ unit later, printed numberText value = unit :: later ∧ opening value = openingOf unit := by
  cases value with
  | null => exact ⟨_, _, by rw [printed]; rfl, rfl⟩
  | boolean value =>
    cases value with
    | false => exact ⟨_, _, by rw [printed]; rfl, rfl⟩
    | true => exact ⟨_, _, by rw [printed]; rfl, rfl⟩
  | number value =>
    obtain ⟨unit, later, htext⟩ := List.exists_cons_of_ne_nil (hnumbers.nonempty value)
    have hunit := hnumbers.plain value unit (by rw [htext]; exact List.mem_cons_self)
    exact ⟨unit, later, by rw [printed, htext], by rw [opening, openingOf, if_pos hunit]⟩
  | string value => exact ⟨_, _, by rw [printed, quoted]; rfl, rfl⟩
  | array items => exact ⟨_, _, by rw [printed]; rfl, rfl⟩
  | object entries => exact ⟨_, _, by rw [printed]; rfl, rfl⟩

theorem opening_eq (hnumbers : NumberTexts numberText) {first second : Json Number}
    {rest rest' : Units}
    (heq : printed numberText first ++ rest = printed numberText second ++ rest') :
    opening first = opening second := by
  obtain ⟨unit, later, hfirst, hunit⟩ := printed_opening hnumbers first
  obtain ⟨unit', later', hsecond, hunit'⟩ := printed_opening hnumbers second
  rw [hfirst, hsecond] at heq
  rw [hunit, hunit', (List.cons.inj heq).1]

/-- No text of a value begins with a bracket that closes a list. -/
theorem printed_ne_closing (hnumbers : NumberTexts numberText) (value : Json Number) :
    ∃ first later, printed numberText value = first :: later ∧ first ≠ 93 := by
  obtain ⟨unit, later, hprint, hunit⟩ := printed_opening hnumbers value
  refine ⟨unit, later, hprint, fun hclosing => ?_⟩
  have hbracket : openingOf 93 = some 93 := rfl
  rw [hclosing, hbracket] at hunit
  cases value with
  | boolean value => cases value <;> simp [opening] at hunit
  | null | number value | string value | array items | object entries =>
    simp [opening] at hunit

/-- Two numbers' texts in front of marks. -/
theorem numberText_read (hnumbers : NumberTexts numberText) {first second : Number}
    {rest rest' : Units} (hrest : Marked IsJsonMark rest) (hrest' : Marked IsJsonMark rest')
    (heq : numberText first ++ rest = numberText second ++ rest') :
    first = second ∧ rest = rest' := by
  have htake : ∀ (number : Number) (rest : Units), Marked IsJsonMark rest →
      (numberText number ++ rest).takeWhile (· ∈ units "0123456789+-.e") = numberText number := by
    intro number rest hmarked
    have hall : ∀ unit ∈ numberText number, decide (unit ∈ units "0123456789+-.e") = true :=
      fun unit hunit => decide_eq_true (hnumbers.plain number unit hunit)
    rw [List.takeWhile_append_of_pos hall]
    cases rest with
    | nil => rw [List.takeWhile_nil, List.append_nil]
    | cons unit rest =>
      have hstop : decide (unit ∈ units "0123456789+-.e") = false := by
        rcases hmarked unit rfl with rfl | rfl | rfl
        · decide
        · decide
        · decide
      rw [List.takeWhile_cons_of_neg (by rw [hstop]; exact Bool.false_ne_true), List.append_nil]
  have htext : numberText first = numberText second := by
    rw [← htake first rest hrest, heq, htake second rest' hrest']
  rw [htext] at heq
  exact ⟨hnumbers.injective htext, List.append_cancel_left heq⟩

/-- An entry of an object is told apart if its value is. -/
theorem entry_reads {entry : Units × Json Number}
    (hvalue : ReadsAs IsJsonMark (printed numberText) entry.2) :
    ReadsAs IsJsonMark
      (fun entry : Units × Json Number => quoted entry.1 ++ 58 :: printed numberText entry.2)
      entry := by
  intro other rest rest' hrest hrest' heq
  simp only [List.append_assoc, List.cons_append] at heq
  obtain ⟨hkey, hlater⟩ := quoted_read heq
  obtain ⟨hsame, hend⟩ := hvalue other.2 rest rest' hrest hrest' (List.cons.inj hlater).2
  exact ⟨Prod.ext hkey hsame, hend⟩

theorem entry_ne_closing (entry : Units × Json Number) :
    ∃ first later,
      quoted entry.1 ++ 58 :: printed numberText entry.2 = first :: later ∧ first ≠ 125 :=
  ⟨34, _, rfl, by decide⟩

/-- Different values have different texts, in front of a mark. -/
theorem printed_reads (hnumbers : NumberTexts numberText) (value : Json Number) :
    ReadsAs IsJsonMark (printed numberText) value := by
  induction value using Json.induct with
  | null =>
    intro other rest rest' _ _ heq
    have hopening := opening_eq hnumbers heq
    cases other with
    | null => exact ⟨rfl, List.append_cancel_left heq⟩
    | boolean value => cases value <;> simp [opening] at hopening
    | number value | string value | array items | object entries => simp [opening] at hopening
  | boolean value =>
    intro other rest rest' _ _ heq
    have hopening := opening_eq hnumbers heq
    cases other with
    | boolean value' =>
      have hvalue : value = value' := by
        cases value <;> cases value' <;> simp [opening] at hopening ⊢
      rw [hvalue] at heq ⊢
      exact ⟨rfl, List.append_cancel_left heq⟩
    | null | number value' | string value' | array items | object entries =>
      cases value <;> simp [opening] at hopening
  | number value =>
    intro other rest rest' hrest hrest' heq
    have hopening := opening_eq hnumbers heq
    cases other with
    | number value' =>
      obtain ⟨hvalue, hlater⟩ := numberText_read hnumbers hrest hrest' heq
      exact ⟨by rw [hvalue], hlater⟩
    | boolean value' | null | string value' | array items | object entries =>
      simp [opening] at hopening
  | string value =>
    intro other rest rest' _ _ heq
    have hopening := opening_eq hnumbers heq
    cases other with
    | string value' =>
      obtain ⟨hvalue, hlater⟩ := quoted_read heq
      exact ⟨by rw [hvalue], hlater⟩
    | boolean value' => cases value' <;> simp [opening] at hopening
    | null | number value' | array items | object entries => simp [opening] at hopening
  | array items ih =>
    intro other rest rest' _ _ heq
    have hopening := opening_eq hnumbers heq
    cases other with
    | array items' =>
      simp only [printed, printedItems_eq, List.cons_append, List.append_assoc,
        List.nil_append] at heq
      obtain ⟨hitems, hlater⟩ := joined_read (show IsJsonMark _ from Or.inl rfl)
        (Or.inr (Or.inl rfl)) (by decide) (printed_ne_closing hnumbers) ih (List.cons.inj heq).2
      exact ⟨by rw [hitems], hlater⟩
    | boolean value' => cases value' <;> simp [opening] at hopening
    | null | number value' | string value | object entries => simp [opening] at hopening
  | object entries ih =>
    intro other rest rest' _ _ heq
    have hopening := opening_eq hnumbers heq
    cases other with
    | object entries' =>
      simp only [printed, printedEntries_eq, List.cons_append, List.append_assoc,
        List.nil_append] at heq
      obtain ⟨hentries, hlater⟩ := joined_read (show IsJsonMark _ from Or.inl rfl)
        (Or.inr (Or.inr rfl)) (by decide) entry_ne_closing
        (fun entry hentry => entry_reads (ih entry hentry)) (List.cons.inj heq).2
      exact ⟨by rw [hentries], hlater⟩
    | boolean value' => cases value' <;> simp [opening] at hopening
    | null | number value' | string value | array items => simp [opening] at hopening

/-- Different values have different texts. -/
theorem printed_injective (hnumbers : NumberTexts numberText) :
    Function.Injective (printed numberText) := by
  intro first second heq
  have hnothing : Marked IsJsonMark [] := fun _ hnext => by cases hnext
  exact (printed_reads hnumbers first second [] [] hnothing hnothing (by rw [heq])).1

end Printed

end Finify.Foundations
