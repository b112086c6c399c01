/-
# Conditions of credit rules

The condition engine over the values of the language.  Calls that throw give none.  What the
language makes of numbers, texts and dates, and what objects inherit, comes as a parameter; texts
are compared by their UTF-16 code units, as the language compares them.
-/

import Finify.Credit.Tables
import Finify.Foundations.Formula
import Mathlib.Data.List.Lex
import Mathlib.Data.Rat.Floor

namespace Finify.Credit.Conditions

open Finify.Foundations

/-! ## Values -/

/-- A number of the language. -/
inductive Number
  | finite (value : ℚ)
  | infinite (negative : Bool)
  | nan
  deriving DecidableEq

/-- A value of the language, as rules and data hold it. -/
inductive Value
  | undefined
  | null
  | boolean (value : Bool)
  | number (value : Number)
  | text (value : String)
  | date (milliseconds : ℤ)
  | array (items : List Value)
  | object (fields : List (String × Value))
  | function (source : String)

/-- What the language does that the service relies on. -/
structure Language where
  /-- `String` of a number. -/
  numeral : Number → String
  /-- `Number` of a text. -/
  readNumber : String → Number
  /-- `new Date(text).getTime()`, where it is a number. -/
  readDate : String → Option ℤ
  /-- `String` of a date. -/
  dateText : ℤ → String
  /-- A property that an object has from its prototype. -/
  inherited : Value → String → Value

/-- `value === null || value === undefined`. -/
def Value.isMissing : Value → Bool
  | .undefined | .null => true
  | _ => false

def Value.is (expected : String) : Value → Bool
  | .text value => value = expected
  | _ => false

/-- `!value`. -/
def Value.isFalsy : Value → Bool
  | .undefined | .null | .number .nan => true
  | .boolean value => !value
  | .number (.finite value) => value = 0
  | .text value => value = ""
  | _ => false

/-- `value !== false`. -/
def Value.isNotFalse : Value → Bool
  | .boolean value => value
  | _ => true

/-- A field of an object by its name, which is undefined where there is none. -/
def field (fields : List (String × Value)) (name : String) : Value :=
  ((fields.find? fun entry => entry.1 = name).map Prod.snd).getD .undefined

def hasOwn (fields : List (String × Value)) (name : String) : Bool :=
  fields.any fun entry => entry.1 = name

section Conversions

variable (language : Language)

mutual

/-- `String` of a value. -/
def Value.toText : Value → Option String
  | .undefined => some "undefined"
  | .null => some "null"
  | .boolean value => some (if value then "true" else "false")
  | .number value => some (language.numeral value)
  | .text value => some value
  | .date milliseconds => some (language.dateText milliseconds)
  | .array items => (itemTexts items).map (String.intercalate ",")
  -- a field of data is never a function, so that it hides the one that is inherited
  | .object fields => if hasOwn fields "toString" then none else some "[object Object]"
  | .function source => some source

/-- The texts that an array joins. -/
def itemTexts : List Value → Option (List String)
  | [] => some []
  | item :: rest => do
      let text ← if item.isMissing then some "" else item.toText
      let texts ← itemTexts rest
      some (text :: texts)

end

/-- `Number` of a value. -/
def Value.toNumber : Value → Option Number
  | .undefined => some .nan
  | .null => some (.finite 0)
  | .boolean value => some (.finite (if value then 1 else 0))
  | .number value => some value
  | .text value => some (language.readNumber value)
  | .date milliseconds => some (.finite milliseconds)
  | .array items => ((Value.array items).toText language).map language.readNumber
  | .object fields => ((Value.object fields).toText language).map fun _ => .nan
  | .function _ => some .nan

/-- The number of a value where `Number.isFinite` holds of it. -/
def Value.toFinite (value : Value) : Option ℚ :=
  match value.toNumber language with
  | some (.finite found) => some found
  | _ => none

def Value.property (name : String) : Value → Value
  | .object fields =>
    if hasOwn fields name then field fields name
    else language.inherited (.object fields) name
  | .array items =>
    match (List.range items.length).find? fun index => toString index = name with
    | some index => items.getD index .undefined
    | none => language.inherited (.array items) name
  | .date milliseconds => language.inherited (.date milliseconds) name
  | _ => .undefined

/-- `path.split('.').filter(Boolean)`. -/
def segments (path : String) : List String :=
  ((path.toList.splitOn '.').map String.ofList).filter (· ≠ "")

/-- `readField`. -/
def readField (value : Value) (path : String) : Value :=
  (segments path).foldl (fun current name => current.property language name) value

end Conversions

/-- `Math.trunc`. -/
def trunc (value : ℚ) : ℤ := if 0 ≤ value then ⌊value⌋ else ⌈value⌉

/-- The characters that `trim` takes away. -/
def isSpace (letter : Char) : Bool :=
  letter.toNat ∈ [9, 10, 11, 12, 13, 32, 160, 5760, 8232, 8233, 8239, 8287, 12288, 65279] ||
    8192 ≤ letter.toNat && letter.toNat ≤ 8202

/-- `trim`. -/
def trim (text : String) : List Char :=
  ((text.toList.dropWhile isSpace).reverse.dropWhile isSpace).reverse

/-- `trim().toLowerCase()` as far as words of the alphabet tell it. -/
def word (text : String) : List Char := (trim text).map Char.toLower

def readBoolean (text : String) : Option Bool :=
  if word text ∈ ["true", "1", "yes", "y"].map String.toList then some true
  else if word text ∈ ["false", "0", "no", "n"].map String.toList then some false
  else none

def codeUnits (text : String) : List ℕ :=
  text.toList.flatMap fun letter =>
    if letter.toNat < 65536 then [letter.toNat]
    else [55296 + (letter.toNat - 65536) / 1024, 56320 + (letter.toNat - 65536) % 1024]

/-! ## Comparison -/

abbrev Carrier : DataType → Type
  | .string => List ℕ
  | .decimal | .integer | .date | .datetime => ℚ
  | .boolean => Bool

instance (dataType : DataType) : LinearOrder (Carrier dataType) :=
  match dataType with
  | .string => inferInstanceAs (LinearOrder (List ℕ))
  | .decimal | .integer | .date | .datetime => inferInstanceAs (LinearOrder ℚ)
  | .boolean => inferInstanceAs (LinearOrder Bool)

/-- A coerced value. -/
inductive Coerced (α : Type)
  | undefined
  | null
  | present (value : α)
  deriving DecidableEq

/-- A value is missing after coercion. -/
def Coerced.isMissing {α : Type} : Coerced α → Bool
  | .undefined | .null => true
  | .present _ => false

def convert (language : Language) (value : Value) : (dataType : DataType) → Option (Carrier dataType)
  | .string => (value.toText language).map codeUnits
  | .decimal => value.toFinite language
  | .integer => (value.toFinite language).map fun number => (trunc number : ℚ)
  | .boolean =>
    match value with
    | .boolean flag => some flag
    | other => (other.toText language).bind readBoolean
  | .date | .datetime =>
    ((value.toText language).bind language.readDate).map fun epoch => (epoch : ℚ)

/-- `coerce`. -/
def coerce (language : Language) (dataType : DataType) : Value → Option (Coerced (Carrier dataType))
  | .undefined => some .undefined
  | .null => some .null
  | value => (convert language value dataType).map .present

/-- `compare`. -/
def Coerced.compare {α : Type} [LinearOrder α] (left right : Coerced α) : Ordering :=
  if left = right then .eq
  else
    match left, right with
    | .undefined, _ | .null, _ => .lt
    | .present _, .undefined | .present _, .null => .gt
    | .present first, .present second => if first < second then .lt else .gt

/-! ## Evaluation -/

/-- `ConditionLeaf`; a field that the leaf lacks is undefined. -/
structure Leaf where
  field : Value := .undefined
  dataType : Value := .undefined
  operator : Value
  value : Value := .undefined
  values : Value := .undefined
  lowerValue : Value := .undefined
  upperValue : Value := .undefined
  lowerInclusive : Value := .undefined
  upperInclusive : Value := .undefined

/-- `ConditionNode`. -/
abbrev Node := Formula Leaf

/-- The value that a leaf reads of the data; `split` of anything but a text throws. -/
def Leaf.read (language : Language) (raw : Value) (leaf : Leaf) : Option Value :=
  if leaf.field.isFalsy then some raw
  else
    match leaf.field with
    | .text path => some (readField language raw path)
    | _ => none

/-- `leaf.dataType ?? dataType`, where the switch of `coerce` takes any other value for a text. -/
def Leaf.effectiveType (dataType : DataType) (leaf : Leaf) : DataType :=
  match leaf.dataType with
  | .undefined | .null => dataType
  | .text "DECIMAL" => .decimal
  | .text "INTEGER" => .integer
  | .text "BOOLEAN" => .boolean
  | .text "DATE" => .date
  | .text "DATETIME" => .datetime
  | _ => .string

/-- The switch over the operators that compare with one value. -/
def decides (operator : Value) (result : Ordering) : Bool :=
  if operator.is "EQUALS" then result = .eq
  else if operator.is "NOT_EQUALS" then result ≠ .eq
  else if operator.is "GREATER_THAN" then result = .gt
  else if operator.is "GREATER_THAN_OR_EQUAL" then result ≠ .lt
  else if operator.is "LESS_THAN" then result = .lt
  else if operator.is "LESS_THAN_OR_EQUAL" then result ≠ .gt
  else false

/-- `leaf.values ?? []`. -/
def Leaf.items (leaf : Leaf) : Option (List Value) :=
  match leaf.values with
  | .undefined | .null => some []
  | .array items => some items
  | _ => none

/-- The operator is one of two. -/
def Leaf.isOneOf (first second : String) (leaf : Leaf) : Bool :=
  leaf.operator.is first || leaf.operator.is second

/-- `lowerOk`. -/
def Leaf.lowerOk (leaf : Leaf) (result : Ordering) : Bool :=
  if leaf.operator.is "BETWEEN" || leaf.lowerInclusive.isNotFalse then result ≠ .lt
  else result = .gt

/-- `upperOk`. -/
def Leaf.upperOk (leaf : Leaf) (result : Ordering) : Bool :=
  if leaf.operator.is "BETWEEN" || leaf.upperInclusive.isNotFalse then result ≠ .gt
  else result = .lt

/-- `evaluate` of a leaf whose value has been read. -/
def Leaf.judge (language : Language) (dataType : DataType) (raw : Value) (leaf : Leaf) :
    Option Bool :=
  if leaf.operator.is "IS_NULL" then some raw.isMissing
  else if leaf.operator.is "IS_NOT_NULL" then some !raw.isMissing
  else do
    let actual ← coerce language dataType raw
    if leaf.isOneOf "IN" "NOT_IN" then
      let items ← leaf.items
      let contains ← Connective.any.gather (items.map fun item =>
        (coerce language dataType item).map fun expected => actual.compare expected = .eq)
      some (if leaf.operator.is "IN" then contains else !contains)
    else if leaf.isOneOf "BETWEEN" "RANGE" then
      let lower ← coerce language dataType leaf.lowerValue
      let upper ← coerce language dataType leaf.upperValue
      some (leaf.lowerOk (actual.compare lower) && leaf.upperOk (actual.compare upper))
    else
      let expected ← coerce language dataType leaf.value
      some (decides leaf.operator (actual.compare expected))

/-- `evaluate` of a leaf. -/
def Leaf.evaluate (language : Language) (raw : Value) (dataType : DataType) (leaf : Leaf) :
    Option Bool := do
  let value ← leaf.read language raw
  leaf.judge language (leaf.effectiveType dataType) value

/-- `evaluate`. -/
def evaluate (language : Language) (node : Node) (raw : Value) (dataType : DataType) :
    Option Bool :=
  node.evaluate (Leaf.evaluate language raw dataType)

/-! ## Validation -/

/-- The operators that `validate` allows. -/
def operators : List String :=
  ["EQUALS", "NOT_EQUALS", "GREATER_THAN", "GREATER_THAN_OR_EQUAL", "LESS_THAN",
    "LESS_THAN_OR_EQUAL", "BETWEEN", "RANGE", "IN", "NOT_IN", "IS_NULL", "IS_NOT_NULL"]

/-- The constants of a range are numbers in their order. -/
def Leaf.isRanged (language : Language) (leaf : Leaf) : Bool :=
  match leaf.lowerValue.toFinite language, leaf.upperValue.toFinite language with
  | some lower, some upper => decide (lower < upper)
  | _, _ => false

def Value.isArray : Value → Bool
  | .array _ => true
  | _ => false

/-- What `validate` checks of a leaf. -/
def Leaf.isValid (language : Language) (leaf : Leaf) : Bool :=
  match leaf.operator.toText language with
  | none => false
  | some operator =>
    operators.contains operator &&
      (!(["BETWEEN", "RANGE"].contains operator) || leaf.isRanged language) &&
      (!(["IN", "NOT_IN"].contains operator) || leaf.values.isArray)

/-- The leaf that an object is read as. -/
def Leaf.of (fields : List (String × Value)) : Leaf where
  field := Conditions.field fields "field"
  dataType := Conditions.field fields "dataType"
  operator := Conditions.field fields "operator"
  value := Conditions.field fields "value"
  values := Conditions.field fields "values"
  lowerValue := Conditions.field fields "lowerValue"
  upperValue := Conditions.field fields "upperValue"
  lowerInclusive := Conditions.field fields "lowerInclusive"
  upperInclusive := Conditions.field fields "upperInclusive"

/-- The value is not `undefined`. -/
def Value.isDefined : Value → Bool
  | .undefined => false
  | _ => true

/-- The children of a group, of which there are between 1 and 50. -/
def children : Value → Option (List Value)
  | .array items => if 1 ≤ items.length ∧ items.length ≤ 50 then some items else none
  | _ => none

/-- `validate` with the levels that may still nest, of the condition that it asserts. -/
def validate (language : Language) : ℕ → Value → Option Node
  | levels + 1, .object fields =>
    match ["all", "any", "not"].filter fun key => (field fields key).isDefined with
    | [] => if (Leaf.of fields).isValid language then some (.atom (Leaf.of fields)) else none
    | ["not"] => (validate language levels (field fields "not")).map .not
    | ["all"] => do
        let items ← children (field fields "all")
        (items.mapM (validate language levels)).map (.group .all)
    | ["any"] => do
        let items ← children (field fields "any")
        (items.mapM (validate language levels)).map (.group .any)
    | _ => none
  | _, _ => none

/-- `validate` of a condition that is not nested. -/
def accept (language : Language) (condition : Value) : Option Node :=
  validate language 9 condition

def readDigits (letters : List Char) : Number :=
  if letters.all Char.isDigit then
    .finite ((letters.foldl (fun number letter => 10 * number + (letter.toNat - 48)) 0 : ℕ) : ℚ)
  else .nan

/-- The language on whole numbers and on texts that are not dates. -/
def plain : Language where
  numeral
    | .finite value => toString value.num
    | .infinite negative => if negative then "-Infinity" else "Infinity"
    | .nan => "NaN"
  readNumber text := readDigits (trim text)
  readDate _ := none
  dateText milliseconds := toString milliseconds
  inherited _ _ := .undefined

end Finify.Credit.Conditions
