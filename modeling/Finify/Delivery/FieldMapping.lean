/-
# Field mappings

`map` reads the context by paths, converts what it finds, and writes it into the body by paths or
into the headers, the query and the path by names.  Objects are values here: an object of the
context that has been put into the body is shared in the source, and is changed there only by a
mapping whose target leads through the target that it was put at.  Contexts and literals come from
JSON.
-/

import Finify.Credit.Conditions
import Finify.Foundations.Paths

namespace Finify.Delivery.FieldMapping

open Foundations
open Credit.Conditions (Language Number Value field hasOwn segments)

abbrev Fields : Type := List (String × Value)

/-- What the language does that the service relies on. -/
structure Runtime extends Language where
  /-- `toLowerCase`. -/
  lower : String → String
  /-- `toFixed(2)`. -/
  fixed : ℚ → String
  /-- `JSON.stringify`, which can give `undefined` or throw. -/
  stringify : Value → Option Value

/-- `location`. -/
inductive Location
  | body
  | header
  | query
  | path
  | message
  deriving DecidableEq, Repr

/-- `type`. -/
inductive Kind
  | string
  | number
  | decimal
  | boolean
  | raw
  deriving DecidableEq, Repr

/-- `FieldMappingDto`. -/
structure Mapping where
  source : String
  target : String
  location : Option Location := none
  required : Bool := false
  type : Option Kind := none
  defaultValue : Value := .undefined
  literalValue : Value := .undefined

/-- `MappingContext`. -/
structure MappingContext where
  message : Fields
  transaction : Fields
  system : Fields
  secret : Fields

def MappingContext.toFields (context : MappingContext) : Fields :=
  [("message", .object context.message), ("transaction", .object context.transaction),
    ("system", .object context.system), ("secret", .object context.secret)]

/-- `MappedRequest`. -/
structure MappedRequest where
  body : Fields := []
  headers : Fields := []
  query : Fields := []
  path : Fields := []

/-- What `map` throws. -/
inductive Failure
  | badRequest (message : String)
  | typeError
  deriving DecidableEq, Repr

/-! ## Paths -/

/-- A property of an object, where arrays have none. -/
def child (language : Language) (current : Value) (segment : String) : Value :=
  match current with
  | .array _ => .undefined
  | current => current.property language segment

/-- `readPath`. -/
def readPath (language : Language) (source : Fields) (path : String) : Value :=
  (segments path).foldl (child language) (.object source)

/-- An assignment to a property; assigning to `__proto__` never makes a property. -/
def setProperty (name : String) (value : Value) (fields : Fields) : Fields :=
  if name = "__proto__" then fields else assign name value fields

/-- The object that stands there, or a new one. -/
def opened : Value → Fields
  | .object fields => fields
  | _ => []

/-- `writePath` along the parts of a path. -/
def writeAt (language : Language) (value : Value) : List String → Fields → Fields
  | [], fields => fields
  | [part], fields => setProperty part value fields
  | part :: next :: rest, fields =>
    setProperty part
      (.object (writeAt language value (next :: rest)
        (opened ((Value.object fields).property language part)))) fields

/-- `writePath`. -/
def writePath (language : Language) (target : Fields) (path : String) (value : Value) :
    Except Failure Fields :=
  if segments path = [] then .error (.badRequest "Integration mapping target cannot be empty")
  else .ok (writeAt language value (segments path) target)

/-! ## Mappings -/

/-- What a conversion gives, where it does not throw an error of the language. -/
def orTypeError {α : Type} (found : Option α) : Except Failure α :=
  match found with
  | some value => .ok value
  | none => .error .typeError

/-- `convert` to a number, which has to be finite. -/
def toNumber (runtime : Runtime) (value : Value) (message : String) : Except Failure ℚ := do
  match ← orTypeError (value.toNumber runtime.toLanguage) with
  | .finite number => .ok number
  | _ => .error (.badRequest message)

/-- `convert`. -/
def convert (runtime : Runtime) (value : Value) (type : Kind) (source : String) :
    Except Failure Value :=
  match type with
  | .string => (orTypeError (value.toText runtime.toLanguage)).map .text
  | .number =>
    (toNumber runtime value (source ++ " is not a valid number")).map fun number =>
      .number (.finite number)
  | .decimal =>
    (toNumber runtime value (source ++ " is not a valid decimal")).map fun number =>
      .text (runtime.fixed number)
  | .boolean =>
    match value with
    | .boolean flag => .ok (.boolean flag)
    | value => do
        let text ← orTypeError (value.toText runtime.toLanguage)
        if runtime.lower text = "true" then .ok (.boolean true)
        else if runtime.lower text = "false" then .ok (.boolean false)
        else .error (.badRequest (source ++ " is not a valid boolean"))
  | .raw => .ok value

/-- The value that a mapping takes from its source, its literal or its default. -/
def Mapping.value (language : Language) (context : MappingContext) (mapping : Mapping) : Value :=
  let value :=
    if mapping.source = "literalValue" then mapping.literalValue
    else readPath language context.toFields mapping.source
  if value.isMissing || value.is "" then mapping.defaultValue else value

/-- The text that a header, a query or a path takes. -/
def scalar (runtime : Runtime) : Value → Except Failure Value
  | .text value => .ok (.text value)
  | value => orTypeError (runtime.stringify value)

def MappedRequest.place (runtime : Runtime) (mapping : Mapping) (converted : Value)
    (result : MappedRequest) : Except Failure MappedRequest :=
  match mapping.location.getD .body with
  | .body | .message => do
      let body ← writePath runtime.toLanguage result.body mapping.target converted
      .ok { result with body := body }
  | .header => do
      let text ← scalar runtime converted
      .ok { result with headers := setProperty mapping.target text result.headers }
  | .query => do
      let text ← scalar runtime converted
      .ok { result with query := setProperty mapping.target text result.query }
  | .path => do
      let text ← scalar runtime converted
      .ok { result with path := setProperty mapping.target text result.path }

def Mapping.converted (runtime : Runtime) (context : MappingContext) (mapping : Mapping) :
    Except Failure (Option Value) :=
  let value := mapping.value runtime.toLanguage context
  if value.isMissing && mapping.required then
    .error (.badRequest
      ("Required integration mapping source " ++ mapping.source ++ " has no value"))
  else
    match value with
    | .undefined => .ok none
    | value => (convert runtime value (mapping.type.getD .raw) mapping.source).map some

/-- One mapping of `map`. -/
def MappedRequest.add (runtime : Runtime) (context : MappingContext) (result : MappedRequest)
    (mapping : Mapping) : Except Failure MappedRequest := do
  match ← mapping.converted runtime context with
  | none => .ok result
  | some converted => result.place runtime mapping converted

/-- `map`. -/
def map (runtime : Runtime) (mappings : List Mapping) (context : MappingContext) :
    Except Failure MappedRequest :=
  mappings.foldlM (MappedRequest.add runtime context) {}

/-- `resolve`. -/
def resolve (language : Language) (source : Option String) (context : MappingContext) :
    Option (Option String) :=
  match source with
  | none | some "" => some none
  | some source =>
    let value := readPath language context.toFields source
    if value.isMissing then some none else (value.toText language).map some

end Finify.Delivery.FieldMapping
