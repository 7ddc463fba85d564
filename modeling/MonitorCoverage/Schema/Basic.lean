import MonitorCoverage.Json.Basic
import MonitorCoverage.Text.Utf8

/-!
# Schemas of JSON values

A schema says which JSON values are valid: their type, the bounds of numbers and of the length of
strings, the items of arrays and the members of objects. An object has every required member and no
member besides its properties. What makes a value invalid is listed as violations, each with the
path to the place of the violation. Nothing more is said about a value of a wrong type.
-/

namespace MonitorCoverage

/-- The least and the greatest number that are valid, where there is one. -/
structure Bounds where
  least : Option Nat := none
  greatest : Option Nat := none
  deriving DecidableEq, Repr

inductive Schema where
  | string (minLength : Nat)
  | boolean
  | integer (bounds : Bounds)
  | number (bounds : Bounds)
  | array (items : Schema)
  /-- An object with any members. -/
  | anyObject
  | object (required : List Bytes) (properties : List (Bytes × Schema))
  deriving Repr, Inhabited

namespace Schema

/-- A place in a document, from the outside in, and what is wrong there. -/
structure Violation where
  path : List Bytes
  text : Bytes
  deriving DecidableEq, Repr

def Violation.message (violation : Violation) : Bytes :=
  (if violation.path.isEmpty then utf8 "(root)" else Bytes.joinWith (utf8 ".") violation.path)
    ++ utf8 ": " ++ violation.text

def typeName : Schema → String
  | string _ => "string"
  | boolean => "boolean"
  | integer _ => "integer"
  | number _ => "number"
  | array _ => "array"
  | anyObject | object _ _ => "object"

end Schema

/-- The violations of bounds by a number. -/
def Bounds.violations (bounds : Bounds) (path : List Bytes) (x : Decimal.Exact) :
    List Schema.Violation :=
  (match bounds.least with
    | some least =>
      if (Decimal.Exact.ofNat least).le x then []
      else [⟨path, utf8 "Must be greater than or equal to " ++ Decimal.bytes least⟩]
    | none => [])
  ++ match bounds.greatest with
    | some greatest =>
      if x.le (.ofNat greatest) then []
      else [⟨path, utf8 "Must be less than or equal to " ++ Decimal.bytes greatest⟩]
    | none => []

namespace Schema

def wrongType (schema : Schema) (path : List Bytes) (value : Json.Value) : Violation :=
  ⟨path, utf8 ("Invalid type. Expected: " ++ schema.typeName ++ ", given: " ++ value.kind)⟩

/-- The required members that an object lacks. -/
def missing (required : List Bytes) (path : List Bytes) (members : List (String × Json.Value)) :
    List Violation :=
  (required.filter fun name => members.all fun member => utf8 member.1 != name).map fun name =>
    ⟨path, name ++ utf8 " is required"⟩

/-- The members of an object that are none of the properties. -/
def additional (properties : List (Bytes × Schema)) (path : List Bytes)
    (members : List (String × Json.Value)) : List Violation :=
  (members.filter fun member => properties.all fun property => property.1 != utf8 member.1).map
    fun member => ⟨path, utf8 ("Additional property " ++ member.1 ++ " is not allowed")⟩

mutual

/-- What makes the value at a path invalid. -/
def violations : Schema → List Bytes → Json.Value → List Violation
  | .string minLength, path, .string text =>
    if text.length < minLength then
      [⟨path, utf8 "String length must be greater than or equal to " ++ Decimal.bytes minLength⟩]
    else []
  | .boolean, _, .bool _ => []
  | .integer bounds, path, .number literal =>
    if (Json.exactOf literal).isInteger then bounds.violations path (Json.exactOf literal)
    else [wrongType (.integer bounds) path (.number literal)]
  | .number bounds, path, .number literal => bounds.violations path (Json.exactOf literal)
  | .array itemSchema, path, .array items =>
    items.zipIdx.flatMap fun (item, i) => itemSchema.violations (path ++ [Decimal.bytes i]) item
  | .anyObject, _, .object _ => []
  | .object required properties, path, .object members =>
    missing required path members ++ additional properties path members
      ++ propertyViolations properties path members
  | schema, path, value => [schema.wrongType path value]
termination_by structural schema => schema

/-- What makes the members of an object invalid, property by property. -/
def propertyViolations : List (Bytes × Schema) → List Bytes → List (String × Json.Value) →
    List Violation
  | [], _, _ => []
  | (name, schema) :: properties, path, members =>
    (match members.find? fun member => utf8 member.1 = name with
      | some member => schema.violations (path ++ [name]) member.2
      | none => [])
    ++ propertyViolations properties path members
termination_by structural properties => properties

end

/-- Whether a value is valid. -/
def accepts (schema : Schema) (value : Json.Value) : Bool := (schema.violations [] value).isEmpty

/-! ## Schemas as JSON -/

/-- A text as a JSON string. -/
def jsonText (bytes : Bytes) : String := String.ofList (Text.lossyChars bytes)

def boundMembers (bounds : Bounds) : List (String × Json.Value) :=
  (match bounds.least with
    | some least => [("minimum", .ofInt least)]
    | none => [])
  ++ match bounds.greatest with
    | some greatest => [("maximum", .ofInt greatest)]
    | none => []

mutual

/-- The members of the JSON form of a schema. -/
def jsonMembers : Schema → List (String × Json.Value)
  | .string minLength =>
    ("type", .string "string") :: if minLength = 0 then [] else [("minLength", .ofInt minLength)]
  | .boolean => [("type", .string "boolean")]
  | .integer bounds => ("type", .string "integer") :: boundMembers bounds
  | .number bounds => ("type", .string "number") :: boundMembers bounds
  | .array items => [("type", .string "array"), ("items", .object items.jsonMembers)]
  | .anyObject => [("type", .string "object")]
  | .object required properties =>
    ("type", .string "object")
      :: (if required.isEmpty then []
          else [("required", .array (required.map fun name => .string (jsonText name)))])
      ++ [("additionalProperties", .bool false)]
      ++ if properties.isEmpty then [] else [("properties", .object (jsonProperties properties))]
termination_by structural schema => schema

def jsonProperties : List (Bytes × Schema) → List (String × Json.Value)
  | [] => []
  | (name, schema) :: properties =>
    (jsonText name, .object schema.jsonMembers) :: jsonProperties properties
termination_by structural properties => properties

end

def toJson (schema : Schema) : Json.Value := .object schema.jsonMembers

/-- A schema as a document of its own, with the version of the schema language and a title. -/
def titledJson (schema : Schema) (title : Bytes) : Json.Value :=
  .object (("$schema", .string "http://json-schema.org/draft-07/schema#")
    :: (if title.isEmpty then [] else [("title", .string (jsonText title))]) ++ schema.jsonMembers)

end Schema

end MonitorCoverage
