import MonitorCoverage.Schema.Basic
import MonitorCoverage.Schema.Tag

/-!
# Schemas from types

The shape of a type determines the schema of its values. Lists become arrays, references take the
schema of what they refer to, and records become objects with a property for each field that has a
name in its `json` tag. A field is required unless its tag says that it is left out when empty.
Every other shape becomes an object with any members.
-/

namespace MonitorCoverage.Schema

inductive Scalar where
  | string | bool | signed | unsigned | address | float | complex | any | function
  deriving DecidableEq, Repr

inductive Shape where
  | scalar (kind : Scalar)
  | list (element : Shape)
  | reference (element : Shape)
  | fixedList (element : Shape)
  | map (element : Shape)
  | channel (element : Shape)
  /-- Fields by their tags. -/
  | record (fields : List (Bytes × Shape))
  deriving Repr, Inhabited

namespace Shape

/-- Properties, ordered by name, with one more, which takes the place of one with the same name. -/
def insertProperty (name : Bytes) (schema : Schema) : List (Bytes × Schema) → List (Bytes × Schema)
  | [] => [(name, schema)]
  | (n, s) :: properties =>
    if name = n then (name, schema) :: properties
    else if name.less n then (name, schema) :: (n, s) :: properties
    else (n, s) :: insertProperty name schema properties

/-- The name that a tag gives a field, and whether the field is required. -/
def propertyOf? (tag : Bytes) : Option (Bytes × Bool) :=
  let text := Tag.lookup (utf8 "json") tag
  if text.isEmpty || text = utf8 "-" then none
  else
    match text.splitOn ','.toUInt8 with
    | name :: option :: _ => some (name, option != utf8 "omitempty")
    | [name] => some (name, true)
    | [] => none

def scalarSchema : Scalar → Schema
  | .string => .string 0
  | .bool => .boolean
  | .signed | .unsigned => .integer {}
  | .float => .number {}
  | .address | .complex | .any | .function => .anyObject

mutual

/-- The schema of the values of a shape. -/
def schema : Shape → Schema
  | .scalar kind => scalarSchema kind
  | .list element => .array element.schema
  | .reference element => element.schema
  | .fixedList _ | .map _ | .channel _ => .anyObject
  | .record fields =>
    let (required, properties) := fieldSchemas fields [] []
    .object required properties
termination_by structural shape => shape

/-- The required names and the properties of fields, after those of the fields before. -/
def fieldSchemas : List (Bytes × Shape) → List Bytes → List (Bytes × Schema) →
    List Bytes × List (Bytes × Schema)
  | [], required, properties => (required, properties)
  | (tag, shape) :: fields, required, properties =>
    match propertyOf? tag with
    | none => fieldSchemas fields required properties
    | some (name, isRequired) =>
      fieldSchemas fields (if isRequired then required ++ [name] else required)
        (insertProperty name shape.schema properties)
termination_by structural fields => fields

end

end Shape

end MonitorCoverage.Schema
