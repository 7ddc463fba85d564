import MonitorCoverage.Json.Basic
import MonitorCoverage.Yaml.Scalar

/-!
# Nodes of a document

A document is a tree of scalars, sequences and mappings. A mapping has each key once.
-/

namespace MonitorCoverage.Yaml

inductive Node where
  | null
  | bool (b : Bool)
  | int (i : Int)
  | float (x : Binary64)
  | timestamp
  | text (text : String)
  | sequence (items : List Node)
  | mapping (pairs : List (String × Node))
  deriving Repr, Inhabited

namespace Node

/-- What a scalar without quotes stands for. -/
def ofPlain (cs : List Char) : Node :=
  match resolve cs with
  | .null => .null
  | .bool b => .bool b
  | .int i => .int i
  | .float x => .float x
  | .timestamp => .timestamp
  | .text => .text (String.ofList cs)

mutual

/-- The node that a JSON value stands for. There is none for a number beyond the floating-point
numbers. -/
def ofJson? (value : Json.Value) : Option Node :=
  match value with
  | .null => some .null
  | .bool b => some (.bool b)
  | .number literal => (Binary64.read literal).toOption.map .float
  | .string s => some (.text s)
  | .array items => (ofItems? items).map .sequence
  | .object members => (ofMembers? members).map .mapping
termination_by structural value

def ofItems? (items : List Json.Value) : Option (List Node) :=
  match items with
  | [] => some []
  | item :: items => do
    let node ← ofJson? item
    return node :: (← ofItems? items)
termination_by structural items

def ofMembers? (members : List (String × Json.Value)) : Option (List (String × Node)) :=
  match members with
  | [] => some []
  | member :: members => do
    let pair ← ofMember? member
    return pair :: (← ofMembers? members)
termination_by structural members

def ofMember? (member : String × Json.Value) : Option (String × Node) :=
  match member with
  | (key, value) => (ofJson? value).map fun node => (key, node)
termination_by structural member

end

end Node

end MonitorCoverage.Yaml
