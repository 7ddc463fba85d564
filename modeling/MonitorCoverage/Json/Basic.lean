import MonitorCoverage.Decimal.Exact

/-!
# JSON values

Objects keep the order of their members and have each key once. A number is kept as it was written.
-/

namespace MonitorCoverage.Json

inductive Value where
  | null
  | bool (b : Bool)
  | number (literal : List Char)
  | string (text : String)
  | array (items : List Value)
  | object (members : List (String × Value))
  deriving Repr, Inhabited

/-- Members with one more, which takes the place of one with the same key. -/
def insertMember (key : String) (value : Value) : List (String × Value) → List (String × Value)
  | [] => [(key, value)]
  | (k, v) :: members =>
    if key = k then (key, value) :: members else (k, v) :: insertMember key value members

/-- The value of a member. -/
def lookupMember (key : String) : List (String × Value) → Option Value
  | [] => none
  | (k, v) :: members => if key = k then some v else lookupMember key members

/-! ## Numbers -/

/-- The number that an exponent stands for. -/
def exponentOf : List Char → Int
  | '-' :: digits => -(Decimal.valueFrom 0 digits : Int)
  | '+' :: digits => Decimal.valueFrom 0 digits
  | digits => Decimal.valueFrom 0 digits

/-- The digits of a number literal, its sign and its power of ten. -/
def exactOf (literal : List Char) : Decimal.Exact :=
  let (negative, unsigned) := match literal with
    | '-' :: rest => (true, rest)
    | rest => (false, rest)
  let isMark (c : Char) : Bool := c = 'e' || c = 'E'
  let mantissa := unsigned.takeWhile fun c => !isMark c
  let power := (unsigned.dropWhile fun c => !isMark c).drop 1
  let whole := mantissa.takeWhile (· != '.')
  let places := (mantissa.dropWhile (· != '.')).drop 1
  ⟨negative, Decimal.valueFrom 0 (whole ++ places), exponentOf power - places.length⟩

namespace Value

def ofInt (i : Int) : Value := .number (Decimal.ofInt i)

/-- The kind of a value, where whole numbers are a kind of their own. -/
def kind : Value → String
  | null => "null"
  | bool _ => "boolean"
  | number literal => if (exactOf literal).isInteger then "integer" else "number"
  | string _ => "string"
  | array _ => "array"
  | object _ => "object"

end Value

end MonitorCoverage.Json
