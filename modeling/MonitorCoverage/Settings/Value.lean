import MonitorCoverage.Binary64.Layout
import MonitorCoverage.Decimal.Literal
import MonitorCoverage.Text.Utf8
import MonitorCoverage.Yaml.Node

/-!
# Values of settings

A setting is a text, a number or a truth value. What is given as one is taken as another where that
has a plain sense: a number is a text, a text of digits is a number, and a number other than zero
is true.
-/

namespace MonitorCoverage.Settings

/-- What a setting is given as. -/
inductive Value where
  | text (bytes : Bytes)
  | int (i : Int)
  | float (x : Binary64)
  | bool (b : Bool)
  /-- A moment or a collection, which is no setting. -/
  | other
  deriving DecidableEq, Repr

namespace Value

/-- The value a node stands for; a null stands for none. -/
def ofNode? : Yaml.Node → Option Value
  | .null => none
  | .bool b => some (.bool b)
  | .int i => some (.int i)
  | .float x => some (.float x)
  | .timestamp => some .other
  | .text s => some (.text (utf8 s))
  | .sequence _ => some .other
  | .mapping _ => some .other

def toText? : Value → Option Bytes
  | text bytes => some bytes
  | int i => some (Decimal.bytes i)
  | float x => some (utf8 (x.text .positional))
  | bool b => some (utf8 (if b then "1" else "0"))
  | other => none

/-- A number without its fraction, or the least integer where it does not fit. -/
def wholePart (x : Binary64) : Int64 :=
  if x.isFinite then
    let whole : Int := if x.isNegative then -(x.truncate : Int) else x.truncate
    if Int64.minValue.toInt ≤ whole ∧ whole ≤ Int64.maxValue.toInt then Int64.ofInt whole
    else Int64.minValue
  else Int64.minValue

/-- An empty text is zero. -/
def toInt? : Value → Option Int64
  | text [] => some 0
  | text bytes => (Decimal.readLiteral (Text.lossyChars bytes)).toOption
  | int i => some (Int64.ofInt i)
  | float x => some (wholePart x)
  | bool b => some (if b then 1 else 0)
  | other => none

/-- The words for truth values. -/
def wordBool? (bytes : Bytes) : Option Bool :=
  if ["1", "t", "T", "TRUE", "true", "True"].any fun word => utf8 word = bytes then some true
  else if ["0", "f", "F", "FALSE", "false", "False"].any fun word => utf8 word = bytes then
    some false
  else none

/-- An empty text is false. -/
def toBool? : Value → Option Bool
  | text [] => some false
  | text bytes => wordBool? bytes
  | int i => some (i ≠ 0)
  | float x => some (x.magnitude ≠ 0)
  | bool b => some b
  | other => none

end Value

end MonitorCoverage.Settings
