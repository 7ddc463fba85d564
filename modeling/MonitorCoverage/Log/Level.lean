import MonitorCoverage.Decimal.Literal
import MonitorCoverage.Text.Utf8

/-!
# Log levels

A level is an integer. Four levels have names, and the others are written as a distance from the
nearest name at or below them.
-/

namespace MonitorCoverage.Log

structure Level where
  value : Int64
  deriving DecidableEq, Repr, Inhabited

namespace Level

def debug : Level := ⟨-4⟩
def info : Level := ⟨0⟩
def warn : Level := ⟨4⟩
def error : Level := ⟨8⟩

/-- A name and a distance from it. -/
def relative (name : String) (distance : Int64) : String :=
  if distance = 0 then name
  else if distance < 0 then name ++ Decimal.text distance.toInt
  else name ++ "+" ++ Decimal.text distance.toInt

def text (level : Level) : String :=
  if level.value < info.value then relative "DEBUG" (level.value - debug.value)
  else if level.value < warn.value then relative "INFO" (level.value - info.value)
  else if level.value < error.value then relative "WARN" (level.value - warn.value)
  else relative "ERROR" (level.value - error.value)

/-- The upper-case form of a character that has an ASCII one. Besides the ASCII letters these are
the dotless i and the long s. -/
def upper (c : Char) : Char :=
  if c = Char.ofNat 0x131 then 'I' else if c = Char.ofNat 0x17F then 'S' else c.toUpper

def named? (name : String) : Option Level :=
  if name = "DEBUG" then some debug
  else if name = "INFO" then some info
  else if name = "WARN" then some warn
  else if name = "ERROR" then some error
  else none

/-- The level that a text names: a name in any case, and an optional distance with its sign. -/
def read? (bytes : Bytes) : Option Level :=
  let chars := Text.lossyChars bytes
  let isSign (c : Char) : Bool := c = '+' || c = '-'
  let name := String.ofList ((chars.takeWhile fun c => !isSign c).map upper)
  match chars.dropWhile fun c => !isSign c with
  | [] => named? name
  | distance =>
    match Decimal.readInteger distance, named? name with
    | .ok distance, some level => some ⟨level.value + distance⟩
    | _, _ => none

end Level

end MonitorCoverage.Log
