import MonitorCoverage.Decimal.Literal
import MonitorCoverage.Yaml.Timestamp

/-!
# Plain scalars

A scalar without quotes stands for the value that its text looks like: nothing, a truth value, a
number or a timestamp, and else for the text itself.
-/

namespace MonitorCoverage.Yaml

/-- What a plain scalar stands for. -/
inductive Resolved where
  | null
  | bool (b : Bool)
  | int (i : Int)
  | float (x : Binary64)
  | timestamp
  | text
  deriving DecidableEq, Repr

/-- Whether a text is one of some words. -/
def isWord (words : List String) (cs : List Char) : Bool := words.contains (String.ofList cs)

/-- The values that have names. -/
def named? (cs : List Char) : Option Resolved :=
  if isWord ["true", "True", "TRUE"] cs then some (.bool true)
  else if isWord ["false", "False", "FALSE"] cs then some (.bool false)
  else if isWord ["", "~", "null", "Null", "NULL"] cs then some .null
  else if isWord [".nan", ".NaN", ".NAN"] cs then some (.float .nan)
  else if isWord [".inf", ".Inf", ".INF", "+.inf", "+.Inf", "+.INF"] cs then
    some (.float (.infinity false))
  else if isWord ["-.inf", "-.Inf", "-.INF"] cs then some (.float (.infinity true))
  else none

/-- Digits and a point: digits before it, after it or on both sides. -/
def isMantissa (cs : List Char) : Bool :=
  match cs.takeWhile Char.isDigit, cs.dropWhile Char.isDigit with
  | [], '.' :: places => !places.isEmpty && places.all Char.isDigit
  | _ :: _, '.' :: places => places.all Char.isDigit
  | _ :: _, [] => true
  | _, _ => false

/-- Whether a text has the form of a decimal number. -/
def isDecimal (cs : List Char) : Bool :=
  let unsigned := (Binary64.takeSign cs).2
  let isMark (c : Char) : Bool := c = 'e' || c = 'E'
  isMantissa (unsigned.takeWhile fun c => !isMark c)
    && match unsigned.dropWhile fun c => !isMark c with
      | [] => true
      | _ :: power =>
        let digits := (Binary64.takeSign power).2
        !digits.isEmpty && digits.all Char.isDigit

/-- A signed integer of 64 bits in a base. -/
def based? (base : Nat) (cs : List Char) : Option Int :=
  match Decimal.readSigned (Decimal.digitsNat? base) cs with
  | .ok i => some i.toInt
  | .error _ => none

/-- An integer in a base, signed or unsigned, of 64 bits. -/
def wide? (base : Nat) (cs : List Char) : Option Int :=
  match based? base cs with
  | some i => some i
  | none =>
    match Decimal.digitsNat? base cs with
    | some n => if n < Nat.pow 2 64 then some n else none
    | none => none

/-- The integer that a text without underscores stands for, or none. -/
def integer? (cs : List Char) : Option Int :=
  match Decimal.readLiteral cs with
  | .ok i => some i.toInt
  | .error _ =>
    match Decimal.literalNat? cs with
    | some n => if n < Nat.pow 2 64 then some n else none
    | none => none

/-- Binary and octal integers whose sign may also stand behind the prefix. -/
def prefixed? : List Char → Option Int
  | '0' :: 'b' :: digits => wide? 2 digits
  | '0' :: 'o' :: digits => wide? 8 digits
  | '-' :: '0' :: 'b' :: digits => based? 2 ('-' :: digits)
  | '-' :: '0' :: 'o' :: digits => based? 8 ('-' :: digits)
  | _ => none

/-- A number that starts with a digit or a sign. Underscores do not count. -/
def numeric? (cs : List Char) : Option Resolved :=
  let plain := cs.filter (· != '_')
  match integer? plain with
  | some i => some (.int i)
  | none =>
    match if isDecimal plain then (Binary64.read plain).toOption else none with
    | some x => some (.float x)
    | none => (prefixed? plain).map .int

/-- What a plain scalar stands for. -/
def resolve (cs : List Char) : Resolved :=
  match named? cs with
  | some value => value
  | none =>
    match cs with
    | [] => .null
    | c :: _ =>
      if c = '.' then
        match Binary64.read cs with
        | .ok x => .float x
        | .error _ => .text
      else if c.isDigit || c = '+' || c = '-' then
        if isTimestamp cs then .timestamp else (numeric? cs).getD .text
      else .text

/-! ## Words of older versions -/

/-- The groups of a number in base sixty after its first: a colon and one or two digits below
sixty each. -/
def isSexagesimalTail : List Char → Bool
  | ':' :: a :: b :: rest =>
    if a.isDigit && b.isDigit then a.toNat < 54 && isSexagesimalEnd rest
    else a.isDigit && isSexagesimalEnd (b :: rest)
  | [':', a] => a.isDigit
  | _ => false
where
  /-- The end of the number, its fraction or one more group. -/
  isSexagesimalEnd : List Char → Bool
    | [] => true
    | '.' :: places => places.all fun c => c.isDigit || c = '_'
    | rest => isSexagesimalTail rest

/-- Whether older versions read a text as a number in base sixty. -/
def isSexagesimal (cs : List Char) : Bool :=
  match (Binary64.takeSign cs).2 with
  | c :: rest => c.isDigit && isSexagesimalTail (rest.dropWhile fun c => c.isDigit || c = '_')
  | [] => false

/-- Whether older versions read a text as a truth value. -/
def isOldBool (cs : List Char) : Bool :=
  isWord ["y", "Y", "yes", "Yes", "YES", "on", "On", "ON", "n", "N", "no", "No", "NO", "off", "Off",
    "OFF"] cs

/-- Whether a text without quotes stands for itself in all versions. -/
def standsForItself (cs : List Char) : Bool :=
  resolve cs = .text && !isSexagesimal cs && !isOldBool cs

end MonitorCoverage.Yaml
