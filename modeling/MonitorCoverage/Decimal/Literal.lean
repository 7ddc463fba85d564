import MonitorCoverage.Binary64.Reader

/-!
# Integer literals

Integers in decimal, and integer literals, whose prefix may give another base and whose digits may
be separated by underscores. A reader of signed integers of 64 bits tells what is malformed from
what is out of range.
-/

namespace MonitorCoverage.Decimal

open Binary64 (takeDigits takeSign underscoresFit valueOf)

inductive LiteralError where
  | malformed
  | outOfRange
  deriving DecidableEq, Repr

/-- The number that a text of digits stands for. -/
def digitsNat? (base : Nat) (cs : List Char) : Option Nat :=
  match takeDigits base cs with
  | (d :: ds, []) => some (valueOf base (d :: ds))
  | _ => none

/-- A literal without sign: hexadecimal after `0x`, binary after `0b`, octal after `0o` or `0`, else
decimal. -/
def literalNat? (cs : List Char) : Option Nat :=
  if cs.contains '_' && !underscoresFit cs then none
  else
    match cs.filter (· != '_') with
    | '0' :: mark :: d :: digits =>
      match mark.toLower with
      | 'x' => digitsNat? 16 (d :: digits)
      | 'b' => digitsNat? 2 (d :: digits)
      | 'o' => digitsNat? 8 (d :: digits)
      | _ => digitsNat? 8 (mark :: d :: digits)
    | '0' :: mark :: digits => digitsNat? 8 (mark :: digits)
    | digits => digitsNat? 10 digits

/-- The magnitude with its sign, where 64 bits can hold it. -/
def signed64 (negative : Bool) (magnitude : Nat) : Except LiteralError Int64 :=
  if negative then
    if magnitude ≤ Nat.pow 2 63 then .ok (Int64.ofInt (-(magnitude : Int))) else .error .outOfRange
  else if magnitude < Nat.pow 2 63 then .ok (Int64.ofInt magnitude) else .error .outOfRange

/-- An optional sign and a magnitude. -/
def readSigned (magnitude? : List Char → Option Nat) (cs : List Char) : Except LiteralError Int64 :=
  let (sign, unsigned) := takeSign cs
  match magnitude? unsigned with
  | some magnitude => signed64 (sign = some true) magnitude
  | none => .error .malformed

/-- A decimal integer with an optional sign. -/
def readInteger (cs : List Char) : Except LiteralError Int64 := readSigned (digitsNat? 10) cs

/-- A literal with an optional sign. -/
def readLiteral (cs : List Char) : Except LiteralError Int64 := readSigned literalNat? cs

end MonitorCoverage.Decimal
