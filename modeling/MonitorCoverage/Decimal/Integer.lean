import MonitorCoverage.Bytes

/-!
# Integers in decimal

Writing an integer in decimal, and the value of a run of digits. Writing uses no superfluous zeros
and a sign only below zero.
-/

namespace MonitorCoverage.Decimal

/-- The digits of a number, most significant first, in front of some text. -/
def digitsOnto (n : Nat) (tail : List Char) : List Char :=
  if n < 10 then Nat.digitChar n :: tail
  else digitsOnto (n / 10) (Nat.digitChar (n % 10) :: tail)
termination_by n

def ofNat (n : Nat) : List Char := digitsOnto n []

def ofInt : Int → List Char
  | .ofNat n => ofNat n
  | .negSucc n => '-' :: ofNat (n + 1)

/-- The decimal form of an integer as a string. -/
def text (i : Int) : String := String.ofList (ofInt i)

/-- The decimal form of an integer as bytes. -/
def bytes (i : Int) : Bytes := utf8 (text i)

def digitValue (c : Char) : Nat := c.toNat - '0'.toNat

/-- The value of a run of digits, read on from a value. -/
def valueFrom (start : Nat) (digits : List Char) : Nat :=
  digits.foldl (fun value digit => 10 * value + digitValue digit) start

end MonitorCoverage.Decimal
