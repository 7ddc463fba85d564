import MonitorCoverage.Binary64.Shortest

/-!
# Numbers as text

A number is written by its shortest decimal, either positionally or with an exponent. Which one is
taken depends on the exponent of the first digit and is a property of the place where the number is
written.
-/

namespace MonitorCoverage.Binary64

/-- How numbers are written at some place. -/
structure Layout where
  /-- Whether a decimal whose first digit stands for this power of ten is written positionally. -/
  isPositional : Int → Bool
  /-- The least number of digits of an exponent. -/
  exponentDigits : Nat

/-- Never an exponent. -/
def Layout.positional : Layout := ⟨fun _ => true, 2⟩

/-- An exponent below 10⁻⁴ and from 10⁶ on. -/
def Layout.general : Layout := ⟨fun e => -4 ≤ e && e < 6, 2⟩

/-- An exponent below 10⁻⁶ and from 10²¹ on. -/
def Layout.wide : Layout := ⟨fun e => -6 ≤ e && e < 21, 1⟩

/-- Digits with the decimal point after a number of them. -/
def placePoint (digits : List Char) (position : Int) : List Char :=
  if position ≤ 0 then '0' :: '.' :: List.replicate (-position).toNat '0' ++ digits
  else if digits.length ≤ position.toNat then
    digits ++ List.replicate (position.toNat - digits.length) '0'
  else digits.take position.toNat ++ '.' :: digits.drop position.toNat

/-- Digits with an exponent after them. -/
def withExponent (digits : List Char) (exponent : Int) (least : Nat) : List Char :=
  let mantissa := match digits with
    | [] => []
    | [d] => [d]
    | d :: ds => d :: '.' :: ds
  let power := Decimal.ofNat exponent.natAbs
  mantissa ++ 'e' :: (if exponent < 0 then '-' else '+')
    :: List.replicate (least - power.length) '0' ++ power

/-- The text of a finite magnitude. -/
def magnitudeText (layout : Layout) (magnitude : Nat) : List Char :=
  if magnitude = 0 then ['0']
  else
    let decimal := shortest magnitude
    let digits := Decimal.ofNat decimal.coefficient
    let position := digits.length + decimal.exponent
    if layout.isPositional (position - 1) then placePoint digits position
    else withExponent digits (position - 1) layout.exponentDigits

def chars (layout : Layout) (x : Binary64) : List Char :=
  if x.isNaN then ['N', 'a', 'N']
  else if x.isInfinite then (if x.isNegative then '-' else '+') :: ['I', 'n', 'f']
  else (if x.isNegative then ['-'] else []) ++ magnitudeText layout x.magnitude

def text (layout : Layout) (x : Binary64) : String := String.ofList (chars layout x)

end MonitorCoverage.Binary64
