/-!
# Binary floating-point numbers of 64 bits

A number is its 64 bits: a sign and a magnitude. Every finite magnitude is a whole number of units
of 2⁻¹⁰⁷⁴, so finite numbers are compared and computed with as integers, and the only inexact step
is `nearestMagnitude`, which rounds an exact quotient of units to the nearest magnitude and a tie to
the even one.
-/

namespace MonitorCoverage

structure Binary64 where
  bits : UInt64
  deriving DecidableEq, Repr, Inhabited

namespace Binary64

/-- The number of magnitudes that share an exponent. -/
def fractions : Nat := Nat.pow 2 52

/-- The bits of the sign. -/
def signBits : Nat := Nat.pow 2 63

/-- The magnitude of infinity; larger magnitudes are no numbers. -/
def infinityMagnitude : Nat := 2047 * Nat.pow 2 52

/-- The number one, in units. -/
def unitsOfOne : Nat := Nat.pow 2 1074

def ofParts (negative : Bool) (magnitude : Nat) : Binary64 :=
  ⟨UInt64.ofNat (magnitude + if negative then signBits else 0)⟩

def isNegative (x : Binary64) : Bool := signBits ≤ x.bits.toNat

def magnitude (x : Binary64) : Nat := x.bits.toNat % signBits

def isNaN (x : Binary64) : Bool := infinityMagnitude < x.magnitude

def isInfinite (x : Binary64) : Bool := x.magnitude = infinityMagnitude

def isFinite (x : Binary64) : Bool := x.magnitude < infinityMagnitude

def nan : Binary64 := ⟨0x7FF8000000000001⟩

def infinity (negative : Bool) : Binary64 := ofParts negative infinityMagnitude

def zero : Binary64 := ⟨0⟩

/-- The units of a magnitude. The magnitude of infinity gets those that the next finite number
would have. -/
def unitsOf (magnitude : Nat) : Nat :=
  if magnitude < fractions then magnitude
  else (fractions + magnitude % fractions) * Nat.pow 2 (magnitude / fractions - 1)

/-- The absolute value of a finite number in units. -/
def units (x : Binary64) : Nat := unitsOf x.magnitude

/-- A finite number in units. -/
def signedUnits (x : Binary64) : Int := if x.isNegative then -(x.units : Int) else x.units

/-- The integer nearest to a quotient; of two that are equally near, the even one. -/
def roundHalfEven (num den : Nat) : Nat :=
  let low := num / den
  let twice := 2 * (num % den)
  if twice < den then low else if den < twice then low + 1 else low + low % 2

/-- The magnitude nearest to a quotient of units. -/
def nearestMagnitude (num den : Nat) : Nat :=
  let shift := (num / den).log2 - 52
  min infinityMagnitude (shift * fractions + roundHalfEven num (den * Nat.pow 2 shift))

def ofNat (n : Nat) : Binary64 := ofParts false (nearestMagnitude (n * unitsOfOne) 1)

def ofInt (i : Int) : Binary64 :=
  ofParts (i < 0) (nearestMagnitude (i.natAbs * unitsOfOne) 1)

/-- The number nearest to a quotient of integers. -/
def ofQuotient (negative : Bool) (num den : Nat) : Binary64 :=
  ofParts negative (nearestMagnitude (num * unitsOfOne) den)

def mul (x y : Binary64) : Binary64 :=
  let negative := x.isNegative != y.isNegative
  if x.isNaN || y.isNaN then nan
  else if x.isInfinite || y.isInfinite then
    if x.magnitude = 0 || y.magnitude = 0 then nan else infinity negative
  else ofParts negative (nearestMagnitude (x.units * y.units) unitsOfOne)

def div (x y : Binary64) : Binary64 :=
  let negative := x.isNegative != y.isNegative
  if x.isNaN || y.isNaN then nan
  else if x.isInfinite then if y.isInfinite then nan else infinity negative
  else if y.isInfinite then ofParts negative 0
  else if y.magnitude = 0 then if x.magnitude = 0 then nan else infinity negative
  else ofParts negative (nearestMagnitude (x.units * unitsOfOne) y.units)

def add (x y : Binary64) : Binary64 :=
  if x.isNaN || y.isNaN then nan
  else if x.isInfinite then
    if y.isInfinite && x.isNegative != y.isNegative then nan else x
  else if y.isInfinite then y
  else
    let sum := x.signedUnits + y.signedUnits
    if sum = 0 then ofParts (x.isNegative && y.isNegative) 0
    else ofParts (sum < 0) (nearestMagnitude sum.natAbs 1)

/-- The nearest integer; of two that are equally near, the one farther from zero. -/
def round (x : Binary64) : Binary64 :=
  if x.isFinite then
    let whole := (2 * x.units + unitsOfOne) / (2 * unitsOfOne)
    ofParts x.isNegative (nearestMagnitude (whole * unitsOfOne) 1)
  else x

/-- The greatest integer that is not above a finite number. -/
def floor (x : Binary64) : Int := x.signedUnits.fdiv unitsOfOne

/-- The absolute value of a finite number without its fraction. -/
def truncate (x : Binary64) : Nat := x.units / unitsOfOne

/-- An integer that orders the numbers as their values; both zeros have the same. -/
def key (x : Binary64) : Int := if x.isNegative then -(x.magnitude : Int) else x.magnitude

def le (x y : Binary64) : Bool := !x.isNaN && !y.isNaN && x.key ≤ y.key

def lt (x y : Binary64) : Bool := !x.isNaN && !y.isNaN && x.key < y.key

end Binary64

end MonitorCoverage
