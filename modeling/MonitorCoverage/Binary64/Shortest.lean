import MonitorCoverage.Binary64.Basic
import MonitorCoverage.Decimal.Integer

/-!
# Shortest decimals

The shortest decimal of a number has the fewest digits among the decimals that round to it, and is
the nearest of those; of two that are equally near, the one with the even last digit.
-/

namespace MonitorCoverage.Binary64

/-- The decimal `coefficient · 10 ^ exponent`. -/
structure ShortDecimal where
  coefficient : Nat
  exponent : Int
  deriving DecidableEq, Repr

namespace ShortDecimal

/-- The decimal without the zeros at the end of its coefficient. -/
def strip (d : ShortDecimal) : ShortDecimal :=
  if d.coefficient = 0 then ⟨0, 0⟩
  else if d.coefficient % 10 = 0 then strip ⟨d.coefficient / 10, d.exponent + 1⟩
  else d
termination_by d.coefficient

end ShortDecimal

/-- Twice the number one, in units. -/
def halfUnitsOfOne : Nat := Nat.pow 2 1075

/-- Whether a decimal lies among the values that round to a magnitude. The two ends, halfway to the
neighbouring magnitudes, belong to it iff the magnitude is even. -/
def roundsTo (magnitude : Nat) (d : ShortDecimal) : Bool :=
  let point := d.coefficient * Nat.pow 10 d.exponent.toNat * halfUnitsOfOne
  let scale := Nat.pow 10 (-d.exponent).toNat
  let low := (unitsOf (magnitude - 1) + unitsOf magnitude) * scale
  let high := (unitsOf magnitude + unitsOf (magnitude + 1)) * scale
  if magnitude % 2 = 0 then low ≤ point && point ≤ high else low < point && point < high

/-- The number of decimal digits before the point; for a value below one, minus the number of zeros
after the point. Every magnitude but zero has a value above 10 ^ -400. -/
def pointPosition (magnitude : Nat) : Int :=
  ((Decimal.ofNat (unitsOf magnitude * Nat.pow 10 400 / unitsOfOne)).length : Int) - 400

/-- Of the two decimals around a magnitude on the grid of a power of ten, the one to write, if one
of them rounds to it. -/
def onGrid? (magnitude : Nat) (exponent : Int) : Option ShortDecimal :=
  let num := unitsOf magnitude * Nat.pow 10 (-exponent).toNat
  let den := unitsOfOne * Nat.pow 10 exponent.toNat
  let low : ShortDecimal := ⟨num / den, exponent⟩
  let high : ShortDecimal := ⟨num / den + 1, exponent⟩
  match roundsTo magnitude low, roundsTo magnitude high with
  | true, true => some ⟨roundHalfEven num den, exponent⟩
  | true, false => some low
  | false, true => some high
  | false, false => none

/-- The first hit when the number of digits grows. Seventeen digits tell all numbers apart. -/
def searchShortest (magnitude : Nat) (position : Int) (digits : Nat) : ShortDecimal :=
  match onGrid? magnitude (position - digits) with
  | some decimal => decimal.strip
  | none =>
    if digits < 17 then searchShortest magnitude position (digits + 1)
    else ⟨unitsOf magnitude, -1074⟩
termination_by 17 - digits

/-- The shortest decimal of a finite magnitude. -/
def shortest (magnitude : Nat) : ShortDecimal :=
  if magnitude = 0 then ⟨0, 0⟩ else searchShortest magnitude (pointPosition magnitude) 1

end MonitorCoverage.Binary64
