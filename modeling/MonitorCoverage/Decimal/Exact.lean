import MonitorCoverage.Decimal.Integer

/-!
# Exact decimals

A decimal number with as many digits as it was written with, so that comparing it and asking whether
it is whole need no rounding.
-/

namespace MonitorCoverage.Decimal

/-- The coefficient times a power of ten, with a sign. -/
structure Exact where
  negative : Bool
  coefficient : Nat
  exponent : Int
  deriving DecidableEq, Repr

namespace Exact

def ofNat (n : Nat) : Exact := ⟨false, n, 0⟩

/-- The largest exponent, either way, of numbers that are looked at closely. -/
def farthest : Nat := 1000000

/-- Whether a number is whole. Numbers with an exponent beyond the farthest count as broken. -/
def isInteger (x : Exact) : Bool :=
  x.coefficient = 0
    || (x.exponent.natAbs ≤ farthest
      && (0 ≤ x.exponent || x.coefficient % Nat.pow 10 x.exponent.natAbs = 0))

/-- The coefficient with its sign. -/
def signed (x : Exact) : Int := if x.negative then -(x.coefficient : Int) else x.coefficient

/-- The order of numbers; an exponent beyond the farthest is taken as the farthest. -/
def le (x y : Exact) : Bool :=
  let clamp (e : Int) : Int := max (-(farthest : Int)) (min farthest e)
  let ex := clamp x.exponent
  let ey := clamp y.exponent
  let least := min ex ey
  x.signed * Nat.pow 10 (ex - least).toNat ≤ y.signed * Nat.pow 10 (ey - least).toNat

end Exact

end MonitorCoverage.Decimal
