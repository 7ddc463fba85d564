import MonitorCoverage.Binary64.Layout
import MonitorCoverage.Lock.State

/-!
# Tallies

How many instructions a method has and how many of them run under a lock, and the sums of these over
a class. A jump that compares counts twice. Sums are signed words that wrap around.
-/

namespace MonitorCoverage.Lock

structure Tally where
  total : Int64
  locked : Int64
  deriving DecidableEq, Repr

namespace Tally

def zero : Tally := ⟨0, 0⟩

/-- One more instruction. -/
def count (tally : Tally) (locked : Bool) : Tally :=
  { total := tally.total + 1, locked := if locked then tally.locked + 1 else tally.locked }

def add (a b : Tally) : Tally := ⟨a.total + b.total, a.locked + b.locked⟩

/-- The tally after an event. -/
def countEvent (tally : Tally) (event : Event) (locked : Bool) : Tally :=
  if event.kind = .compareJump then (tally.count locked).count locked else tally.count locked

end Tally

/-- An underflow at an event of a method. -/
structure MethodFault where
  name : Bytes
  descriptor : Bytes
  event : Nat
  underflow : Underflow
  deriving DecidableEq, Repr

def MethodFault.message (fault : MethodFault) : Bytes :=
  utf8 "method " ++ fault.name ++ fault.descriptor ++ utf8 " event " ++ Decimal.bytes fault.event
    ++ utf8 ": " ++ fault.underflow.message

/-- The tally after some events, or the number of the event that failed and how. -/
def tallyFrom (state : LockState) (tally : Tally) (number : Nat) :
    List Event → Except (Nat × Underflow) Tally
  | [] => .ok tally
  | event :: events =>
    match state.step event with
    | (.ok locked, state) => tallyFrom state (tally.countEvent event locked) (number + 1) events
    | (.error underflow, _) => .error (number, underflow)

/-- The tally of a method. -/
def MethodUnit.tally (unit : MethodUnit) : Except MethodFault Tally :=
  match tallyFrom (.start unit.isSynchronized) .zero 0 unit.events with
  | .ok tally => .ok tally
  | .error (event, underflow) =>
    .error { name := unit.name, descriptor := unit.descriptor, event, underflow }

structure ClassTally where
  total : Int64
  locked : Int64
  methods : Int64
  fields : Int64
  deriving DecidableEq, Repr

/-- The sums of the tallies of methods. -/
def ClassTally.ofMethods (tallies : List Tally) : ClassTally :=
  let sum := tallies.foldl Tally.add .zero
  { total := sum.total, locked := sum.locked, methods := Int64.ofNat tallies.length, fields := 0 }

/-! ## The locked share -/

/-- A number rounded to hundredths, halves away from zero. -/
def roundHundredths (x : Binary64) : Binary64 := ((x.mul (.ofNat 100)).round).div (.ofNat 100)

/-- The locked share in percent, rounded to hundredths. Of nothing, no share is locked. -/
def percentOf (locked total : Int64) : Binary64 :=
  if total < 1 then .zero
  else roundHundredths (((Binary64.ofInt locked.toInt).div (.ofInt total.toInt)).mul (.ofNat 100))

def Tally.percent (tally : Tally) : Binary64 := percentOf tally.locked tally.total

def ClassTally.percent (tally : ClassTally) : Binary64 := percentOf tally.locked tally.total

/-- A percentage has as many places as it needs, and at least one. -/
def percentChars (x : Binary64) : List Char :=
  let digits := x.chars .positional
  if digits.contains '.' then digits else digits ++ ['.', '0']

def percentText (x : Binary64) : String := String.ofList (percentChars x)

/-- The line that sums up a class: total, locked and percentage, with four blanks between. -/
def ClassTally.line (tally : ClassTally) : String :=
  Decimal.text tally.total.toInt ++ "    " ++ Decimal.text tally.locked.toInt ++ "    "
    ++ percentText tally.percent ++ "%"

end MonitorCoverage.Lock
