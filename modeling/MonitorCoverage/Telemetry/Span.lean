import MonitorCoverage.Binary64.Layout
import MonitorCoverage.Bytes
import MonitorCoverage.Decimal.Integer

/-!
# Spans

A span tells what one piece of work was about: attributes in the order in which they were set, and
the number of errors that were recorded. Its context names it: the trace that it belongs to, the
span itself, and whether it is sampled.
-/

namespace MonitorCoverage.Telemetry

structure SpanContext where
  trace : Bytes
  span : Bytes
  isSampled : Bool
  deriving DecidableEq, Repr

namespace SpanContext

/-- The context of no span. -/
def none : SpanContext := { trace := [], span := [], isSampled := false }

/-- Both identifiers have a byte that is not zero. -/
def isValid (context : SpanContext) : Bool :=
  context.trace.any (· != 0) && context.span.any (· != 0)

end SpanContext

inductive SpanValue where
  | text (bytes : Bytes)
  | int (i : Int64)
  | number (x : Binary64)
  deriving DecidableEq, Repr

/-- A value as text. -/
def SpanValue.bytes : SpanValue → Bytes
  | text bytes => bytes
  | int i => Decimal.bytes i.toInt
  | number x => utf8 (x.text .general)

structure SpanAttribute where
  key : String
  value : SpanValue
  deriving DecidableEq, Repr

structure Span where
  name : String
  attributes : List SpanAttribute
  errors : Nat
  deriving DecidableEq, Repr

end MonitorCoverage.Telemetry
